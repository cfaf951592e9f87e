import PlanarNewton.PointTable
import PlanarNewton.Proofs.Decimal.Reading

/-!
# Tables of points are read back

The fields of a table hold digits, a point, a sign or the name of a special value
(`isPlain_positional`), so they need no quotes, and lines and fields are where the separators are
(`pieces_write`, `pieces_line`). Each field is read as the double that it was written for, and so a table
is read back as it was (`read?_write`). A `Disk` says what happens to the files: saving a table empties a
file and then appends record by record (`saveAt_eq`), so that of several tables saved at one path the
last one remains (`saveAll_append`). Main statement: `write_faithful`.
-/

namespace PlanarNewton.PointTable
open Binary64 Decimal Text

/-- The characters that fields are made of. -/
def IsPlain (cs : List Char) : Prop :=
  ∀ c ∈ cs, c.isAlphanum = true ∨ c = '.' ∨ c = '-'

/-- A plain text has no other signs than letters, digits, points and minus signs. -/
lemma IsPlain.not_mem {cs : List Char} (h : IsPlain cs) {c : Char} (hc : c.isAlphanum = false)
    (hp : c ≠ '.') (hm : c ≠ '-') : c ∉ cs := by
  intro hmem
  rcases h c hmem with ha | rfl | rfl
  · rw [hc] at ha
    cases ha
  · exact hp rfl
  · exact hm rfl

/-- A minus sign leaves a text plain. -/
lemma isPlain_signed (s : Float.Model.UnpackedFloat.Sign) {cs : List Char} (h : IsPlain cs) :
    IsPlain (Decimal.signed s cs) := by
  cases s with
  | positive => exact h
  | negative => exact List.forall_mem_cons.mpr ⟨.inr (.inr rfl), h⟩

/-- A text with a sign is not empty. -/
lemma signed_ne_nil (s : Float.Model.UnpackedFloat.Sign) {cs : List Char} (h : cs ≠ []) :
    Decimal.signed s cs ≠ [] := by
  cases s with
  | positive => exact h
  | negative => exact List.cons_ne_nil _ _

/-- Letters and digits are plain. -/
lemma isPlain_of_all {cs : List Char} (h : cs.all Char.isAlphanum = true) : IsPlain cs := fun c hc =>
  .inl (List.all_eq_true.mp h c hc)

/-- A numeral is plain. -/
lemma isPlain_of_numeral {cs : List Char} {q : ℚ} (h : Numeral cs q) : IsPlain cs := fun c hc => by
  rcases h.mem hc with hd | rfl
  · exact .inl (by simp [Char.isAlphanum, hd])
  · exact .inr (.inl rfl)

/-- A numeral is not empty. -/
lemma ne_nil_of_numeral {cs : List Char} {q : ℚ} (h : Numeral cs q) : cs ≠ [] := by
  obtain ⟨c, rest, rfl, -⟩ := h.exists_digit
  exact List.cons_ne_nil c rest

/-- A field is not empty and has plain characters only. -/
lemma isPlain_positional (x : Float) :
    IsPlain (positional x).toList ∧ (positional x).toList ≠ [] := by
  rw [positional, Decimal.write, String.toList_ofList]
  cases x.toModel.unpack with
  | notANumber => exact ⟨isPlain_of_all rfl, List.cons_ne_nil _ _⟩
  | infinity s =>
    exact ⟨isPlain_signed s (isPlain_of_all rfl), signed_ne_nil s (List.cons_ne_nil _ _)⟩
  | zero s =>
    have h := numeral_positional ⟨0, 0⟩
    exact ⟨isPlain_signed s (isPlain_of_numeral h), signed_ne_nil s (ne_nil_of_numeral h)⟩
  | finite s m e hm =>
    have h := numeral_positional (shortest m e)
    exact ⟨isPlain_signed s (isPlain_of_numeral h), signed_ne_nil s (ne_nil_of_numeral h)⟩

/-- A field that a reader would misread without quotes around it. -/
def NeedsQuotes (field : List Char) : Prop :=
  field = [] ∨ ∃ c ∈ field, c = ',' ∨ c = '"' ∨ c = '\n' ∨ c = '\r'

/-- It can be decided whether a field needs quotes. -/
instance (field : List Char) : Decidable (NeedsQuotes field) :=
  inferInstanceAs (Decidable (_ ∨ _))

/-- A number in a table needs no quotes. -/
lemma not_needsQuotes_positional (x : Float) : ¬NeedsQuotes (positional x).toList := by
  obtain ⟨hplain, hne⟩ := isPlain_positional x
  rintro (h | ⟨c, hc, rfl | rfl | rfl | rfl⟩)
  · exact hne h
  all_goals exact hplain.not_mem rfl (by decide) (by decide) hc

/-- A field, in quotes where they are needed; a quote between them is written twice. -/
def quoted (field : List Char) : List Char :=
  if NeedsQuotes field then
    '"' :: field.flatMap (fun c => if c = '"' then ['"', '"'] else [c]) ++ ['"']
  else field

/-- The text of a record: its fields between commas, and a line break. -/
def record (fields : List (List Char)) : List Char :=
  [','].intercalate (fields.map quoted) ++ ['\n']

/-- The fields of a table, record by record. -/
def records (points : List (Vec2 Float)) : List (List (List Char)) :=
  [['x'], ['y']] :: points.map fun p => [(positional p.x).toList, (positional p.y).toList]

/-- Fields that need no quotes are written as they are, with a comma between them. -/
lemma record_pair {a b : List Char} (ha : ¬NeedsQuotes a) (hb : ¬NeedsQuotes b) :
    record [a, b] = a ++ ',' :: b ++ ['\n'] := by
  simp [record, quoted, ha, hb, List.intercalate]

/-- A table is the text of its records. -/
lemma write_eq_records (points : List (Vec2 Float)) :
    write points = String.ofList ((records points).flatMap record) := by
  have hline (p : Vec2 Float) :
      record [(positional p.x).toList, (positional p.y).toList] = line p ++ ['\n'] :=
    record_pair (not_needsQuotes_positional p.x) (not_needsQuotes_positional p.y)
  have hheader : record [['x'], ['y']] = header ++ ['\n'] :=
    record_pair (by simp [NeedsQuotes]) (by simp [NeedsQuotes])
  simp only [write, records, List.flatMap_cons, List.flatMap_map, hline, hheader]

/-- Lines without breaks in them are where the breaks are, and nothing is behind the last one. -/
lemma pieces_lines {ls : List (List Char)} (h : ∀ l ∈ ls, '\n' ∉ l) :
    pieces '\n' (ls.flatMap (· ++ ['\n'])) = ls ++ [[]] := by
  induction ls with
  | nil => rfl
  | cons l ls ih =>
    rw [List.forall_mem_cons] at h
    rw [List.flatMap_cons, List.append_assoc, List.singleton_append, pieces_append_sep h.1, ih h.2]
    rfl

/-- The lines of a table: the header, and one for each point. -/
lemma pieces_write (points : List (Vec2 Float)) :
    pieces '\n' (write points).toList = header :: points.map line ++ [[]] := by
  rw [write, String.toList_ofList]
  apply pieces_lines
  rw [List.forall_mem_cons]
  refine ⟨by decide, ?_⟩
  rw [List.forall_mem_map]
  intro p _
  have hx := (isPlain_positional p.x).1.not_mem (c := '\n') rfl (by decide) (by decide)
  have hy := (isPlain_positional p.y).1.not_mem (c := '\n') rfl (by decide) (by decide)
  simp [line, hx, hy]

/-- The line of a point has two fields. -/
lemma pieces_line (p : Vec2 Float) :
    pieces ',' (line p) = [(positional p.x).toList, (positional p.y).toList] := by
  have hx := (isPlain_positional p.x).1.not_mem (c := ',') rfl (by decide) (by decide)
  have hy := (isPlain_positional p.y).1.not_mem (c := ',') rfl (by decide) (by decide)
  rw [line, pieces_append_sep hx, pieces_eq_singleton hy]

/-- The line of a point reads back as the point. -/
lemma readLine?_line (p : Vec2 Float) : readLine? (line p) = some p := by
  rw [readLine?, pieces_line]
  simp [readChars?_positional]

/-- The lines of a table, with the empty one after the last line break, read back as its points. -/
lemma readLines?_map_line (points : List (Vec2 Float)) :
    readLines? (points.map line ++ [[]]) = some points := by
  induction points with
  | nil => rfl
  | cons p points ih =>
    -- More lines follow, so this is not the empty one at the end.
    obtain ⟨l, ls, hrest⟩ := List.exists_cons_of_ne_nil
      (List.append_ne_nil_of_right_ne_nil (points.map line) (List.cons_ne_nil [] []))
    rw [List.map_cons, List.cons_append, hrest, readLines?, ← hrest, ih, readLine?_line]
    · rfl
    · simp

/-- A table is read back as it was written. -/
theorem read?_write (points : List (Vec2 Float)) : read? (write points) = some points := by
  rw [read?, pieces_write]
  exact (if_pos rfl).trans (readLines?_map_line points)

/-- What is at each path, and what the file there holds. -/
structure Disk where
  place : String → Place
  text : String → String

namespace Disk

variable {d d' : Disk} {path : String}

/-- The disk with a text at a path. -/
def withText (d : Disk) (path : String) (text : String) : Disk :=
  { d with text := Function.update d.text path text }

/-- Makes an empty file at a path, or empties the one that is there. -/
def create (d : Disk) (path : String) : Except SaveError Disk :=
  match d.place path with
  | .file => .ok (d.withText path "")
  | .missingDirectory => .error .notFound
  | .directory => .error .isADirectory

/-- Adds a record at the end of a file. -/
def append (path : String) (d : Disk) (fields : List (List Char)) : Disk :=
  d.withText path (d.text path ++ String.ofList (record fields))

/-- Saves a table at a path, record by record. -/
def saveAt (path : String) (d : Disk) (points : List (Vec2 Float)) : Except SaveError Disk := do
  return (records points).foldl (append path) (← d.create path)

/-- Saves several tables at one path, one after the other. -/
def saveAll (path : String) (d : Disk) (tables : List (List (Vec2 Float))) : Except SaveError Disk :=
  tables.foldlM (saveAt path) d

/-- At the path that was written there is the text. -/
@[simp]
lemma text_withText (d : Disk) (path text : String) : (d.withText path text).text path = text :=
  Function.update_self _ _ _

/-- Of two texts at one path, the later one stays. -/
@[simp]
lemma withText_withText (d : Disk) (path t t' : String) :
    (d.withText path t).withText path t' = d.withText path t' := by
  simp [withText]

/-- The records of a file stand behind each other. -/
lemma foldl_append (path : String) (d : Disk) (text : String) (rs : List (List (List Char))) :
    rs.foldl (append path) (d.withText path text) =
      d.withText path (text ++ String.ofList (rs.flatMap record)) := by
  induction rs generalizing text with
  | nil => simp
  | cons r rs ih =>
    rw [List.foldl_cons, append, text_withText, withText_withText, ih, String.append_assoc,
      List.flatMap_cons, String.ofList_append]

/-- A saved table is all that the file holds, and no other file is touched. -/
lemma saveAt_eq (path : String) (d : Disk) (points : List (Vec2 Float)) :
    d.saveAt path points = (save (d.place path) points).map (d.withText path) := by
  rw [saveAt, create]
  cases d.place path with
  | file =>
    show Except.ok ((records points).foldl (append path) (d.withText path "")) =
      Except.ok (d.withText path (write points))
    rw [foldl_append, String.empty_append, write_eq_records]
  | missingDirectory => rfl
  | directory => rfl

/-- The last of the tables that are saved at one path remains. -/
lemma saveAll_append (h : d.place path = .file) (earlier : List (List (Vec2 Float)))
    (points : List (Vec2 Float)) :
    d.saveAll path (earlier ++ [points]) = .ok (d.withText path (write points)) := by
  have hsave {d : Disk} (h : d.place path = .file) (points : List (Vec2 Float)) :
      d.saveAt path points = .ok (d.withText path (write points)) := by
    rw [saveAt_eq, h]
    rfl
  induction earlier generalizing d with
  | nil =>
    rw [List.nil_append, saveAll, List.foldlM_cons, hsave h]
    rfl
  | cons table earlier ih =>
    rw [List.cons_append, saveAll, List.foldlM_cons, hsave h]
    exact (ih (d := d.withText path (write table)) h).trans (by rw [withText_withText])

end Disk

/--
A table is its header and a line of two fields for each point, in order; a writer that quotes where it has
to never does. The reader rounds the exact value of any decimal, and finite coordinates are written as
decimals without an exponent. The two fields of a line are read as the two coordinates, to the bit, and so
the table is read as it was. After several tables were saved at one path the file there holds the last
one, and nothing else has changed.
-/
theorem write_faithful (points : List (Vec2 Float)) :
    (pieces '\n' (write points).toList = header :: points.map line ++ [[]] ∧
      ∀ p ∈ points, pieces ',' (line p) = [(positional p.x).toList, (positional p.y).toList]) ∧
    (write points = String.ofList ((records points).flatMap record) ∧
      ∀ fields ∈ records points, ∀ field ∈ fields, ¬NeedsQuotes field) ∧
    (∀ cs q, Numeral cs q → ∃ x, value x = Value.round q ∧ readChars? cs = some x ∧
      readChars? ('-' :: cs) = some (-x)) ∧
    (∀ p ∈ points, ∀ x ∈ [p.x, p.y], x.isFinite = true → ∃ cs q, Numeral cs q ∧
      ((positional x).toList = cs ∨ (positional x).toList = '-' :: cs)) ∧
    (∀ p ∈ points, (pieces ',' (line p)).map readChars? = [some p.x, some p.y]) ∧
    read? (write points) = some points ∧
    ∀ (d : Disk) (path : String) (earlier : List (List (Vec2 Float))), d.place path = .file →
      d.saveAll path (earlier ++ [points]) = .ok (d.withText path (write points)) := by
  have hfields : ∀ fields ∈ records points, ∀ field ∈ fields, ¬NeedsQuotes field := by
    have hname : ∀ field ∈ [['x'], ['y']], ¬NeedsQuotes field := by simp [NeedsQuotes]
    rw [records, List.forall_mem_cons, List.forall_mem_map]
    exact ⟨hname, fun p _ => by simp [not_needsQuotes_positional]⟩
  have hread (p : Vec2 Float) : (pieces ',' (line p)).map readChars? = [some p.x, some p.y] := by
    rw [pieces_line]
    simp [readChars?_positional]
  exact ⟨⟨pieces_write points, fun p _ => pieces_line p⟩, ⟨write_eq_records points, hfields⟩,
    fun _ _ h => h.read, fun _ _ _ _ h => exists_numeral h, fun p _ => hread p, read?_write points,
    fun d _ earlier h => d.saveAll_append h earlier points⟩

/-- A negative zero and the least double, the largest double, an infinity and NaN. -/
def specials : List (Vec2 Float) :=
  [⟨-0.0, Float.ofBits 1⟩, ⟨Float.ofBits 0x7FEFFFFFFFFFFFFF, -0.1⟩, ⟨-Binary64.infinity, Binary64.nan⟩]

/-- A disk with empty files only. -/
def blank : Disk where
  place _ := .file
  text _ := ""

/-- Special values, a signed zero and the ends of the range are read back, and an emptied file is
filled again. -/
theorem specials_faithful :
    (∀ p ∈ specials, (pieces ',' (line p)).map readChars? = [some p.x, some p.y]) ∧
    read? (write specials) = some specials ∧
    Numeral ['2', '.', '5'] (25 / 10 ^ 1) ∧
    (∃ x, value x = Value.round (25 / 10 ^ 1) ∧ readChars? ['2', '.', '5'] = some x ∧
      readChars? ['-', '2', '.', '5'] = some (-x)) ∧
    blank.place "roots" = .file ∧
    blank.saveAll "roots" ([[⟨1.0, 2.0⟩], []] ++ [specials]) =
      .ok (blank.withText "roots" (write specials)) := by
  have hnumeral : Numeral ['2', '.', '5'] (25 / 10 ^ 1) := by
    have hdigits (c : Char) (hc : c.isDigit = true) : AreDigits [c] := by simpa [AreDigits] using hc
    exact @Numeral.point ['2'] ['5'] (List.cons_ne_nil _ _) (hdigits '2' rfl) (hdigits '5' rfl)
  obtain ⟨-, -, hround, -, hfields, hread, hsave⟩ := write_faithful specials
  exact ⟨hfields, hread, hnumeral, hround _ _ hnumeral, rfl, hsave blank "roots" _ rfl⟩

end PlanarNewton.PointTable
