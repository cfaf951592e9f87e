/-!
# Splitting text

`pieces` cuts a text at every separator. A text without a separator is one piece, and what stands in
front of the first separator is the first piece.
-/

namespace PlanarNewton.Text

/-- The pieces of a text between the separators, at least one. -/
def pieces (sep : Char) : List Char → List (List Char)
  | [] => [[]]
  | c :: cs =>
    if c = sep then [] :: pieces sep cs
    else
      match pieces sep cs with
      | piece :: rest => (c :: piece) :: rest
      | [] => [[c]]

/-- A text without a separator is one piece. -/
theorem pieces_eq_singleton {sep : Char} {cs : List Char} (h : sep ∉ cs) :
    pieces sep cs = [cs] := by
  induction cs with
  | nil => rfl
  | cons c cs ih =>
    have hc : c ≠ sep := fun hc => h (hc ▸ List.mem_cons_self)
    have hcs : sep ∉ cs := fun hcs => h (List.mem_cons_of_mem c hcs)
    simp [pieces, hc, ih hcs]

/-- A piece without a separator is cut off at the separator behind it. -/
theorem pieces_append_sep {sep : Char} {piece : List Char} (h : sep ∉ piece) (cs : List Char) :
    pieces sep (piece ++ sep :: cs) = piece :: pieces sep cs := by
  induction piece with
  | nil => simp [pieces]
  | cons c piece ih =>
    have hc : c ≠ sep := fun hc => h (hc ▸ List.mem_cons_self)
    have hp : sep ∉ piece := fun hp => h (List.mem_cons_of_mem c hp)
    simp [pieces, hc, ih hp]

end PlanarNewton.Text
