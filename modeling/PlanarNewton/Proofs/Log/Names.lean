import PlanarNewton.Proofs.Solver.Levels
import PlanarNewton.Proofs.Solver.Reachable
import PlanarNewton.Proofs.Text.Lowercase

/-!
# The names of the levels

A level is checked where a configuration takes it (`Level.normalize`), and once more where a logger of it
is asked for (`Level.parse`). Both look at its lower-case form, and both know the same six names, which a
text has for its lower-case form only if it is one of them up to the case of the letters `A` to `Z`
(`Level.lowercase_mem_names`). The first check keeps the lower-case form, which names the same level
(`Level.parse_of_normalize`), so that the second one never refuses what has passed the first
(`Level.IsChoice.startsLogging`). Main statement: `Level.checks_agree`.
-/

namespace PlanarNewton

variable {μ : Type}

/-- Under any logging, a solve gets the logger that it asks for, and it never answers with an unknown level. -/
def Solver.StartsLogging (s : Solver μ) : Prop :=
  ∀ log, (startLogging s.config log).1 = .ok () ∧ ∀ got, (s.solve log).result ≠ .error (.logLevel got)

namespace Level

variable {text small : String}

/-- No letter of another alphabet gets into the names: they are ASCII, and there is no `k` in them. -/
lemma lowercase_mem_names : Text.lowercase text ∈ names ↔ text.toLower ∈ names := by
  have hascii : ∀ name ∈ names, ∀ c ∈ name.toList, Text.IsAsciiOnly c := by
    simp [names, Text.IsAsciiOnly]
  constructor
  · intro h
    rw [(Text.lowercase_eq_iff (hascii _ h)).mp rfl]
    exact h
  · intro h
    rw [(Text.lowercase_eq_iff (hascii _ h)).mpr rfl]
    exact h

/-- The configuration accepts a level if its lower-case form is a name. -/
lemma exists_normalize_iff : (∃ small, normalize text = .ok small) ↔ Text.lowercase text ∈ names :=
  ⟨fun ⟨_, h⟩ => (normalize_eq_ok.mp h).1, fun h => ⟨_, normalize_eq_ok.mpr ⟨h, rfl⟩⟩⟩

/-- Logging knows no other levels than a configuration may name. -/
lemma exists_parse_iff : (∃ level, parse text = .ok level) ↔ Text.lowercase text ∈ names := by
  refine ⟨fun ⟨level, h⟩ => ?_, exists_parse⟩
  rw [parse] at h
  split at h
  case h_7 => cases h
  all_goals
    rename_i heq
    simp [heq, names]

/-- What a configuration keeps of a level names the same level. -/
lemma parse_of_normalize (h : normalize text = .ok small) : parse small = parse text := by
  obtain ⟨hm, rfl⟩ := normalize_eq_ok.mp h
  rw [parse, parse, lowercase_of_mem hm]
  simp only [names, List.mem_cons, List.not_mem_nil, or_false] at hm
  rcases hm with h | h | h | h | h | h <;> rw [h] <;> rfl

/-- A normalized level is a choice that the configuration accepts. -/
lemma isChoice_of_normalize (h : normalize text = .ok small) : IsChoice (some small) := by
  rintro _ ⟨⟩
  exact (normalize_eq_ok.mp (normalize_of_normalize h)).1

/-- An accepted level is no reason for a solve to fail, whatever else is in its configuration. -/
lemma IsChoice.startsLogging {s : Solver μ} (h : IsChoice s.config.logLevel) : s.StartsLogging := by
  intro log
  obtain ⟨log', hstart⟩ := Solver.startLogging_of_level h log
  refine ⟨by rw [hstart], fun got hgot => ?_⟩
  obtain ⟨e, hv, hs⟩ | ⟨hc, -⟩ := s.solve_cases log
  · rw [hs] at hgot
    cases hgot
    obtain he | he | he | he | ⟨text, ht, hn, -⟩ := Config.error_of_validate hv
    case inr.inr.inr.inr => exact hn (h text ht)
    all_goals cases he
  · cases Solver.error_of_isValid hc hgot

/--
The two checks of a level accept the same texts, the six names in any mixture of the cases of ASCII. The
text that is kept of an accepted one names the same level and is kept as it is when it is checked again.
Where a level was accepted, by a setting or with a whole configuration, and whatever settings and solves
came after that, no solve is refused the logger that it asks for.
-/
theorem checks_agree (text : String) :
    ((∃ small, normalize text = .ok small) ↔ ∃ level, parse text = .ok level) ∧
    ((∃ level, parse text = .ok level) ↔
      text.toLower ∈ ["debug", "info", "warn", "error", "off", "none"]) ∧
    (∀ small, normalize text = .ok small →
      parse small = parse text ∧ normalize small = .ok small) ∧
    (∀ s t : Solver μ, s.set (.logLevel text) = .ok t → t.StartsLogging) ∧
    (∀ s : Solver μ, s.config.validate = .ok () → s.StartsLogging) ∧
    ∀ s : Solver μ, s.IsReachable → s.StartsLogging := by
  refine ⟨exists_normalize_iff.trans exists_parse_iff.symm, exists_parse_iff.trans lowercase_mem_names,
    ?_, ?_, ?_, ?_⟩
  · intro small h
    exact ⟨parse_of_normalize h, normalize_of_normalize h⟩
  · intro s t h
    obtain ⟨small, hsmall, h⟩ := bind_eq_ok.mp h
    cases h
    exact IsChoice.startsLogging (isChoice_of_normalize hsmall)
  · intro s h
    exact IsChoice.startsLogging (Config.validate_iff.mp h).level
  · intro s h
    exact IsChoice.startsLogging h.isChecked.level

/--
A level in mixed case, once set in the crossing, also before another solve, and once given in a whole
configuration; a dotted I names no level.
-/
theorem mixedCase_checks_agree :
    normalize "WaRn" = .ok "warn" ∧ parse "warn" = parse "WaRn" ∧ normalize "warn" = .ok "warn" ∧
    (∃ t, (Solver.crossing {}).set (.logLevel "WaRn") = .ok t ∧ t.StartsLogging ∧
      (t.solve {}).solver.IsReachable ∧ (t.solve {}).solver.StartsLogging) ∧
    (Solver.crossing { logLevel := some "WaRn" }).config.validate = .ok () ∧
    (Solver.crossing { logLevel := some "WaRn" }).StartsLogging ∧
    ¬∃ small, normalize "İnfo" = .ok small := by
  have hnormal : normalize "WaRn" = .ok "warn" := eq_ok_of_toOption (by decide +kernel)
  have hset : (Solver.crossing {}).set (.logLevel "WaRn") =
      .ok (Solver.crossing { logLevel := some "warn" }) := bind_eq_ok.mpr ⟨_, hnormal, rfl⟩
  have hvalid : (Solver.crossing { logLevel := some "WaRn" }).config.validate = .ok () :=
    eq_ok_of_toOption (by decide +kernel)
  have hreachable : ((Solver.crossing { logLevel := some "warn" }).solve {}).solver.IsReachable :=
    .solve (.set (.new _ _ _) hset) {}
  obtain ⟨-, -, hkept, hsetting, hwhole, hany⟩ := checks_agree (μ := Unit) "WaRn"
  obtain ⟨hsame, hnames, -⟩ := checks_agree (μ := Unit) "İnfo"
  obtain ⟨hparse, hagain⟩ := hkept "warn" hnormal
  refine ⟨hnormal, hparse, hagain, ⟨_, hset, hsetting _ _ hset, hreachable, hany _ hreachable⟩, hvalid,
    hwhole _ hvalid, ?_⟩
  rw [hsame, hnames]
  decide +kernel

end Level

end PlanarNewton
