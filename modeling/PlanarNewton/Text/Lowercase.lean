import PlanarNewton.Text.CaseTable

/-!
# Lower case

Lower-casing of arbitrary text. Every character has a small form of its own, with two exceptions: a
capital sigma becomes `ς` at the end of a word and `σ` elsewhere, and a capital dotted I becomes an `i`
with a combining dot.
-/

namespace PlanarNewton.Text

/-- The small form of a character that does not depend on its neighbours. -/
def smallForm (c : Char) : Char :=
  match smallLetters.find? (·.covers c.toNat) with
  | some run => Char.ofNat (c.toNat + run.shift).toNat
  | none => c

/-- A word is under way: the nearest character that a word does not carry unnoticed is a letter with case. -/
def touchesCased (cs : List Char) : Bool :=
  match cs.dropWhile fun c => inRanges ignorableRanges c.toNat with
  | c :: _ => inRanges casedRanges c.toNat
  | [] => false

/-- The small form of a sigma between what is read, nearest first, and what follows. -/
def smallSigma (before after : List Char) : Char :=
  if touchesCased before && !touchesCased after then 'ς' else 'σ'

/-- Lower-cases a text, given what was read before it, nearest first. -/
def lowercaseAfter (before : List Char) : List Char → List Char
  | [] => []
  | c :: cs =>
    let rest := lowercaseAfter (c :: before) cs
    if c = 'Σ' then smallSigma before cs :: rest
    else if c = 'İ' then 'i' :: '\u0307' :: rest
    else smallForm c :: rest

/-- The text in lower case. -/
def lowercase (text : String) : String :=
  String.ofList (lowercaseAfter [] text.toList)

end PlanarNewton.Text
