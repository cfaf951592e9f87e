import PlanarNewton.Binary64.Basic

/-!
# Reading doubles

A decimal text is read into the double nearest to its exact value. Accepted are an optional sign and
then `inf`, `infinity` or `nan` in any letter case, or digits with at most one point among, before or
behind them, and an optional exponent. Every text that `scientific` and `positional` write is one.
-/

namespace PlanarNewton.Decimal

/-- The number that a list of digits writes, behind what was read before. -/
def number (before : Nat) (ds : List Char) : Nat :=
  ds.foldl (fun n c => 10 * n + (c.toNat - '0'.toNat)) before

/-- Splits a text into its leading digits and the rest. -/
def leadingDigits (cs : List Char) : List Char × List Char :=
  (cs.takeWhile Char.isDigit, cs.dropWhile Char.isDigit)

/-- Splits a text into its sign, true for minus, and the rest. -/
def leadingSign : List Char → Bool × List Char
  | '-' :: cs => (true, cs)
  | '+' :: cs => (false, cs)
  | cs => (false, cs)

/-- The exponent part of a number: nothing, or `e` and an integer. -/
def exponent? : List Char → Option Int
  | [] => some 0
  | c :: cs =>
    if c = 'e' ∨ c = 'E' then
      let (negative, ds) := leadingSign cs
      if ds.isEmpty ∨ ¬ ds.all Char.isDigit then none
      else some (if negative then -(number 0 ds : Int) else number 0 ds)
    else none

/-- The double nearest to `n * 10 ^ e`. -/
def nearest (n : Nat) (e : Int) : Float :=
  match e with
  | .ofNat e => Float.ofScientific n false e
  | .negSucc e => Float.ofScientific n true (e + 1)

/-- Reads a number without a sign: digits, a fraction if there is a point, and an exponent if
there is an `e`. -/
def unsigned? (cs : List Char) : Option Float :=
  let (whole, rest) := leadingDigits cs
  let (fraction, rest) :=
    match rest with
    | '.' :: rest => leadingDigits rest
    | rest => ([], rest)
  if whole.isEmpty ∧ fraction.isEmpty then none
  else (exponent? rest).map fun e => nearest (number (number 0 whole) fraction) (e - fraction.length)

/-- Reads an unsigned number or the name of a special value. -/
def magnitude? (cs : List Char) : Option Float :=
  let name := cs.map Char.toLower
  if name = ['n', 'a', 'n'] then some Binary64.nan
  else if name = ['i', 'n', 'f'] ∨ name = ['i', 'n', 'f', 'i', 'n', 'i', 't', 'y'] then
    some Binary64.infinity
  else unsigned? cs

/-- Reads a double from its characters. -/
def readChars? (text : List Char) : Option Float :=
  let (negative, cs) := leadingSign text
  (magnitude? cs).map fun x => if negative then -x else x

/-- Reads a decimal number, rounded to the nearest double. -/
def read? (text : String) : Option Float :=
  readChars? text.toList

end PlanarNewton.Decimal
