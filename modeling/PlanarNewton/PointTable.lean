import PlanarNewton.Decimal.Reading
import PlanarNewton.Plane.Vector
import PlanarNewton.Text.Split

/-!
# Tables of points

Points as comma-separated text: a header line `x,y` and a line for each point. The fields are
positional decimals, so none of them ever holds a comma, a quote or a line break.
-/

namespace PlanarNewton.PointTable

/-- The first line of a table, without its line break. -/
def header : List Char := ['x', ',', 'y']

/-- The line of one point, without its line break. -/
def line (p : Vec2 Float) : List Char :=
  (positional p.x).toList ++ ',' :: (positional p.y).toList

/-- The text of a table of points; every line ends in a line break. -/
def write (points : List (Vec2 Float)) : String :=
  String.ofList ((header :: points.map line).flatMap (· ++ ['\n']))

/-- Reads the two fields of a line. -/
def readLine? (text : List Char) : Option (Vec2 Float) :=
  match Text.pieces ',' text with
  | [x, y] => do return ⟨← Decimal.readChars? x, ← Decimal.readChars? y⟩
  | _ => none

/-- Reads the lines of the points, up to the line break at the end of the text. -/
def readLines? : List (List Char) → Option (List (Vec2 Float))
  | [[]] => some []
  | text :: rest => do return (← readLine? text) :: (← readLines? rest)
  | [] => none

/-- Reads a table of points back. -/
def read? (text : String) : Option (List (Vec2 Float)) :=
  match Text.pieces '\n' text.toList with
  | first :: rest => if first = header then readLines? rest else none
  | [] => none

/-- What stands where a table is to be saved. -/
inductive Place where
  /-- A plain file, which may exist already. -/
  | file
  /-- A name in a directory that does not exist. -/
  | missingDirectory
  | directory
deriving DecidableEq, Repr

/-- Why a table cannot be saved. -/
inductive SaveError where
  | notFound
  | isADirectory
deriving DecidableEq, Repr

/-- The text that a place holds once a table is saved there; what a file held before is replaced. -/
def save (place : Place) (points : List (Vec2 Float)) : Except SaveError String :=
  match place with
  | .file => .ok (write points)
  | .missingDirectory => .error .notFound
  | .directory => .error .isADirectory

end PlanarNewton.PointTable
