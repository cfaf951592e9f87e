/-!
# Boxed tables

A table of text cells in two columns, drawn with rounded corners and a rule between any two rows. The
cells are padded to the widest one of their column, with a blank on either side.
-/

namespace PlanarNewton.Text

/-- A cell, padded to the given width. -/
def cell (width : Nat) (text : String) : String :=
  " " ++ text ++ String.ofList (List.replicate (width - text.length) ' ') ++ " "

/-- A horizontal rule over two columns, with its ends and its middle. -/
def rule (left middle right : String) (first second : Nat) : String :=
  let line (width : Nat) := String.ofList (List.replicate (width + 2) '─')
  left ++ line first ++ middle ++ line second ++ right

/-- The lines of a table of two columns. -/
def boxLines (rows : List (String × String)) : List String :=
  let first := rows.foldl (fun w row => max w row.1.length) 0
  let second := rows.foldl (fun w row => max w row.2.length) 0
  let drawn := rows.map fun (a, b) => "│" ++ cell first a ++ "│" ++ cell second b ++ "│"
  [rule "╭" "┬" "╮" first second] ++ drawn.intersperse (rule "├" "┼" "┤" first second) ++
    [rule "╰" "┴" "╯" first second]

/-- A table of two columns. -/
def box (rows : List (String × String)) : String :=
  "\n".intercalate (boxLines rows)

end PlanarNewton.Text
