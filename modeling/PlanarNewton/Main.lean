import PlanarNewton.Showcase

/-!
# The command

Runs the first demonstration: prints the distinct roots of the quadratics and saves them as a table of
points in the working directory.
-/

open PlanarNewton

/-- The file that the roots of the polynomial example are saved to. -/
def rootsFile : String := "polynomial_roots.csv"

/-- A generator that starts anywhere. -/
def entropy : IO Generator := do
  let bytes ← IO.getRandomBytes 8
  return .ofSeed (bytes.foldl (fun seed b => (seed <<< 8) ||| b.toUInt64) 0)

/-- Prints a demonstration and saves its points. -/
def main : IO Unit := do
  let demonstration := Showcase.demonstration? 0 { entropy := ← entropy }
  for line in Showcase.lines demonstration 0.0 do
    IO.println line
  if let some points := demonstration.bind (·.saved) then
    try
      IO.FS.writeFile rootsFile (PointTable.write points)
    catch e =>
      IO.println s!"failed to save roots: {e}"
