/-!
# Excerpts

The lines around a place in a text, each with its number, and the line of the
place marked.
-/

namespace Brainfuck.Text

/-- The number, right-aligned in a column of four characters. -/
def lineNumber (n : Nat) : String :=
  let digits := toString n
  String.ofList (List.replicate (4 - digits.length) ' ') ++ digits

/-- One row of an excerpt. -/
def excerptRow (marked : Bool) (number : Nat) (line : String) : String :=
  (if marked then ">" else " ") ++ " " ++ lineNumber number ++ " | " ++ line

/-- The numbered lines that an excerpt shows: those at most `context` lines
away from line `centre`. -/
def window (lines : List String) (centre context : Int) : List (String × Nat) :=
  (lines.zipIdx 1).filter fun (_, i) => centre - context ≤ (i : Int) && (i : Int) ≤ centre + context

/-- The excerpt around a line, counted from one.  A line beyond the end stands
for the last one; nothing is shown if there are no lines, or for a line before
the first. -/
def excerpt (lines : List String) (line : Int) (context : Int := 2) : String :=
  if lines.isEmpty || line < 1 then ""
  else
    let centre := min line lines.length
    "\n".intercalate
      ((window lines centre context).map fun (text, i) => excerptRow ((i : Int) = centre) i text)

end Brainfuck.Text
