/-!
# Positions

A place in a text, as a line and a column, both counted from one.  Only a line
feed begins a new line, and every other character takes one column.
-/

namespace Brainfuck

/-- A place in a text. -/
structure Position where
  /-- The number of the line. -/
  line : Nat
  /-- The number of characters on the line up to the place. -/
  column : Nat
deriving DecidableEq, Repr

namespace Position

/-- Before the first character. -/
def start : Position := ⟨1, 0⟩

/-- No place at all: tokens that come from no text have none. -/
def unknown : Position := ⟨0, 0⟩

/-- The place of a character that follows the one at `p`. -/
def advance (p : Position) (c : Char) : Position :=
  if c = '\n' then ⟨p.line + 1, 0⟩ else ⟨p.line, p.column + 1⟩

/-- The place directly behind. -/
def behind (p : Position) : Position := ⟨p.line, p.column + 1⟩

/-- The place of the last character of a text. -/
def ofText (cs : List Char) : Position :=
  cs.foldl advance start

theorem ofText_append_singleton (cs : List Char) (c : Char) :
    ofText (cs ++ [c]) = (ofText cs).advance c := by
  simp [ofText]

end Position

end Brainfuck
