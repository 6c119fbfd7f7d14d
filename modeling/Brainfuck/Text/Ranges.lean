/-!
# Ranges of code points

A character class is a list of closed ranges of code points, ascending and
apart.  `Ranges.contains` and `Ranges.find?` look a code point up and stop at the
first range that begins beyond it.
-/

namespace Brainfuck.Text

/-- Closed ranges of code points, each as its first and its last member. -/
abbrev Ranges := List (Nat × Nat)

namespace Ranges

/-- Whether the code point lies in one of the ranges. -/
def contains : Ranges → Nat → Bool
  | [], _ => false
  | (first, last) :: rest, n => if n < first then false else n ≤ last || contains rest n

/-- The range the code point lies in. -/
def find? : Ranges → Nat → Option (Nat × Nat)
  | [], _ => none
  | (first, last) :: rest, n =>
    if n < first then none else if n ≤ last then some (first, last) else find? rest n

end Ranges

end Brainfuck.Text
