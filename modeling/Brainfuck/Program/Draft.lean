import Brainfuck.Position
import Brainfuck.Program.Block

/-!
# Drafts

A draft is a program of which some loops have not been closed yet.  It keeps
the items of the innermost level, and for each open loop its place and the
items before it.  `Draft.add` puts one token at the end.  A command is either
an item of its own or joins the command before it, if that is the same one;
a closing bracket makes the innermost level the body of a loop, and is refused
if no loop is open.
-/

namespace Brainfuck

/-- A loop that has been opened and not closed. -/
structure OpenLoop where
  /-- The place of its opening bracket. -/
  position : Position
  /-- The items before it on its own level, the latest one first. -/
  before : List Block.Item
deriving DecidableEq, Repr

/-- A program of which some loops may still be open. -/
structure Draft where
  /-- The items of the innermost level, the latest one first. -/
  items : List Block.Item := []
  /-- The open loops, the innermost one first. -/
  opened : List OpenLoop := []
deriving DecidableEq, Repr

namespace Draft

/-- Puts one more command behind the items.  If `join` is set it adds to the
count of the latest item, provided that this repeats the same command. -/
def addCommand (join : Bool) (c : Command) : List Block.Item → List Block.Item
  | .op k n :: items =>
    if join && k = c then .op c (n + 1) :: items else .op c 1 :: .op k n :: items
  | items => .op c 1 :: items

/-- Puts a token, which stands at `position`, behind the draft.  A closing
bracket is refused if no loop is open.  The end mark leaves the draft as it is. -/
def add (join : Bool) (t : Token) (position : Position) (d : Draft) : Option Draft :=
  match t with
  | .command c => some { d with items := addCommand join c d.items }
  | .loopOpen => some { items := [], opened := ⟨position, d.items⟩ :: d.opened }
  | .loopClose =>
    match d.opened with
    | [] => none
    | l :: opened => some { items := .loop (Block.ofReversed d.items) :: l.before, opened }
  | .endOfText => some d

/-- The program of a draft all of whose loops are closed. -/
def program (d : Draft) : Program :=
  .ofBlock (.ofReversed d.items)

end Draft

end Brainfuck
