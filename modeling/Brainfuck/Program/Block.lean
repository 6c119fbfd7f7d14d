import Brainfuck.Program.Basic

/-!
# Blocks

A block is a program as a tree: counted commands and loops, in their order,
where a loop holds the block that is its body.  `Block.code` lays a block out
as a row of instructions, in which each bracket jumps to its partner.
`Block.emit` builds the same row from the front, in one pass
(`toList_emit`).
-/

namespace Brainfuck

/-- A sequence of counted commands and loops. -/
inductive Block where
  /-- The empty sequence. -/
  | nil
  /-- A command, `count` times over, before the rest of the sequence. -/
  | op (c : Command) (count : Nat) (rest : Block)
  /-- A loop before the rest of the sequence. -/
  | loop (body rest : Block)
deriving DecidableEq, Repr

/-- One part of a block. -/
inductive Block.Item where
  /-- A command, `count` times over. -/
  | op (c : Command) (count : Nat)
  /-- A loop. -/
  | loop (body : Block)
deriving DecidableEq, Repr

namespace Block

/-- Puts an item in front of a block. -/
def cons : Item → Block → Block
  | .op c n, b => op c n b
  | .loop body, b => loop body b

/-- The block of the items, which come with the last one first. -/
def ofReversed (items : List Item) : Block :=
  items.foldl (fun b i => cons i b) nil

/-- The number of instructions of a block. -/
def length : Block → Nat
  | nil => 0
  | op _ _ rest => rest.length + 1
  | loop body rest => body.length + rest.length + 2

/-- The instructions of a block whose first one has index `start`. -/
def code (start : Nat) : Block → List Instruction
  | nil => []
  | op c n rest => .op (.command c) n :: rest.code (start + 1)
  | loop body rest =>
    .jump .loopOpen (start + body.length + 1 : Nat) ::
      (body.code (start + 1) ++
        .jump .loopClose start :: rest.code (start + body.length + 2))

/-- Puts the instructions of a block behind others.  A loop is begun with a
jump that leads nowhere; its target is set once the body has been put down. -/
def emit (before : Array Instruction) : Block → Array Instruction
  | nil => before
  | op c n rest => rest.emit (before.push (.op (.command c) n))
  | loop body rest =>
    let start := before.size
    let inner := body.emit (before.push (.jump .loopOpen (-1)))
    let stop := inner.size
    rest.emit ((inner.push (.jump .loopClose start)).setIfInBounds start (.jump .loopOpen stop))

@[simp] theorem length_code (start : Nat) (b : Block) : (b.code start).length = b.length := by
  induction b generalizing start with
  | nil => rfl
  | op c n rest ih => simp [code, length, ih]
  | loop body rest ihb ihr => simp [code, length, ihb, ihr]; omega

theorem toList_emit (before : Array Instruction) (b : Block) :
    (b.emit before).toList = before.toList ++ b.code before.size := by
  induction b generalizing before with
  | nil => simp [emit, code]
  | op c n rest ih => simp [emit, code, ih]
  | loop body rest ihb ihr =>
    have hinner := ihb (before.push (.jump .loopOpen (-1)))
    have hsize : (body.emit (before.push (.jump .loopOpen (-1)))).size =
        before.size + body.length + 1 := by
      have := congrArg List.length hinner
      simp at this
      omega
    simp only [emit, ihr, Array.toList_setIfInBounds, Array.toList_push, hinner,
      Array.size_setIfInBounds, Array.size_push, hsize]
    simp [code]

end Block

/-- The program that a block is laid out as. -/
def Program.ofBlock (b : Block) : Program :=
  ⟨b.emit #[]⟩

theorem Program.toList_code_ofBlock (b : Block) : (ofBlock b).code.toList = b.code 0 := by
  simp [ofBlock, Block.toList_emit]

end Brainfuck
