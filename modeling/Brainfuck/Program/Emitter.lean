import Brainfuck.Program.Assembly

/-!
# Building in one row

An `Assembly` keeps the levels of a program apart and lays them out when all of
them are closed.  An `Emitter` puts each instruction into one row at once, so
that there is a program in the making at any time: an opening bracket jumps
nowhere until its partner comes, and is then mended where it stands.

Equal commands become one instruction, so that the end of a run is known only
from the token behind it.  That token is put back, and drawn again.
-/

namespace Brainfuck

/-- A row of instructions in the making. -/
structure Emitter where
  /-- Where the tokens come from. -/
  source : Source
  /-- Whether equal commands that follow each other become one instruction. -/
  fold : Bool := true
  /-- The instructions so far. -/
  code : Array Instruction := #[]
  /-- The indices of the open loops and the places of their brackets, the
  innermost one first. -/
  opened : List (Nat × Position) := []
  /-- A token that was put back. -/
  ahead : Option Token := none

namespace Emitter

/-- Draws a token: the one that was put back, or else what the source gives. -/
def draw (e : Emitter) : Token × Emitter :=
  match e.ahead with
  | some t => (t, { e with ahead := none })
  | none => (e.source.next.1, { e with source := e.source.next.2 })

/-- Puts a token back. -/
def putBack (e : Emitter) (t : Token) : Emitter :=
  { e with ahead := some t }

/-- How many tokens can come before the next end mark, at most. -/
def size (e : Emitter) : Nat :=
  e.source.size + if e.ahead = none ∨ e.ahead = some .endOfText then 0 else 1

/-- A token other than the end mark leaves fewer tokens to come. -/
theorem size_draw_lt {e : Emitter} (h : e.draw.1 ≠ .endOfText) : e.draw.2.size < e.size := by
  unfold draw at h ⊢
  cases hahead : e.ahead with
  | some t =>
    simp only [hahead] at h
    simp [size, hahead, h]
  | none =>
    simp only [hahead] at h
    simpa [size, hahead] using e.source.next_endOfText_or_size_lt.resolve_left h

theorem ahead_draw (e : Emitter) : e.draw.2.ahead = none := by
  unfold draw
  cases hahead : e.ahead with
  | some t => rfl
  | none => rfl

theorem size_of_ahead_eq_none {e : Emitter} (h : e.ahead = none) : e.size = e.source.size := by
  simp [size, h]

/-- Putting the token back that was drawn last brings no more tokens. -/
theorem size_putBack_draw_le (e : Emitter) : (e.draw.2.putBack e.draw.1).size ≤ e.size := by
  by_cases hend : e.draw.1 = .endOfText
  · have hsize : (e.draw.2.putBack e.draw.1).size = e.draw.2.source.size := by
      simp [size, putBack, hend]
    rw [hsize]
    unfold draw
    cases hahead : e.ahead with
    | some t => exact Nat.le_add_right _ _
    | none => exact Nat.le_trans e.source.size_next_le (Nat.le_add_right _ _)
  · have hlt := size_draw_lt hend
    rw [size_of_ahead_eq_none e.ahead_draw] at hlt
    have hsize : (e.draw.2.putBack e.draw.1).size = e.draw.2.source.size + 1 := by
      simp [size, putBack, hend]
    rw [hsize]
    exact hlt

/-- Draws on as long as the command stays the same, and puts back what is
behind.  It gives how often the command came, with `count` times before. -/
def countRun (c : Command) (count : Nat) (e : Emitter) : Nat × Emitter :=
  if _h : e.draw.1 = .command c then countRun c (count + 1) e.draw.2
  else (count, e.draw.2.putBack e.draw.1)
termination_by e.size
decreasing_by exact size_draw_lt (by simp [_h])

theorem size_countRun_le (c : Command) (count : Nat) (e : Emitter) :
    (e.countRun c count).2.size ≤ e.size := by
  fun_induction countRun c count e with
  | case1 count e h ih => exact Nat.le_trans ih (Nat.le_of_lt (size_draw_lt (by simp [h])))
  | case2 count e h => exact e.size_putBack_draw_le

/-- Puts down a command, which has been drawn, and all that are joined to it. -/
def command (e : Emitter) (c : Command) : Emitter :=
  let run := if e.fold then e.countRun c 1 else (1, e)
  { run.2 with code := run.2.code.push (.op (.command c) run.1) }

theorem size_command_le (e : Emitter) (c : Command) : (e.command c).size ≤ e.size := by
  unfold command
  split
  · exact e.size_countRun_le c 1
  · exact Nat.le_refl _

/-- Puts down an opening bracket that leads nowhere. -/
def openLoop (e : Emitter) : Emitter :=
  { e with
    code := e.code.push (.jump .loopOpen (-1))
    opened := (e.code.size, e.source.mark) :: e.opened }

/-- Puts down the closing bracket of the loop that begins at index `start`, and
mends the opening one.  The loops in `opened` stay open. -/
def closeLoop (e : Emitter) (start : Nat) (opened : List (Nat × Position)) : Emitter :=
  { e with
    code := (e.code.push (.jump .loopClose start)).setIfInBounds start
      (.jump .loopOpen e.code.size)
    opened }

/-- The outcome at an end mark: the program, unless a loop is still open. -/
def finish (e : Emitter) : Except LoopError Program :=
  match e.opened with
  | [] => .ok ⟨e.code⟩
  | l :: opened =>
    .error (.leftOpen (opened.length + 1) e.source.consumed l.2.line l.2.column)

/-- Builds up to the next end mark or stray bracket. -/
def build (e : Emitter) : Except LoopError Program × Emitter :=
  match _h : e.draw.1 with
  | .endOfText => (e.draw.2.finish, e.draw.2)
  | .command c => build (e.draw.2.command c)
  | .loopOpen => build e.draw.2.openLoop
  | .loopClose =>
    match e.draw.2.opened with
    | [] =>
      let mark := e.draw.2.source.mark
      (.error (.stray e.draw.2.source.consumed mark.line mark.column), e.draw.2)
    | l :: opened => build (e.draw.2.closeLoop l.1 opened)
termination_by e.size
decreasing_by
  · exact Nat.lt_of_le_of_lt (size_command_le _ _) (size_draw_lt (by simp [_h]))
  · exact size_draw_lt (by simp [_h])
  · exact size_draw_lt (by simp [_h])

/-- The emitter after `n` builds, one after the other. -/
def after (e : Emitter) : (n : Nat) → Emitter
  | 0 => e
  | n + 1 => e.build.2.after n

end Emitter

end Brainfuck
