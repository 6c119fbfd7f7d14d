import Brainfuck.Proofs.Tree
import Brainfuck.Stream

/-!
# The meaning of a tree

A big-step evaluation of trees, which the runs of laid out programs are compared
with.  There is no instruction and no jump: a loop evaluates its body for as
long as the current cell is not zero.

* `Memory` is what an evaluation works on.  Its cells are bytes, its cursor is
  on the tape, and its input is what a `Feed` draws from.
* `Memory.perform` carries out one command.
* `Tree.Eval` relates a tree and a memory to the memory afterwards, to the
  trouble that ended the evaluation, if any, and to the number of commands and
  tests of loops that it took.
* `Memory.performs` carries out one command several times.  `Eval.of_commands`,
  `Eval.commands_next` and `Eval.commands_stop` say that this is what a row of
  equal commands in a tree does.
-/

namespace Brainfuck

/-- Delivers a byte, or tells why there is none, and what is left of the input. -/
abbrev Feed (I : Type) := I → Except Reading.Problem UInt8 × I

/-- The bytes of a list, one after the other. -/
def Feed.list : Feed (List UInt8)
  | [] => (.error .exhausted, [])
  | b :: rest => (.ok b, rest)

/-- What ends an evaluation early. -/
inductive Trouble where
  /-- The cursor would leave the tape. -/
  | leftTape
  /-- A read delivers no byte. -/
  | noByte (p : Reading.Problem)
deriving DecidableEq, Repr

/-- What an evaluation works on. -/
structure Memory (size : Nat) (I : Type) where
  cells : Vector UInt8 size
  cursor : Fin size
  input : I
  output : List UInt8

namespace Memory

variable {size : Nat} {I : Type}

/-- Zeros, with the cursor at the first of them. -/
def start (hsize : 0 < size) (input : I) : Memory size I where
  cells := .replicate size 0
  cursor := ⟨0, hsize⟩
  input
  output := []

def current (m : Memory size I) : UInt8 :=
  m.cells[m.cursor]

def put (m : Memory size I) (b : UInt8) : Memory size I :=
  { m with cells := m.cells.set m.cursor b }

/-- Carries out a command.  The trouble, if there is any, stands beside the memory. -/
def perform (feed : Feed I) (m : Memory size I) : Command → Memory size I × Option Trouble
  | .right =>
    if h : m.cursor + 1 < size then ({ m with cursor := ⟨m.cursor + 1, h⟩ }, none)
    else (m, some .leftTape)
  | .left =>
    if 0 < m.cursor.val then ({ m with cursor := ⟨m.cursor - 1, by omega⟩ }, none)
    else (m, some .leftTape)
  | .increment => (m.put (m.current + 1), none)
  | .decrement => (m.put (m.current - 1), none)
  | .write => ({ m with output := m.output ++ [m.current] }, none)
  | .read =>
    match feed m.input with
    | (.ok b, rest) => ({ m.put b with input := rest }, none)
    | (.error p, rest) => ({ m with input := rest }, some (.noByte p))

/-- Carries out a command `n` times, or until there is trouble. -/
def performs (feed : Feed I) (c : Command) : (n : Nat) → Memory size I →
    Memory size I × Option Trouble
  | 0, m => (m, none)
  | n + 1, m =>
    match m.perform feed c with
    | (m', none) => performs feed c n m'
    | (m', some e) => (m', some e)

@[simp] theorem current_put (m : Memory size I) (b : UInt8) : (m.put b).current = b := by
  simp [put, current]

@[simp] theorem put_current (m : Memory size I) : m.put m.current = m := by
  simp [put, current]

@[simp] theorem put_put (m : Memory size I) (b b' : UInt8) : (m.put b).put b' = m.put b' := by
  simp [put]

end Memory

namespace Tree

variable {size : Nat} {I : Type} {feed : Feed I}

/-- `t.Eval feed m k m' r`: evaluating `t` in `m` takes `k` commands and tests of
loops, leaves `m'`, and comes to its end if `r` is `none`, else to the trouble `r`. -/
inductive Eval (feed : Feed I) :
    Tree → Memory size I → Nat → Memory size I → Option Trouble → Prop
  | nil (m) : Eval feed nil m 0 m none
  | next {c rest m m₁ k m' r} : m.perform feed c = (m₁, none) → Eval feed rest m₁ k m' r →
      Eval feed (command c rest) m (k + 1) m' r
  | stop {c rest m m' e} : m.perform feed c = (m', some e) →
      Eval feed (command c rest) m 1 m' (some e)
  | skip {body rest m k m' r} : m.current = 0 → Eval feed rest m k m' r →
      Eval feed (loop body rest) m (k + 1) m' r
  | again {body rest m i m₁ k m' r} : m.current ≠ 0 → Eval feed body m i m₁ none →
      Eval feed (loop body rest) m₁ k m' r → Eval feed (loop body rest) m (i + k + 1) m' r
  | fail {body rest m i m' e} : m.current ≠ 0 → Eval feed body m i m' (some e) →
      Eval feed (loop body rest) m (i + 1) m' (some e)

/-! ## Equal commands in a row -/

namespace Eval

theorem commands_next {c : Command} {n k : Nat} {t : Tree} {m m₁ m' : Memory size I}
    {r : Option Trouble} (h : Memory.performs feed c n m = (m₁, none))
    (hrest : Eval feed t m₁ k m' r) : Eval feed (commands c n t) m (k + n) m' r := by
  induction n generalizing m with
  | zero =>
    cases h
    exact hrest
  | succ n ih =>
    unfold Memory.performs at h
    split at h
    · rename_i hstep
      exact next hstep (ih h)
    · cases h

theorem commands_stop {c : Command} {n : Nat} {m m' : Memory size I} {e : Trouble}
    (h : Memory.performs feed c n m = (m', some e)) (t : Tree) :
    ∃ k, Eval feed (commands c n t) m k m' (some e) := by
  induction n generalizing m with
  | zero => cases h
  | succ n ih =>
    unfold Memory.performs at h
    split at h
    · rename_i hstep
      obtain ⟨k, hk⟩ := ih h
      exact ⟨k + 1, next hstep hk⟩
    · rename_i hstep
      cases h
      exact ⟨1, stop hstep⟩

/-- Either all commands in a row are carried out and the rest of the tree is
evaluated behind them, or one of them is the last. -/
theorem of_commands {c : Command} {n k : Nat} {t : Tree} {m m' : Memory size I}
    {r : Option Trouble} (h : Eval feed (commands c n t) m k m' r) :
    (∃ m₁ j, Memory.performs feed c n m = (m₁, none) ∧ Eval feed t m₁ j m' r ∧ k = j + n) ∨
      ∃ e, r = some e ∧ Memory.performs feed c n m = (m', some e) ∧ 1 ≤ k ∧ k ≤ n := by
  induction n generalizing m k with
  | zero => exact Or.inl ⟨m, k, rfl, h, rfl⟩
  | succ n ih =>
    cases h with
    | next hstep hrest =>
      rw [Memory.performs, hstep]
      rcases ih hrest with ⟨m₁, j, hperforms, hj, rfl⟩ | ⟨e, rfl, hperforms, hk⟩
      · exact Or.inl ⟨m₁, j, hperforms, hj, rfl⟩
      · exact Or.inr ⟨e, rfl, hperforms, by omega⟩
    | stop hstep =>
      rw [Memory.performs, hstep]
      exact Or.inr ⟨_, rfl, rfl, by omega⟩

end Eval

end Tree

end Brainfuck
