import Brainfuck.Capacity
import Brainfuck.Symbol

/-!
# Programs

A program is a row of instructions.  An instruction either repeats a token or
jumps to another instruction by its index.  Programs that were built from a
text repeat commands only and jump from bracket to bracket; a program that is
given as a row of instructions need not keep to that, and every function here
says what it does with any row.
-/

namespace Brainfuck

/-- An instruction. -/
inductive Instruction where
  /-- Carries out `kind`, `count` times over. -/
  | op (kind : Token) (count : Int)
  /-- Goes on behind the instruction at index `target` if `kind` says so. -/
  | jump (kind : Token) (target : Int)
deriving DecidableEq, Repr

namespace Instruction

/-- The token the instruction carries out. -/
def kind : Instruction → Token
  | op k _ => k
  | jump k _ => k

/-- How often the token is repeated.  A jump repeats nothing. -/
def count? : Instruction → Option Int
  | op _ n => some n
  | jump _ _ => none

/-- The index of the instruction a jump goes to. -/
def target? : Instruction → Option Int
  | op _ _ => none
  | jump _ t => some t

/-- The instruction as it is written in a text: the symbol once for each
repetition, none if there are less than one, and once for a jump. -/
def source : Instruction → List Char
  | op k n =>
    match k.char? with
    | some c => List.replicate n.toNat c
    | none => []
  | jump k _ => k.char?.toList

/-- The instruction as it is written in a text, if there is room for it.  The
count has to fit into a word even if there is no symbol to repeat. -/
def write (host : Host) : Instruction → Except CapacityError (List Char)
  | op k n =>
    match k.char? with
    | some c => copies host n c
    | none => if FitsWord n then .ok [] else .error .word
  | jump k _ => .ok k.char?.toList

/-- What is written is the text of the instruction. -/
theorem eq_source_of_write {host : Host} {i : Instruction} {cs : List Char}
    (h : i.write host = .ok cs) : cs = i.source := by
  cases i with
  | jump k t => cases h; rfl
  | op k n =>
    cases hk : k.char? with
    | none =>
      simp only [write, hk] at h
      split at h <;> cases h
      simp [source, hk]
    | some c =>
      simp only [write, hk, copies] at h
      split at h
      · cases h
      · split at h <;> cases h
        simp [source, hk]

theorem flatten_eq_of_mapM_write {host : Host} {code : List Instruction}
    {texts : List (List Char)} (h : code.mapM (write host) = .ok texts) :
    texts.flatten = code.flatMap source := by
  induction code generalizing texts with
  | nil => cases h; rfl
  | cons i code ih =>
    rw [List.mapM_cons] at h
    cases hi : i.write host with
    | error e => rw [hi] at h; cases h
    | ok cs =>
      cases hc : code.mapM (write host) with
      | error e => rw [hi, hc] at h; cases h
      | ok rest =>
        rw [hi, hc] at h
        cases h
        simp [ih hc, ← eq_source_of_write hi]

end Instruction

/-- A row of instructions. -/
structure Program where
  /-- The instructions in their order. -/
  code : Array Instruction
deriving DecidableEq, Repr

namespace Program

/-- The number of instructions. -/
def size (p : Program) : Nat := p.code.size

/-- The instruction at an index.  A negative index counts from the end. -/
def get? (p : Program) (i : Int) : Option Instruction :=
  if 0 ≤ i then p.code[i.toNat]?
  else if 0 ≤ p.size + i then p.code[(p.size + i).toNat]?
  else none

/-- The program as a text, without anything between the symbols. -/
def source (p : Program) : List Char :=
  p.code.toList.flatMap Instruction.source

/-- The program as a text, if there is room for it.  The first instruction
without room is the one that counts; if each has room, the whole needs it too. -/
def write (p : Program) (host : Host := .standard) : Except CapacityError (List Char) := do
  join host (← p.code.toList.mapM (Instruction.write host))

/-- What is written is the text of the program, and memory holds it. -/
theorem eq_source_of_write {p : Program} {host : Host} {cs : List Char}
    (h : p.write host = .ok cs) : cs = p.source ∧ host.HasRoomFor p.source := by
  unfold write at h
  cases hm : p.code.toList.mapM (Instruction.write host) with
  | error e => rw [hm] at h; cases h
  | ok texts =>
    rw [hm] at h
    obtain ⟨htexts, hroom⟩ := join_eq_ok_iff.1 h
    obtain rfl : cs = p.source := by
      rw [← htexts, Instruction.flatten_eq_of_mapM_write hm, source]
    exact ⟨rfl, hroom⟩

end Program

end Brainfuck
