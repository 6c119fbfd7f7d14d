import Brainfuck.Run.State

/-!
# Machines

A machine keeps its tape, the place in the program and the step count between
runs, and a run begins by clearing them.  What was done with the machine before
a run therefore has no part in it, except for the size of the tape and the
limit on steps.

A run need not come to an end, so it is given a number of rounds.  `patience`
is more than any run that is waited for takes.
-/

namespace Brainfuck

/-- A tape machine at rest. -/
structure Machine where
  /-- The tape. -/
  tape : Tape
  /-- The index of the instruction at which the last run ended. -/
  ip : Int := 0
  /-- The number of instructions that the last run began. -/
  steps : Nat := 0
  /-- How many steps a run may take. -/
  limit : Option Int := none
deriving DecidableEq, Repr

/-- A run that has ended, or has used up its rounds. -/
structure Run where
  /-- The machine afterwards. -/
  machine : Machine
  /-- The number of reads made. -/
  reads : Nat
  /-- The bytes of each write, in order. -/
  written : Array (List UInt8)
  /-- How the run ended, if it did. -/
  ending : Option Ending
deriving DecidableEq, Repr

namespace Machine

/-- A number of rounds that no run reaches in practice. -/
def patience : Nat := 1 <<< 62

/-- A machine with a blank tape. -/
def ofSize (size : Int) (limit : Option Int := none) (host : Host := .standard) :
    Except Tape.Error Machine :=
  (Tape.ofSize size host).map fun tape => { tape, limit }

/-- Every number of cells that memory holds is had. -/
theorem ofSize_natCast {size : Nat} {host : Host} (hpos : 0 < size) (hroom : size ≤ host.memory)
    (limit : Option Int) :
    ofSize size limit host = .ok
      { tape := .blank size hpos (Int.lt_of_le_of_lt (Int.ofNat_le.2 hroom) host.memory_lt)
        limit } := by
  have hone : (1 : Int) ≤ size := Int.ofNat_le.2 hpos
  have hword : (size : Int) < wordBound :=
    Int.lt_of_le_of_lt (Int.ofNat_le.2 hroom) host.memory_lt
  rw [ofSize, Tape.ofSize, dif_pos hone, dif_pos hword, if_pos (Int.ofNat_le.2 hroom)]
  rfl

theorem exists_ofSize {size : Int} {host : Host} (hpos : 1 ≤ size) (hroom : size ≤ host.memory)
    (limit : Option Int) : ∃ m, ofSize size limit host = .ok m ∧ m.limit = limit := by
  obtain ⟨n, rfl⟩ := Int.eq_ofNat_of_zero_le (Int.le_trans (by decide) hpos)
  exact ⟨_, ofSize_natCast (Int.ofNat_le.1 hpos) (Int.ofNat_le.1 hroom) limit, rfl⟩

/-- More cells than memory holds are not had. -/
theorem ofSize_of_roomless {size : Int} {host : Host} (hroom : (host.memory : Int) < size)
    (hword : size < wordBound) (limit : Option Int) :
    ofSize size limit host = .error (.capacity .memory) := by
  have hone : 1 ≤ size := Int.le_trans (Int.ofNat_le.2 host.memory_pos) (Int.le_of_lt hroom)
  rw [ofSize, Tape.ofSize, dif_pos hone, dif_pos hword, if_neg (Int.not_le.2 hroom)]
  rfl

/-- More cells than a word can count are not had on any host. -/
theorem ofSize_of_tooLarge {size : Int} (hword : wordBound ≤ size) (limit : Option Int)
    (host : Host) : ofSize size limit host = .error (.tooLarge size) := by
  have hone : 1 ≤ size := Int.le_trans (by decide) hword
  rw [ofSize, Tape.ofSize, dif_pos hone, dif_neg (Int.not_lt.2 hword)]
  rfl

/-- Clears the tape and the counts.  The limit stays. -/
def reset (m : Machine) : Machine :=
  { m with tape := m.tape.reset, ip := 0, steps := 0 }

/-- The state in which a run begins. -/
def start (m : Machine) : State :=
  { tape := m.tape.reset }

/-- Runs a program from its beginning on a cleared tape. -/
def run (m : Machine) (p : Program) (io : Streams) (rounds : Nat := patience) : Run :=
  let (s, ending) := State.run p io m.limit rounds m.start
  { machine := { m with tape := s.tape, ip := s.ip, steps := s.steps }
    reads := s.reads
    written := s.written
    ending }

/-! ## Actions -/

/-- What can be asked of a machine. -/
inductive Action where
  /-- Runs a program. -/
  | run (p : Program) (io : Streams)
  /-- Clears the machine. -/
  | reset
  /-- Sets the limit on steps. -/
  | setLimit (limit : Option Int)
  /-- Asks something of the tape. -/
  | tape (a : Tape.Action)

/-- What came of an action. -/
inductive Reply where
  /-- The action was carried out, and gave a byte if it asked for one. -/
  | done (b : Option UInt8)
  /-- The tape refused the action. -/
  | refused (e : Tape.Error)
  /-- A program was run: its writes, and how it ended. -/
  | ran (written : Array (List UInt8)) (ending : Option Ending)
deriving DecidableEq, Repr

/-- Carries out an action. -/
def perform (m : Machine) (a : Action) (rounds : Nat := patience) : Machine × Reply :=
  match a with
  | .run p io =>
    let r := m.run p io rounds
    (r.machine, .ran r.written r.ending)
  | .reset => (m.reset, .done none)
  | .setLimit limit => ({ m with limit }, .done none)
  | .tape a =>
    match m.tape.perform a with
    | (tape, .ok b) => ({ m with tape }, .done b)
    | (tape, .error e) => ({ m with tape }, .refused e)

end Machine

end Brainfuck
