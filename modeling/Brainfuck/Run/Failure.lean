import Brainfuck.Stream
import Brainfuck.Tape

/-!
# How a run ends

A run comes to the end of its program, or it fails, or it breaks down.  A
failure is the machine's own report: the program left the tape, the input or
the output gave trouble, or the run took as many steps as it may.  It names the
instruction and the cursor.  A breakdown is anything else: an instruction that
is none of those the machine knows how to carry out, trouble that it lets
through, or a report with a number in it that has too many digits to be written.
-/

namespace Brainfuck

/-- What makes a run fail. -/
inductive Failure.Cause where
  /-- The cursor would leave the tape. -/
  | leftTape (target : Int) (size : Nat)
  /-- A read failed. -/
  | readFailed (f : Fault)
  /-- A write failed. -/
  | writeFailed (f : Fault)
  /-- There is nothing left to read. -/
  | inputExhausted
  /-- The run has taken as many steps as it may. -/
  | stepLimit (limit : Int)
deriving DecidableEq, Repr

/-- The report can be written: its number, if it has one, does not have too many digits. -/
def Failure.Cause.HasText : Cause → Prop
  | leftTape target _ => FitsNumeral target
  | stepLimit limit => FitsNumeral limit
  | readFailed _ | writeFailed _ | inputExhausted => True

instance Failure.Cause.decidableHasText : (c : Cause) → Decidable c.HasText
  | leftTape target _ => decidableFitsNumeral target
  | stepLimit limit => decidableFitsNumeral limit
  | readFailed _ | writeFailed _ | inputExhausted => isTrue trivial

/-- The machine's report of a run that failed. -/
structure Failure where
  /-- What happened. -/
  cause : Failure.Cause
  /-- The index of the instruction. -/
  ip : Int
  /-- The place of the cursor. -/
  cursor : Int
deriving DecidableEq, Repr

/-- The failure of a stream behind the report, if there is one. -/
def Failure.Cause.fault? : Cause → Option Fault
  | readFailed f | writeFailed f => some f
  | _ => none

/-- The report as a text. -/
def Failure.message (e : Failure) : String :=
  match e.cause with
  | .leftTape target size => (Tape.Error.outside target size e.ip e.cursor).message
  | .readFailed f => s!"MachineIOError: read failed: {f.message}"
  | .writeFailed f => s!"MachineIOError: write failed: {f.message}"
  | .inputExhausted => "MachineIOError: input exhausted"
  | .stepLimit limit => s!"StepLimitError: exceeded {limit} steps"

/-- What makes a run break down. -/
inductive Defect where
  /-- There is no instruction at the index. -/
  | noInstruction (index : Int)
  /-- A command is not repeated but jumps. -/
  | noCount
  /-- A bracket has to jump but leads nowhere. -/
  | noTarget
  /-- The tape refuses, because there is no cell at the cursor. -/
  | tape (e : Tape.Error)
  /-- There is no room for the bytes that are to be written, or for a number in the report
  of a failure. -/
  | capacity (e : CapacityError)
  /-- A stream failed in a way that is not the machine's concern. -/
  | fault (f : Fault)
  /-- A read delivered several characters at once. -/
  | longText (length : Nat)
deriving DecidableEq, Repr

/-- The defect as a text. -/
def Defect.message : Defect → String
  | noInstruction index =>
    if FitsWord index then "tuple index out of range" else CapacityError.word.message
  | noCount => "'Jump' object has no attribute 'count'"
  | noTarget => "'Op' object has no attribute 'target'"
  | tape e => e.message
  | capacity e => e.message
  | fault f => f.message
  | longText length => s!"ord() expected a character, but string of length {length} found"

/-- How a run ends. -/
inductive Ending where
  /-- At the end of the program. -/
  | finished
  /-- With a report of the machine. -/
  | failed (e : Failure)
  /-- With a defect. -/
  | broken (d : Defect)
deriving DecidableEq, Repr

/-- The ending with this report.  If the report cannot be written, that is a defect in
its place. -/
def Failure.ending (e : Failure) : Ending :=
  if e.cause.HasText then .failed e else .broken (.capacity .numeral)

theorem Failure.ending_of_hasText {e : Failure} (h : e.cause.HasText) : e.ending = .failed e :=
  if_pos h

theorem Failure.ending_of_not_hasText {e : Failure} (h : ¬e.cause.HasText) :
    e.ending = .broken (.capacity .numeral) :=
  if_neg h

theorem Failure.ending_ne_finished (e : Failure) : e.ending ≠ .finished := by
  unfold ending
  split <;> nofun

end Brainfuck
