import Brainfuck.Program.Basic
import Brainfuck.Run.Failure

/-!
# Steps of a run

A `State` is all that a run changes.  `step` carries out one instruction: it
gives the next state, or it stops and says how the run ends.  A run that stops
stays on the instruction that stopped it; what that instruction did before is
kept, so of several reads in a row the last byte stored remains.
-/

namespace Brainfuck

/-- Where a run stands. -/
structure State where
  /-- The tape. -/
  tape : Tape
  /-- The index of the coming instruction. -/
  ip : Int := 0
  /-- The number of instructions begun. -/
  steps : Nat := 0
  /-- The number of reads made. -/
  reads : Nat := 0
  /-- The bytes of each write, in order. -/
  written : Array (List UInt8) := #[]
deriving DecidableEq, Repr

/-- What one step leads to. -/
inductive Step where
  /-- The run goes on. -/
  | next (s : State)
  /-- The run ends. -/
  | stop (s : State) (e : Ending)
deriving DecidableEq, Repr

namespace State

/-- The bytes written so far. -/
def output (s : State) : List UInt8 :=
  s.written.toList.flatten

/-- Goes on to the instruction behind this one. -/
def advance (s : State) : Step :=
  .next { s with ip := s.ip + 1 }

/-- Stops with a report on this instruction. -/
def fail (s : State) (cause : Failure.Cause) : Step :=
  .stop s (Failure.ending ⟨cause, s.ip, s.tape.cursor⟩)

theorem fail_of_hasText {s : State} {cause : Failure.Cause} (h : cause.HasText) :
    s.fail cause = .stop s (.failed ⟨cause, s.ip, s.tape.cursor⟩) := by
  rw [fail, Failure.ending_of_hasText h]

/-- Stops with a defect. -/
def breakDown (s : State) (d : Defect) : Step :=
  .stop s (.broken d)

/-- Stops because there is no cell at the cursor. -/
def offTape (s : State) : Step :=
  s.breakDown (.tape s.tape.absence)

/-- Moves the cursor. -/
def move (s : State) (delta : Int) : Step :=
  match s.tape.move? delta with
  | some tape => .next { s with tape, ip := s.ip + 1 }
  | none => s.fail (.leftTape (s.tape.cursor + delta) s.tape.size)

/-- Adds to the current cell. -/
def add (s : State) (n : Int) : Step :=
  match s.tape.current? with
  | some b => .next { s with tape := s.tape.put (Tape.sum b n), ip := s.ip + 1 }
  | none => s.offTape

/-- Writes the current cell `count` times in one write.  A count below one
writes no bytes.  Nothing is written if there is no room for so many. -/
def write (s : State) (io : Streams) (count : Int) : Step :=
  match s.tape.current? with
  | none => s.offTape
  | some b =>
    match copies io.host count b with
    | .error e => s.breakDown (.capacity e)
    | .ok bytes =>
      match io.write s.written.size with
      | none => .next { s with written := s.written.push bytes, ip := s.ip + 1 }
      | some f => if f.kind.isStreamTrouble then s.fail (.writeFailed f) else s.breakDown (.fault f)

/-- Stops because a read delivered no byte. -/
def refuse (s : State) : Reading.Problem → Step
  | .exhausted => s.fail .inputExhausted
  | .fault f => if f.kind.isStreamTrouble then s.fail (.readFailed f) else s.breakDown (.fault f)
  | .longText length => s.breakDown (.longText length)

/-- Reads `count` bytes, one at a time, each into the current cell. -/
def read (io : Streams) : (count : Nat) → State → Step
  | 0, s => s.advance
  | count + 1, s =>
    match (io.read s.reads).byte with
    | .error p => { s with reads := s.reads + 1 }.refuse p
    | .ok b =>
      match s.tape.current? with
      | some _ => read io count { s with tape := s.tape.put b, reads := s.reads + 1 }
      | none => { s with reads := s.reads + 1 }.offTape

/-- Goes on behind the target if the current cell passes the test, else behind this instruction. -/
def branch (s : State) (test : UInt8 → Bool) (target? : Option Int) : Step :=
  match s.tape.current? with
  | some b =>
    if test b then
      match target? with
      | some target => .next { s with ip := target + 1 }
      | none => s.breakDown .noTarget
    else s.advance
  | none => s.offTape

/-- Carries out a command `count` times. -/
def perform (s : State) (io : Streams) (count : Int) : Command → Step
  | .right => s.move count
  | .left => s.move (-count)
  | .increment => s.add count
  | .decrement => s.add (-count)
  | .write => s.write io count
  | .read => read io count.toNat s

/-- Carries out an instruction.  An opening bracket jumps if the current cell is
zero and a closing one if it is not.  The end mark does nothing. -/
def execute (s : State) (io : Streams) (i : Instruction) : Step :=
  match i.kind with
  | .command c =>
    match i.count? with
    | some count => s.perform io count c
    | none => s.breakDown .noCount
  | .loopOpen => s.branch (· == 0) i.target?
  | .loopClose => s.branch (· != 0) i.target?
  | .endOfText => s.advance

/-- Begins the next instruction, unless the program is at its end or the run
has taken as many steps as it may. -/
def step (s : State) (p : Program) (io : Streams) (limit : Option Int) : Step :=
  if p.size ≤ s.ip then .stop s .finished
  else match limit.filter fun k => k ≤ (s.steps : Int) with
    | some k => s.fail (.stepLimit k)
    | none =>
      let begun := { s with steps := s.steps + 1 }
      match p.get? s.ip with
      | some i => begun.execute io i
      | none => begun.breakDown (.noInstruction s.ip)

/-- Takes at most `rounds` steps.  No ending is given if the run could go on. -/
def run (p : Program) (io : Streams) (limit : Option Int) :
    (rounds : Nat) → State → State × Option Ending
  | 0, s => (s, none)
  | rounds + 1, s =>
    match s.step p io limit with
    | .next s => run p io limit rounds s
    | .stop s e => (s, some e)

end State

end Brainfuck
