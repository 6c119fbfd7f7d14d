import Brainfuck.Program.Assembly
import Brainfuck.Run.Machine
import Brainfuck.Text.Encoding

/-!
# Running programs, texts and files

The whole way from a file to a result: the bytes are decoded, line ends are
unified, the text is built into a program, and a new machine runs it on the
given input.  A failure of the machine is part of the result.  Whatever keeps a
result from coming about is a `Refusal`.
-/

namespace Brainfuck

/-- How a program is built and run. -/
structure Options where
  /-- The number of cells on the tape. -/
  tapeSize : Int := 3000
  /-- How many steps the run may take. -/
  limit : Option Int := none
  /-- Whether equal commands that follow each other become one instruction. -/
  fold : Bool := true
  /-- What the program runs on. -/
  host : Host := .standard
deriving DecidableEq, Repr

/-- What a program is given to read. -/
inductive Input where
  /-- Bytes. -/
  | bytes (bs : Array UInt8)
  /-- A text, which is read in UTF-8. -/
  | text (s : String)

/-- The bytes that are read. -/
def Input.toArray : Input → Array UInt8
  | bytes bs => bs
  | text s => s.toUTF8.data

/-- What a run leaves behind. -/
structure Result where
  /-- The bytes written. -/
  output : List UInt8
  /-- The tape. -/
  tape : Tape
  /-- The number of instructions begun. -/
  steps : Nat
  /-- The machine's report, if the run failed. -/
  failure : Option Failure
deriving DecidableEq, Repr

/-- Why there is no result. -/
inductive Refusal where
  /-- The brackets of the text do not match. -/
  | loops (e : LoopError)
  /-- There is no such tape. -/
  | tape (e : Tape.Error)
  /-- The run broke down. -/
  | defect (d : Defect)
  /-- There is no encoding of that name. -/
  | unknownEncoding (name : String)
  /-- The name of an encoding may not hold the null character. -/
  | nullInEncoding
  /-- The run has used up its rounds. -/
  | unfinished
deriving DecidableEq, Repr

/-- The refusal as a text. -/
def Refusal.message : Refusal → String
  | loops e => e.message
  | tape e => e.message
  | defect d => d.message
  | unknownEncoding name => s!"unknown encoding: {name}"
  | nullInEncoding => "embedded null character"
  | unfinished => "the run has not come to an end"

/-- The result of a run that has ended. -/
def Run.result (r : Run) : Except Refusal Result :=
  let result (failure : Option Failure) : Result :=
    { output := r.written.toList.flatten
      tape := r.machine.tape
      steps := r.machine.steps
      failure }
  match r.ending with
  | some .finished => .ok (result none)
  | some (.failed e) => .ok (result (some e))
  | some (.broken d) => .error (.defect d)
  | none => .error .unfinished

/-- Runs a program on a new machine. -/
def Program.run (p : Program) (input : Input) (o : Options := {})
    (rounds : Nat := Machine.patience) : Except Refusal Result :=
  match Machine.ofSize o.tapeSize o.limit o.host with
  | .ok m => (m.run p (.ofBytes input.toArray o.host) rounds).result
  | .error e => .error (.tape e)

/-- Builds and runs a text. -/
def runText (text : List Char) (input : Input) (o : Options := {})
    (rounds : Nat := Machine.patience) : Except Refusal Result :=
  match Program.ofText text o.fold with
  | .ok p => p.run input o rounds
  | .error e => .error (.loops e)

/-- The text of a file. -/
def textOfFile (encoding : Text.Encoding) (file : List UInt8) : List Char :=
  Text.unifyNewlines (encoding.decode file)

/-- Builds and runs a file in the encoding of that name. -/
def runFile (file : List UInt8) (input : Input) (o : Options := {}) (encoding : String := "utf-8")
    (rounds : Nat := Machine.patience) : Except Refusal Result :=
  if encoding.toList.contains '\x00' then .error .nullInEncoding
  else match Text.Encoding.ofName? encoding with
  | some e => runText (textOfFile e file) input o rounds
  | none => .error (.unknownEncoding encoding)

end Brainfuck
