import Brainfuck.CommandLine.Report

/-!
# The program

Fetches what the command line needs from the system, and hands out what it
leaves behind.  The input is read only for a program that reads, and all at
once; the output is written when the run has ended.
-/

namespace Brainfuck.CommandLine

/-- The system's report on a file, as the reason why its path cannot be opened. -/
def OpenError.ofSystem (e : IO.Error) : OpenError :=
  match e with
  | .noFileOrDirectory .. | .noSuchThing .. => missing
  | .inappropriateType none _ _ => isFolder
  | .inappropriateType (some _) _ _ => notFolder
  | .invalidArgument .. => tooLong
  | .permissionDenied _ _ words => other 13 words.capitalize
  | e => other 5 (toString e)

/-- The bytes of the file at a path. -/
def readFile (path : String) : IO (Except OpenError (List UInt8)) := do
  match ← (IO.FS.readBinFile path).toBaseIO with
  | .ok bytes => return .ok bytes.data.toList
  | .error e => return .error (.ofSystem e)

/-- The file that the arguments name.  Without one there is nothing to be read. -/
def readNamed (args : List String) : IO (Except OpenError (List UInt8)) :=
  match Request.ofArguments args with
  | .ok (.run path _) => readFile path
  | _ => return .error .missing

/-- All bytes of a stream, behind those read before. -/
partial def readToEnd (input : IO.FS.Stream) (before : ByteArray) : IO ByteArray := do
  let bytes ← input.read 65536
  if bytes.isEmpty then return before else readToEnd input (before ++ bytes)

/-- The input of a program.  One that never reads is given none. -/
def readInput (p : Program) : IO (Array UInt8) := do
  if p.code.any fun i => i.kind = .command .read then
    return (← readToEnd (← IO.getStdin) .empty).data
  else return #[]

/-- The time since a moment, in milliseconds. -/
def since (start : Nat) : IO String := do
  return milliseconds ((← IO.monoNanosNow) - start)

/-- Hands out what the command line leaves behind, with the times that building
and running took, and gives the exit code. -/
def Outcome.put (o : Outcome) (building running : String) : IO UInt32 := do
  match o with
  | .report r =>
    let output ← IO.getStdout
    output.write ⟨r.output.toArray⟩
    output.flush
    IO.eprint (r.notesText building running)
    return r.code.toUInt32
  | .breakdown b =>
    IO.eprintln b.message
    return 1

/-- Does what the arguments ask for, and gives the exit code. -/
def serve (args : List String) : IO UInt32 := do
  let file ← readNamed args
  let start ← IO.monoNanosNow
  let job ← IO.lazyPure fun _ => Job.ofArguments args fun _ => file
  let building ← since start
  match job with
  | .error o => o.put building building
  | .ok j =>
    let input ← readInput j.program
    let start ← IO.monoNanosNow
    let outcome ← IO.lazyPure fun _ => j.outcome input Machine.patience
    outcome.put building (← since start)

end Brainfuck.CommandLine

/-- The command line. -/
def main (args : List String) : IO UInt32 :=
  Brainfuck.CommandLine.serve args
