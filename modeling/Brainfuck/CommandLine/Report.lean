import Brainfuck.CommandLine.Arguments
import Brainfuck.CommandLine.Folder

/-!
# What the command line does

The arguments name a program; its file is opened, read as UTF-8 and built, and
a machine runs it.  What is written goes to the output, and notes about the run
go beside it.  The first thing that goes wrong ends the whole, with an exit
code of 2 for wrong arguments and of 1 for anything else.  There is trouble that
is not foreseen here, and which ends the whole without a report (`Breakdown`).

How long things took is not known here: a note about times leaves them open.
-/

namespace Brainfuck.CommandLine

/-- How the command line is used. -/
def usage : String :=
  "usage: bfmachine [-h] [--tape-size TAPE_SIZE] [--max-steps MAX_STEPS]\n" ++
  "                 [--no-fold] [--stats]\n" ++
  "                 program\n"

/-- What the switches mean. -/
def helpText : String :=
  usage ++
  "\n" ++
  "Run a brainfuck program\n" ++
  "\n" ++
  "positional arguments:\n" ++
  "  program               path to the program text\n" ++
  "\n" ++
  "options:\n" ++
  "  -h, --help            show this help message and exit\n" ++
  "  --tape-size TAPE_SIZE\n" ++
  "                        number of cells on the tape (default 3000)\n" ++
  "  --max-steps MAX_STEPS\n" ++
  "                        stop with an error after this many instructions\n" ++
  "  --no-fold             emit one instruction per symbol instead of run-length\n" ++
  "                        folding\n" ++
  "  --stats               print build/execution timings to stderr\n"

/-- Something that is said beside the output. -/
inductive Note where
  /-- A text. -/
  | text (s : String)
  /-- How long building took, and the number of instructions. -/
  | built (instructions : Nat)
  /-- How long running took, and the number of steps. -/
  | executed (steps : Nat)
deriving DecidableEq, Repr

/-- A time in milliseconds with two places, rounded to the nearest. -/
def milliseconds (nanoseconds : Nat) : String :=
  let hundredths := (nanoseconds + 5000) / 10000
  let places := hundredths % 100
  toString (hundredths / 100) ++ (if places < 10 then ".0" else ".") ++ toString places

/-- The note with the times, in milliseconds, that building and running took. -/
def Note.render (building running : String) : Note → String
  | text s => s
  | built instructions => s!"Build took {building} ms ({instructions} instructions)\n"
  | executed steps => s!"Execution took {running} ms ({steps} steps)\n"

/-- What the command line leaves behind. -/
structure Report where
  /-- The exit code. -/
  code : Nat
  /-- The bytes written to the output. -/
  output : List UInt8 := []
  /-- The notes, in order. -/
  notes : List Note := []
deriving DecidableEq, Repr

namespace Report

/-- The report that shows how the command line is used. -/
def help : Report :=
  { code := 0, output := helpText.toUTF8.data.toList }

/-- The report on wrong arguments. -/
def wrongUsage (e : UsageError) : Report :=
  { code := 2, notes := [.text (usage ++ "bfmachine: error: " ++ e.message ++ "\n")] }

/-- The report that something went wrong, with what had been written before. -/
def failure (message : String) (output : List UInt8 := []) : Report :=
  { code := 1, output, notes := [.text (message ++ "\n")] }

/-- All notes as one text. -/
def notesText (r : Report) (building running : String) : String :=
  String.join (r.notes.map (Note.render building running))

end Report

/-- Trouble that the command line is not prepared for.  It ends the whole
without a report. -/
inductive Breakdown where
  /-- A path may not hold the null character. -/
  | nullInPath
  /-- The number of cells is needed, and is set to nothing. -/
  | tapeSizeVoid
  /-- The limit on steps is needed, and is set to nothing. -/
  | limitVoid
  /-- Memory does not hold the cells. -/
  | tapeRoom
  /-- The run broke down. -/
  | defect (d : Defect)
  /-- The run has used up its rounds. -/
  | unfinished
deriving DecidableEq, Repr

/-- The trouble as a text. -/
def Breakdown.message : Breakdown → String
  | nullInPath => "embedded null byte"
  | tapeSizeVoid => "'<' not supported between instances of 'list' and 'int'"
  | limitVoid => "'>=' not supported between instances of 'int' and 'list'"
  | tapeRoom => CapacityError.memory.message
  | defect d => d.message
  | unfinished => "the run has not come to an end"

/-- How the command line ends. -/
inductive Outcome where
  /-- With a report. -/
  | report (r : Report)
  /-- With trouble. -/
  | breakdown (b : Breakdown)
deriving DecidableEq, Repr

/-- A program that has been built and is to be run. -/
structure Job where
  /-- The program. -/
  program : Program
  /-- How it is run and reported on. -/
  settings : Settings

/-- Builds the program that the arguments name.  If there is none to be run,
the command line ends here. -/
def Job.ofArguments (args : List String) (openFile : String → Except OpenError (List UInt8)) :
    Except Outcome Job :=
  match Request.ofArguments args with
  | .error e => .error (.report (.wrongUsage e))
  | .ok .help => .error (.report .help)
  | .ok (.run path settings) =>
    if path.toList.contains '\x00' then .error (.breakdown .nullInPath)
    else match openFile path with
    | .error e => .error (.report (.failure ("Couldn't open program: " ++ e.message path)))
    | .ok file =>
      match Program.ofText (textOfFile .utf8 file) settings.fold with
      | .error e => .error (.report (.failure e.message))
      | .ok program => .ok { program, settings }

namespace Job

/-- The report with a note on the build in front, if notes on times are wanted. -/
def withBuilt (j : Job) (r : Report) : Outcome :=
  .report { r with
    notes := if j.settings.stats then .built j.program.size :: r.notes else r.notes }

/-- What there is to say at the end of a run. -/
def conclude (j : Job) (r : Run) : Outcome :=
  let output := r.written.toList.flatten
  match r.ending with
  | some .finished =>
    j.withBuilt
      { code := 0, output, notes := if j.settings.stats then [.executed r.machine.steps] else [] }
  | some (.failed e) =>
    j.withBuilt (.failure s!"{e.message} (ip={e.ip}, cursor={e.cursor})" output)
  | some (.broken d) => .breakdown (.defect d)
  | none => .breakdown .unfinished

/-- What there is to say if there is no tape.  That memory does not hold one is not foreseen. -/
def refuse (j : Job) : Tape.Error → Outcome
  | .capacity .memory => .breakdown .tapeRoom
  | e => j.withBuilt (.failure ("Error: " ++ e.message))

/-- Runs the program.  The number of cells is needed in any case, the limit only
if there is an instruction to be carried out. -/
def outcome (j : Job) (input : Array UInt8) (rounds : Nat) (host : Host := .standard) : Outcome :=
  match j.settings.tapeSize with
  | .void => .breakdown .tapeSizeVoid
  | .number size =>
    match Machine.ofSize size (j.settings.limit.bind Setting.number?) host with
    | .error e => j.refuse e
    | .ok m =>
      if j.settings.limit = some .void ∧ 0 < j.program.size then .breakdown .limitVoid
      else j.conclude (m.run j.program (.ofBytes input host) rounds)

end Job

/-- The whole of what the command line does. -/
def outcome (args : List String) (openFile : String → Except OpenError (List UInt8))
    (input : Array UInt8) (rounds : Nat := Machine.patience) (host : Host := .standard) : Outcome :=
  match Job.ofArguments args openFile with
  | .error o => o
  | .ok j => j.outcome input rounds host

end Brainfuck.CommandLine
