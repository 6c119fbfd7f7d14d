import Brainfuck.Run.Result
import Brainfuck.Text.Integer
import Brainfuck.Text.Quoted

/-!
# Arguments of the command line

The command line takes the path of a program and a few switches, in any order.

* A switch may be shortened as long as it stays distinct.  Its value is the
  next word, or stands behind an equals sign in the same word.
* A word that begins with a hyphen is a switch, unless it is a lone hyphen, or
  is no known switch and looks like a negative number or holds a space.
* Two hyphens on their own make plain words of all that follows.  They belong
  to the path when they stand directly before or behind it.
* Behind `-h` in the same word only the same letter is understood.

The words are first told apart (`Word.ofArguments`) and then taken one by one
from the left (`Selection.take`), so the leftmost fault is the one reported; that
the path is missing or that words are left over is found at the end.
-/

namespace Brainfuck.CommandLine

/-- The switches. -/
inductive Switch where
  /-- Shows how the command line is used. -/
  | help
  /-- Sets the number of cells. -/
  | tapeSize
  /-- Sets the limit on steps. -/
  | maxSteps
  /-- Keeps equal commands apart. -/
  | noFold
  /-- Reports on times and counts. -/
  | stats
deriving DecidableEq, Repr

namespace Switch

/-- All switches, in the order in which they are listed. -/
def all : List Switch := [help, tapeSize, maxSteps, noFold, stats]

/-- The switch as it is written in full. -/
def word : Switch → String
  | help => "--help"
  | tapeSize => "--tape-size"
  | maxSteps => "--max-steps"
  | noFold => "--no-fold"
  | stats => "--stats"

/-- The switch as messages name it. -/
def title : Switch → String
  | help => "-h/--help"
  | s => s.word

/-- Whether a value belongs to the switch. -/
def takesValue : Switch → Bool
  | tapeSize | maxSteps => true
  | help | noFold | stats => false

end Switch

/-- What is wrong with the arguments. -/
inductive UsageError where
  /-- There is no path. -/
  | pathMissing
  /-- These words are left over. -/
  | unrecognized (words : List String)
  /-- The word may be short for several switches. -/
  | ambiguous (word : String) (switches : List Switch)
  /-- The switch has no value. -/
  | valueMissing (s : Switch)
  /-- The value of the switch is no integer. -/
  | valueInvalid (s : Switch) (value : String)
  /-- The switch takes no value. -/
  | valueNeedless (s : Switch) (value : String)
deriving DecidableEq, Repr

/-- The fault as a text. -/
def UsageError.message : UsageError → String
  | pathMissing => "the following arguments are required: program"
  | unrecognized words => "unrecognized arguments: " ++ " ".intercalate words
  | ambiguous word switches =>
    s!"ambiguous option: {word} could match " ++ ", ".intercalate (switches.map Switch.word)
  | valueMissing s => s!"argument {s.title}: expected one argument"
  | valueInvalid s value => s!"argument {s.title}: invalid int value: {Text.quoted value}"
  | valueNeedless s value => s!"argument {s.title}: ignored explicit argument {Text.quoted value}"

/-! ## Telling the words apart -/

/-- An argument, as it is understood. -/
inductive Word where
  /-- A path or a value. -/
  | plain (s : String)
  /-- Two hyphens: only plain words follow. -/
  | separator
  /-- A switch, and the value in the same word if there is one. -/
  | switch (s : Switch) (value : Option String)
  /-- Looks like a switch and is none. -/
  | unknown (s : String)
deriving DecidableEq, Repr

namespace Word

/-- Whether the characters are a negative number: a hyphen and digits, with or
without a point before the last of them.  A line feed may follow. -/
def isNegativeNumber (cs : List Char) : Bool :=
  match (if cs.getLast? = some '\n' then cs.dropLast else cs) with
  | '-' :: rest =>
    let whole := rest.takeWhile Text.isDecimal
    match rest.dropWhile Text.isDecimal with
    | [] => !whole.isEmpty
    | '.' :: decimals => !decimals.isEmpty && decimals.all Text.isDecimal
    | _ => false
  | _ => false

/-- The switches that these characters may be short for. -/
def shortened (cs : List Char) : List Switch :=
  if ['-', '-'].isPrefixOf cs then Switch.all.filter fun s => cs.isPrefixOf s.word.toList else []

/-- The value that is left when each `h` in front of these characters has been
taken as asking for help once more. -/
def behindHelp (cs : List Char) : Option (List Char) :=
  match cs.dropWhile (· = 'h') with
  | [] => none
  | left => some left

/-- The value that the characters behind `-h` give to it.  They are further
letters, or a value behind an equals sign, and of both only `h` is understood. -/
def valueOfHelp : List Char → Option (List Char)
  | ['='] => some []
  | '=' :: value => behindHelp value
  | rest => behindHelp rest

/-- Understands a word other than the separator. -/
def ofString (s : String) : Except UsageError Word :=
  match s.toList with
  | '-' :: 'h' :: rest => .ok (.switch .help ((valueOfHelp rest).map String.ofList))
  | '-' :: c :: rest =>
    let cs := '-' :: c :: rest
    let value := (cs.dropWhile (· != '=')).tail?.map String.ofList
    match shortened (cs.takeWhile (· != '=')) with
    | [found] => .ok (.switch found value)
    | [] => .ok (if isNegativeNumber cs || cs.contains ' ' then .plain s else .unknown s)
    | found => .error (.ambiguous s found)
  | _ => .ok (.plain s)

/-- Understands all arguments. -/
def ofArguments : List String → Except UsageError (List Word)
  | [] => .ok []
  | s :: rest =>
    if s = "--" then .ok (separator :: rest.map plain)
    else do
      let word ← ofString s
      return word :: (← ofArguments rest)

end Word

/-! ## Taking them one by one -/

/-- What a switch is set to. -/
inductive Setting where
  /-- A number. -/
  | number (n : Int)
  /-- Nothing.  This is what a switch is set to by two hyphens in its own word:
  they are dropped there, and that nothing is left goes unnoticed until the
  number is needed. -/
  | void
deriving DecidableEq, Repr

/-- The number of a setting. -/
def Setting.number? : Setting → Option Int
  | number n => some n
  | void => none

/-- What a switch is set to by a value. -/
def Setting.ofString? (value : String) : Option Setting :=
  if value = "--" then some void else (Text.Integer.ofString? value).map number

/-- How the program is built, run and reported on, as far as the switches say. -/
structure Settings where
  /-- The number of cells on the tape. -/
  tapeSize : Setting := .number 3000
  /-- How many steps the run may take. -/
  limit : Option Setting := none
  /-- Whether equal commands that follow each other become one instruction. -/
  fold : Bool := true
  /-- Whether times and counts are reported. -/
  stats : Bool := false
deriving DecidableEq, Repr

/-- The options that the settings stand for, unless one of them is set to nothing. -/
def Settings.options? (s : Settings) : Option Options :=
  match s.tapeSize, s.limit with
  | .number tapeSize, none => some { tapeSize, fold := s.fold }
  | .number tapeSize, some (.number limit) => some { tapeSize, limit, fold := s.fold }
  | _, _ => none

/-- What has been read of the arguments so far. -/
structure Selection where
  /-- The path of the program. -/
  path : Option String := none
  /-- Whether the path was the last word. -/
  atPath : Bool := false
  /-- What the switches say. -/
  settings : Settings := {}
  /-- The words that are left over, the latest first. -/
  extra : List String := []
deriving Repr

namespace Selection

/-- Keeps a word as left over. -/
def leave (r : Selection) (s : String) : Selection :=
  { r with extra := s :: r.extra, atPath := false }

/-- Takes a plain word that is no value. -/
def plain (r : Selection) (s : String) : Selection :=
  if r.path.isNone then { r with path := some s, atPath := true } else r.leave s

/-- Puts other settings in place. -/
def adjust (r : Selection) (settings : Settings) : Selection :=
  { r with settings, atPath := false }

/-- Sets the value of a switch. -/
def setValue (r : Selection) (s : Switch) (value : String) : Except UsageError Selection :=
  match Setting.ofString? value with
  | none => .error (.valueInvalid s value)
  | some n =>
    .ok (r.adjust (if s = .tapeSize then { r.settings with tapeSize := n }
      else { r.settings with limit := some n }))

/-- Turns on a switch that has no value.  Help ends the reading. -/
def turnOn (r : Selection) : Switch → Option Selection
  | .noFold => some (r.adjust { r.settings with fold := false })
  | .stats => some (r.adjust { r.settings with stats := true })
  | _ => none

/-- Takes the words from the left.  Nothing is given if help is asked for. -/
def take : List Word → Selection → Except UsageError (Option Selection)
  | [], r => .ok (some r)
  | .plain s :: rest, r => take rest (r.plain s)
  | .separator :: rest, r =>
    if r.atPath || r.path.isNone && !rest.isEmpty then take rest { r with atPath := false }
    else take rest (r.leave "--")
  | .unknown s :: rest, r => take rest (r.leave s)
  | .switch s value :: rest, r =>
    if s.takesValue then
      match value, rest with
      | some value, rest => do take rest (← r.setValue s value)
      | none, .plain value :: rest => do take rest (← r.setValue s value)
      | none, _ => .error (.valueMissing s)
    else
      match value with
      | some value => .error (.valueNeedless s value)
      | none =>
        match r.turnOn s with
        | some r => take rest r
        | none => .ok none

end Selection

/-- What the arguments ask for. -/
inductive Request where
  /-- To show how the command line is used. -/
  | help
  /-- To run the program at a path. -/
  | run (path : String) (settings : Settings)
deriving DecidableEq, Repr

/-- What the arguments ask for, or what is wrong with them. -/
def Request.ofArguments (args : List String) : Except UsageError Request := do
  match ← Selection.take (← Word.ofArguments args) {} with
  | none => return .help
  | some r =>
    match r.path, r.extra with
    | none, _ => throw .pathMissing
    | some path, [] => return .run path r.settings
    | some _, extra => throw (.unrecognized extra.reverse)

end Brainfuck.CommandLine
