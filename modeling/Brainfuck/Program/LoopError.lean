import Brainfuck.Text.Excerpt
import Brainfuck.Text.Newline

/-!
# Errors in the nesting of loops

A text is no program if a bracket has no partner.  The report names what is
wrong, the place, the lines around the place as far as the text had been read,
and what to do about it.
-/

namespace Brainfuck

/-- What is wrong with the nesting of loops. -/
inductive LoopError.Kind where
  /-- A closing bracket has no opening one. -/
  | unbalanced
  /-- The text ends inside a loop. -/
  | unterminated
deriving DecidableEq, Repr

/-- A report on the nesting of loops. -/
structure LoopError where
  /-- What is wrong. -/
  kind : LoopError.Kind
  /-- What is wrong, in words. -/
  detail : String
  /-- The line of the bracket, or zero if the tokens come from no text. -/
  line : Int
  /-- The column of the bracket. -/
  column : Int
  /-- The lines around the place. -/
  context : String
deriving DecidableEq, Repr

namespace LoopError

/-- The name of the error. -/
def Kind.title : Kind → String
  | unbalanced => "UnbalancedLoopError"
  | unterminated => "UnterminatedLoopError"

/-- The word that stands for the kind of error. -/
def Kind.word : Kind → String
  | unbalanced => "unbalanced"
  | unterminated => "unterminated"

/-- The kind of error that a word stands for. -/
def Kind.ofWord? (s : String) : Option Kind :=
  [unbalanced, unterminated].find? fun k => k.word == s

/-- What to do about the error. -/
def Kind.hint : Kind → String
  | unbalanced => "Remove the stray \"]\" or add the \"[\" that should open this loop."
  | unterminated => "Every \"[\" needs a matching \"]\" before the end of the program."

/-- The lines around a place in a text.  An empty text shows none. -/
def contextOf (source : String) (line : Int) : String :=
  if source.isEmpty then ""
  else Text.excerpt ((Text.lines source.toList).map String.ofList) line

/-- The report on a place in a text. -/
def locate (kind : Kind) (detail source : String) (line column : Int) : LoopError :=
  { kind, detail, line, column, context := contextOf source line }

/-- A closing bracket without an opening one. -/
def stray (source : String) (line column : Nat) : LoopError :=
  locate .unbalanced "']' without a matching '['" source line column

/-- So many opening brackets without a closing one.  The place is that of the last of them. -/
def leftOpen (count : Nat) (source : String) (line column : Nat) : LoopError :=
  locate .unterminated s!"{count} '[' left open at end of program" source line column

/-- The report as a text. -/
def message (e : LoopError) : String :=
  let place := if e.line = 0 then "" else s!" (line {e.line}, column {e.column})"
  let context := if e.context.isEmpty then "" else "\n" ++ e.context
  e.kind.title ++ ": " ++ e.detail ++ place ++ context ++ "\nHint: " ++ e.kind.hint

end LoopError

end Brainfuck
