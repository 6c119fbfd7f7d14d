/-!
# Symbols

The language has eight symbols: six commands and the two brackets of a loop.
A text is read as a sequence of tokens, which are the symbols and a mark for
the end of the text.  `ofChar?_eq_some_iff` says that a character is read as
the token that is written with it, so no two tokens share a character.
-/

namespace Brainfuck

/-- The commands. -/
inductive Command where
  /-- Moves the cursor to a later cell. -/
  | right
  /-- Moves the cursor to an earlier cell. -/
  | left
  /-- Adds to the current cell. -/
  | increment
  /-- Subtracts from the current cell. -/
  | decrement
  /-- Writes the current cell to the output. -/
  | write
  /-- Reads the current cell from the input. -/
  | read
deriving DecidableEq, Repr

/-- What a text is made of, as far as the language is concerned. -/
inductive Token where
  /-- A command. -/
  | command (c : Command)
  /-- The bracket before the body of a loop. -/
  | loopOpen
  /-- The bracket behind the body of a loop. -/
  | loopClose
  /-- The mark that the text has ended. -/
  | endOfText
deriving DecidableEq, Repr

/-- The character a command is written with. -/
def Command.char : Command → Char
  | right => '>'
  | left => '<'
  | increment => '+'
  | decrement => '-'
  | write => '.'
  | read => ','

namespace Token

/-- The character a token is written with.  The end mark has none. -/
def char? : Token → Option Char
  | command c => some c.char
  | loopOpen => some '['
  | loopClose => some ']'
  | endOfText => none

/-- The symbol that the character is, if it is one. -/
def ofChar? : Char → Option Token
  | '>' => some (command .right)
  | '<' => some (command .left)
  | '+' => some (command .increment)
  | '-' => some (command .decrement)
  | '.' => some (command .write)
  | ',' => some (command .read)
  | '[' => some loopOpen
  | ']' => some loopClose
  | _ => none

/-- The token that the whole text spells.  The empty text spells the end mark. -/
def ofString? (s : String) : Option Token :=
  match s.toList with
  | [] => some endOfText
  | [c] => ofChar? c
  | _ => none

/-- Whether the token is a bracket. -/
def isBracket : Token → Bool
  | loopOpen | loopClose => true
  | _ => false

theorem ofChar?_eq_some_iff {c : Char} {t : Token} : ofChar? c = some t ↔ t.char? = some c := by
  constructor
  · intro h
    unfold ofChar? at h
    split at h <;> cases h <;> rfl
  · intro h
    cases t with
    | command k => cases k <;> cases h <;> rfl
    | loopOpen | loopClose => cases h; rfl
    | endOfText => cases h

@[simp] theorem ofChar?_ne_endOfText (c : Char) : ofChar? c ≠ some endOfText := by
  intro h
  cases ofChar?_eq_some_iff.1 h

end Token

end Brainfuck
