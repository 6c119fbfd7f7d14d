import Brainfuck.Position
import Brainfuck.Symbol
import Brainfuck.Text.Filler

/-!
# Reading tokens from a text

A `Reader` stands in a text that is read one character at a time.  A single
read may also give nothing; usually that is the end of the text, but directly
after a filler character (white space, a letter or a digit) it is passed over
and the text goes on.  `Reader.next` passes over everything that is no symbol
and gives the next token.  Once it has given the end mark it gives it for ever
and reads no more.

The characters read so far and the place of the last token are kept, because
reports on a text show both.
-/

namespace Brainfuck

/-- A text that is being read. -/
structure Reader where
  /-- What the coming reads give: a character, or nothing.  Behind the last one
  every read gives nothing. -/
  feed : List (Option Char)
  /-- The characters read so far, the latest one first. -/
  past : List Char := []
  /-- The place of the latest character. -/
  place : Position := .start
  /-- Whether the end of the text has been met. -/
  ended : Bool := false
  /-- The place of the token that was given last. -/
  mark : Position := .unknown
  /-- The characters after which a read that gives nothing is passed over. -/
  filler : Char → Bool := Text.isFiller

namespace Reader

/-- A reader at the beginning of a text. -/
def ofList (cs : List Char) : Reader :=
  { feed := cs.map some }

/-- A reader at the beginning of a text. -/
def ofString (s : String) : Reader :=
  ofList s.toList

/-- The text read so far. -/
def consumed (r : Reader) : String :=
  String.ofList r.past.reverse

/-- The reader after one more character. -/
def take (r : Reader) (c : Char) : Reader :=
  { r with past := c :: r.past, place := r.place.advance c }

/-- Gives a token at the place of the latest character, with what is left to read. -/
def give (r : Reader) (t : Token) (feed : List (Option Char)) : Token × Reader :=
  (t, { r with feed, mark := r.place })

/-- Gives the end mark, directly behind the latest character. -/
def stop (r : Reader) (feed : List (Option Char)) : Token × Reader :=
  (.endOfText, { r with feed, ended := true, mark := r.place.behind })

/-- Reads on to the next symbol or to the end.  `afterFiller` says whether the
latest read gave a filler character. -/
def seek (r : Reader) (afterFiller : Bool) : List (Option Char) → Token × Reader
  | [] => r.stop []
  | none :: feed => if afterFiller then r.seek false feed else r.stop feed
  | some c :: feed =>
    match Token.ofChar? c with
    | some t => (r.take c).give t feed
    | none => (r.take c).seek (r.filler c) feed

/-- Gives the next token. -/
def next (r : Reader) : Token × Reader :=
  if r.ended then r.stop r.feed else r.seek false r.feed

end Reader

end Brainfuck
