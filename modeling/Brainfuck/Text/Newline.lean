import Brainfuck.Text.Transducer

/-!
# Line ends

A file may end its lines with a line feed, with a carriage return, or with a
carriage return and a line feed.  `unifyNewlines` writes each of them as one
line feed.  Texts that are handed over as such are not unified.
-/

namespace Brainfuck.Text

/-- Writes a line feed for every carriage return, and passes over a line feed
that directly follows one.  The state says whether the last character was a
carriage return. -/
def newlines : Transducer Char Char Bool where
  start := false
  step afterReturn c :=
    if c = '\r' then (true, ['\n'])
    else if c = '\n' && afterReturn then (false, [])
    else (false, [c])
  finish _ := []

/-- The text with every line end written as one line feed. -/
def unifyNewlines (cs : List Char) : List Char :=
  newlines.run cs

/-- The lines of a text.  Only a line feed ends a line, and what follows the
last one is a line too, so there is always at least one. -/
def lines (cs : List Char) : List (List Char) :=
  cs.foldr
    (fun c rest =>
      if c = '\n' then [] :: rest
      else match rest with
        | [] => [[c]]
        | line :: rest => (c :: line) :: rest)
    [[]]

end Brainfuck.Text
