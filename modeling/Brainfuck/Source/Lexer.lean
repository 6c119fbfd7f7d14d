import Brainfuck.Source.Reader

/-!
# Reading one character too far

A `Reader` looks at each character once.  A `Lexer` comes to the same tokens in
the way of a stream that is read by runs: behind a white space character it
skips all white space, and behind a letter or a digit the rest of the comment.
The end of such a run is found by reading one character too far, which is then
put back.  Putting back undoes the count of lines and columns, and for a line
feed the column before it is kept for that.

What is white space and what is a comment are parameters.
-/

namespace Brainfuck

/-- A text that is being read by runs. -/
structure Lexer where
  /-- What the coming reads give: a character, or nothing.  Behind the last one
  every read gives nothing. -/
  feed : List (Option Char)
  /-- A character that was put back. -/
  pending : Option Char := none
  /-- The characters read so far, the latest one first. -/
  past : List Char := []
  /-- The place of the latest character. -/
  place : Position := .start
  /-- The column before the latest line feed. -/
  lineEnd : Nat := 0
  /-- Whether the end of the text has been met. -/
  ended : Bool := false
  /-- The place of the token that was given last. -/
  mark : Position := .unknown
  /-- The white space characters. -/
  blank : Char → Bool := Text.isBlank
  /-- The characters of a comment. -/
  word : Char → Bool := fun c => Text.isLetter c || Text.isDigit c

namespace Lexer

/-- A lexer at the beginning of a text. -/
def ofList (cs : List Char) : Lexer :=
  { feed := cs.map some }

/-- The text read so far. -/
def consumed (l : Lexer) : String :=
  String.ofList l.past.reverse

/-- Counts one more character. -/
def count (l : Lexer) (c : Char) : Lexer :=
  if c = '\n' then { l with place := ⟨l.place.line + 1, 0⟩, lineEnd := l.place.column }
  else { l with place := ⟨l.place.line, l.place.column + 1⟩ }

/-- Counts the latest character no longer. -/
def uncount (l : Lexer) (c : Char) : Lexer :=
  if c = '\n' then { l with place := ⟨l.place.line - 1, l.lineEnd⟩ }
  else { l with place := ⟨l.place.line, l.place.column - 1⟩ }

/-- Reads: the character that was put back, or else what the text gives. -/
def read (l : Lexer) : Option Char × Lexer :=
  match l.pending, l.feed with
  | some c, _ => (some c, { l with pending := none }.count c)
  | none, [] => (none, l)
  | none, none :: feed => (none, { l with feed })
  | none, some c :: feed => (some c, { l with feed, past := c :: l.past }.count c)

/-- Puts the character back that was read last. -/
def unread (l : Lexer) (c : Char) : Lexer :=
  { l.uncount c with pending := some c }

/-- How many reads can give a character, at most. -/
def size (l : Lexer) : Nat :=
  l.feed.length + l.pending.toList.length

@[simp] theorem size_count (l : Lexer) (c : Char) : (l.count c).size = l.size := by
  unfold count
  split <;> rfl

theorem size_unread_le (l : Lexer) (c : Char) : (l.unread c).size ≤ l.size + 1 := by
  unfold unread uncount size
  split <;> simp

/-- A read that gives a character leaves fewer of them. -/
theorem size_read (l : Lexer) : l.read.2.size + l.read.1.toList.length ≤ l.size := by
  unfold read
  split
  · rename_i hpending
    rw [size_count]
    simp [size, hpending]
  · exact Nat.le_refl _
  · rename_i hpending hfeed
    simp [size, hpending, hfeed]
  · rename_i hpending hfeed
    rw [size_count]
    simp [size, hpending, hfeed]

theorem size_lt_of_read {l l' : Lexer} {c : Char} (h : l.read = (some c, l')) :
    l'.size < l.size := by
  have hsize := l.size_read
  rw [h] at hsize
  exact hsize

/-- Skips the characters of a run, and what gives nothing behind it. -/
def skipRun (inRun : Char → Bool) (l : Lexer) : Lexer :=
  match _h : l.read with
  | (none, l') => l'
  | (some c, l') => if inRun c then skipRun inRun l' else l'.unread c
termination_by l.size
decreasing_by exact size_lt_of_read _h

theorem size_skipRun_le (inRun : Char → Bool) (l : Lexer) : (l.skipRun inRun).size ≤ l.size := by
  fun_induction skipRun inRun l with
  | case1 l l' h =>
    have hsize := l.size_read
    rw [h] at hsize
    exact hsize
  | case2 l c l' h hrun ih => exact Nat.le_trans ih (Nat.le_of_lt (size_lt_of_read h))
  | case3 l c l' h hrun =>
    have hlt := size_lt_of_read h
    have hunread := l'.size_unread_le c
    omega

/-- Gives the end mark, directly behind the latest character. -/
def stop (l : Lexer) : Token × Lexer :=
  (.endOfText, { l with ended := true, mark := l.place.behind })

/-- Gives the next token. -/
def next (l : Lexer) : Token × Lexer :=
  if l.ended then l.stop
  else
    match _h : l.read with
    | (none, l') => l'.stop
    | (some c, l') =>
      match Token.ofChar? c with
      | some t => (t, { l' with mark := l'.place })
      | none =>
        if l.blank c then next (l'.skipRun l.blank)
        else if l.word c then next (l'.skipRun l.word)
        else next l'
termination_by l.size
decreasing_by
  · exact Nat.lt_of_le_of_lt (size_skipRun_le _ _) (size_lt_of_read _h)
  · exact Nat.lt_of_le_of_lt (size_skipRun_le _ _) (size_lt_of_read _h)
  · exact size_lt_of_read _h

/-- The lexer after so many tokens. -/
def after (l : Lexer) : Nat → Lexer
  | 0 => l
  | n + 1 => l.next.2.after n

end Lexer

end Brainfuck
