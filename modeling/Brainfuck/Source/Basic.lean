import Brainfuck.Source.Reader

/-!
# Sources of tokens

A program is built from tokens that come one at a time, either out of a text or
out of a list.  A list has no text behind it, so its tokens have no place; when
it is used up it gives the end mark.  A list may itself hold end marks.

`Source.size` bounds the number of tokens before the next end mark
(`next_endOfText_or_size_lt`), so building always comes to an end.
-/

namespace Brainfuck

/-- Where tokens come from. -/
inductive Source where
  /-- A text that is being read. -/
  | text (r : Reader)
  /-- The tokens that are left of a list. -/
  | tokens (ts : List Token)

namespace Source

/-- Gives the next token. -/
def next : Source → Token × Source
  | text r =>
    let drawn := r.next
    (drawn.1, text drawn.2)
  | tokens [] => (.endOfText, tokens [])
  | tokens (t :: ts) => (t, tokens ts)

/-- The place of the token that was given last. -/
def mark : Source → Position
  | text r => r.mark
  | tokens _ => .unknown

/-- The text behind the tokens given so far. -/
def consumed : Source → String
  | text r => r.consumed
  | tokens _ => ""

/-- How many tokens can come before the next end mark, at most. -/
def size : Source → Nat
  | text r => if r.ended then 0 else r.feed.length
  | tokens ts => ts.length

/-- The tokens up to the next end mark, each with the source as it is after it,
and the source after the end mark. -/
def drain (s : Source) : List (Token × Source) × Source :=
  go (s.size + 1) [] s
where
  /-- Draws at most so many tokens; `drawn` holds those before, latest first. -/
  go : Nat → List (Token × Source) → Source → List (Token × Source) × Source
    | 0, drawn, s => (drawn.reverse, s)
    | rounds + 1, drawn, s =>
      let latest := s.next
      if latest.1 = .endOfText then (drawn.reverse, latest.2)
      else go rounds (latest :: drawn) latest.2

end Source

theorem Reader.seek_endOfText_or_length_lt (r : Reader) (b : Bool) (feed : List (Option Char)) :
    (r.seek b feed).1 = .endOfText ∧ (r.seek b feed).2.ended = true ∨
      (r.seek b feed).2.ended = r.ended ∧ (r.seek b feed).2.feed.length < feed.length := by
  induction feed generalizing r b with
  | nil => exact Or.inl ⟨rfl, rfl⟩
  | cons x feed ih =>
    cases x with
    | none =>
      simp only [seek]
      split
      · rcases ih r false with h | h
        · exact Or.inl h
        · exact Or.inr ⟨h.1, Nat.lt_succ_of_lt h.2⟩
      · exact Or.inl ⟨rfl, rfl⟩
    | some c =>
      simp only [seek]
      split
      · exact Or.inr ⟨rfl, by simp [give]⟩
      · rcases ih (r.take c) (r.filler c) with h | h
        · exact Or.inl h
        · exact Or.inr ⟨h.1, Nat.lt_succ_of_lt h.2⟩

/-- A token other than the end mark leaves fewer tokens to come. -/
theorem Source.next_endOfText_or_size_lt (s : Source) :
    s.next.1 = .endOfText ∨ s.next.2.size < s.size := by
  cases s with
  | text r =>
    simp only [next, size, Reader.next]
    split
    · exact Or.inl rfl
    · rename_i hended
      rcases r.seek_endOfText_or_length_lt false r.feed with h | h
      · exact Or.inl h.1
      · exact Or.inr (by simpa [h.1, hended] using h.2)
  | tokens ts =>
    cases ts with
    | nil => exact Or.inl rfl
    | cons t ts => exact Or.inr (by simp [next, size])

/-- The end mark does not bring more tokens either. -/
theorem Source.size_next_le (s : Source) : s.next.2.size ≤ s.size := by
  cases s with
  | text r =>
    simp only [next, size, Reader.next]
    split
    · simp [Reader.stop]
    · rename_i hended
      rcases r.seek_endOfText_or_length_lt false r.feed with h | h
      · simp [h.2]
      · simpa [h.1, hended] using Nat.le_of_lt h.2
  | tokens ts =>
    cases ts with
    | nil => exact Nat.le_refl _
    | cons t ts => exact Nat.le_succ _

end Brainfuck
