import Brainfuck.Source.Basic
import Mathlib.Data.List.Induction

/-!
# Drawing the tokens of a source

`Source.drain` draws up to the next end mark.  Its rounds are only there so
that it comes to an end, and the first group of lemmas takes them away:
`drain_of_end` and `drain_of_token` say what one draw adds, and
`Source.drawing_induction` is the induction on the tokens that are to come.

The other two groups say what is drawn.  A list without end marks gives its
own tokens, which have no place.  A text gives the tokens of its symbols:
`Reader.Stands` says of a reader which part of a text is read and which part is
to come, `next_of_symbol`, `next_of_other` and `next_of_nil` carry it over the
next character, and `drain_append_cons` finds the draw that belongs to one
symbol of the text, with its place.  `Position.ofText_append_singleton_eq` says
what the place is in terms of the text before it.
-/

namespace Brainfuck

namespace Source

/-! ## The rounds of a drain -/

private theorem go_append (rounds : Nat) (drawn : List (Token × Source)) (s : Source) :
    drain.go rounds drawn s =
      (drawn.reverse ++ (drain.go rounds [] s).1, (drain.go rounds [] s).2) := by
  induction rounds generalizing drawn s with
  | zero => simp [drain.go]
  | succ rounds ih =>
    simp only [drain.go]
    split
    · simp
    · rw [ih (s.next :: drawn), ih [s.next]]
      simp

private theorem go_rounds {rounds rounds' : Nat} {s : Source} (h : s.size < rounds)
    (h' : s.size < rounds') : drain.go rounds [] s = drain.go rounds' [] s := by
  induction rounds generalizing rounds' s with
  | zero => omega
  | succ rounds ih =>
    obtain ⟨rounds', rfl⟩ : ∃ k, rounds' = k + 1 := ⟨rounds' - 1, by omega⟩
    simp only [drain.go]
    rcases s.next_endOfText_or_size_lt with hend | hlt
    · rw [if_pos hend, if_pos hend]
    · split
      · rfl
      · rw [go_append rounds, go_append rounds',
          ih (s := s.next.2) (by omega) (show s.next.2.size < rounds' by omega)]

theorem drain_of_end {s : Source} (h : s.next.1 = .endOfText) : s.drain = ([], s.next.2) := by
  simp [drain, drain.go, h]

theorem drain_of_token {s : Source} (h : s.next.1 ≠ .endOfText) :
    s.drain = (s.next :: s.next.2.drain.1, s.next.2.drain.2) := by
  have hlt : s.next.2.size < s.size := s.next_endOfText_or_size_lt.resolve_left h
  have hrest : drain.go s.size [] s.next.2 = s.next.2.drain :=
    go_rounds hlt (Nat.lt_succ_self _)
  rw [drain, drain.go]
  simp only [h, if_false]
  rw [go_append, hrest]
  simp

/-- What is drawn depends on the next draw only. -/
theorem drain_congr {s s' : Source} (h : s.next = s'.next) : s.drain = s'.drain := by
  by_cases hend : s.next.1 = .endOfText
  · have hend' : s'.next.1 = .endOfText := by rwa [h] at hend
    rw [drain_of_end hend, drain_of_end hend', h]
  · have hend' : s'.next.1 ≠ .endOfText := by rwa [h] at hend
    rw [drain_of_token hend, drain_of_token hend', h]

/-- Induction on the tokens before the next end mark. -/
theorem drawing_induction {motive : Source → Prop}
    (stop : ∀ s, s.next.1 = .endOfText → motive s)
    (draw : ∀ s, s.next.1 ≠ .endOfText → motive s.next.2 → motive s) (s : Source) : motive s := by
  induction hn : s.size using Nat.strongRecOn generalizing s with
  | ind n ih =>
    by_cases hend : s.next.1 = .endOfText
    · exact stop s hend
    · have hlt := s.next_endOfText_or_size_lt.resolve_left hend
      exact draw s hend (ih _ (by omega) _ rfl)

theorem ne_endOfText_of_mem_drain {s : Source} {x : Token × Source} (h : x ∈ s.drain.1) :
    x.1 ≠ .endOfText := by
  induction s using drawing_induction with
  | stop s hend =>
    rw [drain_of_end hend] at h
    cases h
  | draw s hend ih =>
    rw [drain_of_token hend] at h
    rcases List.mem_cons.1 h with rfl | h
    · exact hend
    · exact ih h

/-! ## Tokens of a list -/

theorem map_drain_tokens {ts : List Token} (h : .endOfText ∉ ts) :
    (tokens ts).drain.1.map Prod.fst = ts := by
  induction ts with
  | nil =>
    rw [drain_of_end rfl]
    rfl
  | cons t ts ih =>
    have ht : (tokens (t :: ts)).next.1 ≠ .endOfText := fun he => h (by simp [← he, next])
    rw [drain_of_token ht]
    simp [next, ih (fun hts => h (List.mem_cons_of_mem t hts))]

/-- The sources that a list leaves behind hold nothing but what is left of it. -/
theorem eq_tokens_of_drain_tokens (ts : List Token) :
    (∀ x ∈ (tokens ts).drain.1, ∃ us, x.2 = tokens us) ∧ ∃ us, (tokens ts).drain.2 = tokens us := by
  induction ts with
  | nil =>
    rw [drain_of_end rfl]
    exact ⟨fun _ hx => absurd hx List.not_mem_nil, [], rfl⟩
  | cons t ts ih =>
    by_cases ht : (tokens (t :: ts)).next.1 = .endOfText
    · rw [drain_of_end ht]
      exact ⟨fun _ hx => absurd hx List.not_mem_nil, ts, rfl⟩
    · rw [drain_of_token ht]
      refine ⟨?_, ih.2⟩
      intro x hx
      rcases List.mem_cons.1 hx with rfl | hx
      · exact ⟨ts, rfl⟩
      · exact ih.1 x hx

end Source

/-! ## Places in a text -/

/-- The place of a character behind this text, both numbers counted from one:
the line by the line feeds in the text, and the column by what stands behind
the last of them. -/
def Position.following (before : List Char) : Position where
  line := before.count '\n' + 1
  column := (before.reverse.takeWhile (· ≠ '\n')).length + 1

theorem Position.ofText_eq (text : List Char) :
    ofText text = ⟨text.count '\n' + 1, (text.reverse.takeWhile (· ≠ '\n')).length⟩ := by
  induction text using List.reverseRecOn with
  | nil => rfl
  | append_singleton text c ih =>
    rw [ofText_append_singleton, ih, advance]
    by_cases hc : c = '\n'
    · subst hc
      simp
    · rw [if_neg hc]
      simp [hc]

theorem Position.ofText_append_singleton_eq (before : List Char) {c : Char} (hc : c ≠ '\n') :
    ofText (before ++ [c]) = following before := by
  rw [ofText_append_singleton, ofText_eq, advance, if_neg hc]
  rfl

/-! ## Tokens of a text -/

/-- The tokens that a text spells, without what stands between its symbols. -/
def Token.ofText (text : List Char) : List Token :=
  text.filterMap Token.ofChar?

namespace Reader

/-- The reader has read `before`, the text goes on with `after`, and the end
has not been met. -/
structure Stands (r : Reader) (before after : List Char) : Prop where
  feed : r.feed = after.map some
  past : r.past = before.reverse
  place : r.place = .ofText before
  running : r.ended = false

theorem stands_ofList (text : List Char) : (ofList text).Stands [] text :=
  ⟨rfl, rfl, rfl, rfl⟩

theorem Stands.consumed {r : Reader} {before after : List Char} (h : r.Stands before after) :
    r.consumed = String.ofList before := by
  rw [Reader.consumed, h.past, List.reverse_reverse]

/-- The reader behind one more character, which gave no token. -/
def pass (r : Reader) (c : Char) : Reader :=
  { r.take c with feed := r.feed.tail }

theorem Stands.pass {r : Reader} {before after : List Char} {c : Char}
    (h : r.Stands before (c :: after)) : (r.pass c).Stands (before ++ [c]) after where
  feed := by simp [Reader.pass, h.feed]
  past := by simp [Reader.pass, take, h.past]
  place := by
    rw [Position.ofText_append_singleton, ← h.place]
    rfl
  running := h.running

/-- What is still to be read is handed to `seek` apart from the reader. -/
theorem seek_feed (r : Reader) (left : List (Option Char)) (b : Bool)
    (feed : List (Option Char)) :
    ({ r with feed := left } : Reader).seek b feed = r.seek b feed := by
  induction feed generalizing r b with
  | nil => rfl
  | cons x feed ih =>
    cases x with
    | none =>
      cases b with
      | false => rfl
      | true => exact ih r false
    | some c =>
      simp only [seek]
      split
      · rfl
      · exact ih (r.take c) (r.filler c)

/-- In a text every read gives a character, so it does not matter whether the
latest one was a filler. -/
private theorem seek_eq_false (r : Reader) (b : Bool) (cs : List Char) :
    r.seek b (cs.map some) = r.seek false (cs.map some) := by
  cases cs <;> rfl

theorem Stands.next_of_symbol {r : Reader} {before after : List Char} {c : Char} {t : Token}
    (h : r.Stands before (c :: after)) (ht : Token.ofChar? c = some t) :
    ∃ r', r.next = (t, r') ∧ r'.Stands (before ++ [c]) after ∧
      r'.mark = .ofText (before ++ [c]) := by
  have hplace : (r.take c).place = .ofText (before ++ [c]) := by
    rw [Position.ofText_append_singleton, ← h.place]
    rfl
  refine ⟨{ r.take c with feed := after.map some, mark := (r.take c).place }, ?_, ?_, hplace⟩
  · simp [next, h.running, h.feed, seek, ht, give]
  · exact ⟨rfl, by simp [take, h.past], hplace, h.running⟩

theorem Stands.next_of_other {r : Reader} {before after : List Char} {c : Char}
    (h : r.Stands before (c :: after)) (hc : Token.ofChar? c = none) :
    r.next = (r.pass c).next := by
  have hrunning : (r.pass c).ended = false := h.running
  have hfeed : (r.pass c).feed = after.map some := h.pass.feed
  rw [next, next, h.running, hrunning, h.feed, hfeed]
  simp only [Bool.false_eq_true, if_false, List.map_cons, seek, hc]
  rw [seek_eq_false]
  exact (seek_feed (r.take c) _ _ _).symm

theorem Stands.next_of_nil {r : Reader} {before : List Char} (h : r.Stands before []) :
    ∃ r', r.next = (.endOfText, r') ∧ r'.ended = true ∧ r'.consumed = String.ofList before := by
  refine ⟨{ r with feed := [], ended := true, mark := r.place.behind }, ?_, rfl, ?_⟩
  · simp [next, h.running, h.feed, seek, stop]
  · exact h.consumed

private theorem drain_pass {r : Reader} {before after : List Char} {c : Char}
    (h : r.Stands before (c :: after)) (hc : Token.ofChar? c = none) :
    (Source.text r).drain = (Source.text (r.pass c)).drain := by
  apply Source.drain_congr
  simp only [Source.next]
  rw [h.next_of_other hc]

private theorem drain_symbol {r r' : Reader} {c : Char} {t : Token}
    (ht : Token.ofChar? c = some t) (hnext : r.next = (t, r')) :
    (Source.text r).drain =
      ((t, .text r') :: (Source.text r').drain.1, (Source.text r').drain.2) := by
  have hs : (Source.text r).next = (t, .text r') := by rw [Source.next, hnext]
  have hend : (Source.text r).next.1 ≠ .endOfText := by
    rw [hs]
    rintro rfl
    exact Token.ofChar?_ne_endOfText c ht
  rw [Source.drain_of_token hend, hs]

/-- A text gives the tokens of its symbols. -/
theorem Stands.map_drain {r : Reader} {before after : List Char} (h : r.Stands before after) :
    (Source.text r).drain.1.map Prod.fst = Token.ofText after := by
  induction after generalizing r before with
  | nil =>
    rcases h.next_of_nil with ⟨r', hnext, -, -⟩
    rw [Source.drain_of_end (by rw [Source.next, hnext])]
    rfl
  | cons c after ih =>
    cases hc : Token.ofChar? c with
    | none =>
      rw [drain_pass h hc, ih h.pass, Token.ofText, Token.ofText, List.filterMap_cons_none hc]
    | some t =>
      rcases h.next_of_symbol hc with ⟨r', hnext, hr', -⟩
      rw [drain_symbol hc hnext, Token.ofText, List.filterMap_cons_some hc, List.map_cons, ih hr']
      rfl

/-- When the end of a text has been met, all of it has been read. -/
theorem Stands.consumed_drain {r : Reader} {before after : List Char} (h : r.Stands before after) :
    (Source.text r).drain.2.consumed = String.ofList (before ++ after) := by
  induction after generalizing r before with
  | nil =>
    rcases h.next_of_nil with ⟨r', hnext, -, hconsumed⟩
    rw [Source.drain_of_end (by rw [Source.next, hnext])]
    simp only [Source.next, hnext, Source.consumed, hconsumed, List.append_nil]
  | cons c after ih =>
    have hsplit : before ++ c :: after = before ++ [c] ++ after := by simp
    cases hc : Token.ofChar? c with
    | none => rw [drain_pass h hc, ih h.pass, hsplit]
    | some t =>
      rcases h.next_of_symbol hc with ⟨r', hnext, hr', -⟩
      rw [drain_symbol hc hnext, hsplit]
      exact ih hr'

/-- The draw that belongs to one symbol of a text.  The draws before and behind
it are those of the text before and behind the symbol. -/
theorem Stands.drain_append_cons {r : Reader} {before mid after : List Char} {c : Char} {t : Token}
    (h : r.Stands before (mid ++ c :: after)) (ht : Token.ofChar? c = some t) :
    ∃ front r' rear, (Source.text r).drain.1 = front ++ (t, .text r') :: rear ∧
      front.map Prod.fst = Token.ofText mid ∧ rear.map Prod.fst = Token.ofText after ∧
      r'.Stands (before ++ mid ++ [c]) after ∧ r'.mark = .ofText (before ++ mid ++ [c]) := by
  induction mid generalizing r before with
  | nil =>
    rcases h.next_of_symbol ht with ⟨r', hnext, hr', hmark⟩
    refine ⟨[], r', (Source.text r').drain.1, ?_, rfl, hr'.map_drain, ?_, ?_⟩
    · rw [drain_symbol ht hnext]
      rfl
    · simpa using hr'
    · simpa using hmark
  | cons x mid ih =>
    cases hx : Token.ofChar? x with
    | none =>
      rcases ih (Stands.pass h) with ⟨front, r', rear, hdrain, hfront, hrear, hr', hmark⟩
      refine ⟨front, r', rear, ?_, ?_, hrear, by simpa using hr', by simpa using hmark⟩
      · rw [drain_pass h hx, hdrain]
      · rw [hfront, Token.ofText, Token.ofText, List.filterMap_cons_none hx]
    | some u =>
      rcases Stands.next_of_symbol h hx with ⟨r₁, hnext, hr₁, -⟩
      rcases ih hr₁ with ⟨front, r', rear, hdrain, hfront, hrear, hr', hmark⟩
      refine ⟨(u, .text r₁) :: front, r', rear, ?_, ?_, hrear, by simpa using hr',
        by simpa using hmark⟩
      · rw [drain_symbol hx hnext, hdrain]
        rfl
      · rw [List.map_cons, hfront, Token.ofText, Token.ofText, List.filterMap_cons_some hx]

end Reader

end Brainfuck
