import Mathlib.Data.List.ReduceOption
import Brainfuck.Proofs.Lexing

/-!
# Reads that give nothing

A stream may give nothing although there is more to come.  Directly behind a filler
character such a read is passed over; anywhere else it is taken for the end of the text,
and nothing is read any more.  So what is seen of a stream is what would be seen of the
text in front of its end.

* `Script.EndsAt` says at which read the text ends, in terms of what the reads give.
* `Lexer.ComesTo` are the states on the way of a lexer, also in the middle of a draw, and
  `Lexer.HasRead` says that such a state accounts for every read made so far.
  `HasRead.read` is the only step that takes anything from the stream.
* `Reader.SeesUpTo` is what is seen of a stream, and `Reader.exists_seesUpTo` the induction
  on what is left of it.
* `Lexer.seen_of_ended`: behind the end there is one answer, whatever the stream has left.
-/

namespace Brainfuck

/-! ## Where the text ends -/

namespace Script

/-- What the read with this number gives, counted from zero.  Behind the script every
read gives nothing. -/
def given (script : List (Option Char)) (i : Nat) : Option Char :=
  script[i]?.join

/-- Whether the read before the one with this number gave a filler character.  For the
first one, `b` says so. -/
def behindFiller (filler : Char → Bool) (b : Bool) (script : List (Option Char)) : Nat → Bool
  | 0 => b
  | i + 1 => (given script i).any filler

/-- The read gives nothing, and is not passed over. -/
def StopsAt (filler : Char → Bool) (b : Bool) (script : List (Option Char)) (i : Nat) : Prop :=
  given script i = none ∧ behindFiller filler b script i = false

/-- The text ends at the first read that gives nothing and is not passed over. -/
structure EndsAt (filler : Char → Bool) (b : Bool) (script : List (Option Char)) (n : Nat) :
    Prop where
  stops : StopsAt filler b script n
  first : ∀ i < n, ¬ StopsAt filler b script i

variable {filler : Char → Bool} {b : Bool} {script : List (Option Char)} {n : Nat}

/-- A text ends at one read only. -/
theorem EndsAt.unique {n' : Nat} (h : EndsAt filler b script n) (h' : EndsAt filler b script n') :
    n = n' := by
  rcases Nat.lt_trichotomy n n' with hlt | heq | hlt
  · exact absurd h.stops (h'.first n hlt)
  · exact heq
  · exact absurd h'.stops (h.first n' hlt)

theorem stopsAt_cons (x : Option Char) (i : Nat) :
    StopsAt filler b (x :: script) (i + 1) ↔ StopsAt filler (x.any filler) script i := by
  cases i with
  | zero => exact Iff.rfl
  | succ i => exact Iff.rfl

theorem EndsAt.cons {x : Option Char} (h : EndsAt filler (x.any filler) script n)
    (hx : ¬ StopsAt filler b (x :: script) 0) : EndsAt filler b (x :: script) (n + 1) := by
  refine ⟨(stopsAt_cons x n).2 h.stops, ?_⟩
  intro i hi hstops
  cases i with
  | zero => exact hx hstops
  | succ i => exact h.first i (by omega) ((stopsAt_cons x i).1 hstops)

/-- A read that gives nothing adds nothing to the text. -/
theorem reduceOption_take_succ (h : given script n = none) :
    (script.take (n + 1)).reduceOption = (script.take n).reduceOption := by
  unfold given at h
  rw [List.take_add_one, List.reduceOption_append]
  cases hget : script[n]? with
  | none => simp
  | some x =>
    rw [hget] at h
    cases x with
    | none => simp
    | some c => cases h

theorem endsAt_zero (h : given script 0 = none) : EndsAt filler false script 0 :=
  ⟨⟨h, rfl⟩, fun i hi => absurd hi (Nat.not_lt_zero i)⟩

end Script

/-! ## What has been read -/

namespace Lexer

/-- The states on the way of a lexer that draws tokens.  It reads, puts characters back,
and notes the end of the text and the place of a token. -/
inductive ComesTo (l : Lexer) : Lexer → Prop
  | start : ComesTo l l
  | read {k : Lexer} : ComesTo l k → ComesTo l k.read.2
  | unread {k : Lexer} (c : Char) : ComesTo l k → ComesTo l (k.unread c)
  | note {k : Lexer} (ended : Bool) (mark : Position) :
    ComesTo l k → ComesTo l { k with ended, mark }

/-- So many reads of the script have been made, and the text read so far is what they
gave, in order. -/
structure HasRead (script : List (Option Char)) (i : Nat) (l : Lexer) : Prop where
  feed : l.feed = script.drop i
  consumed : l.consumed = String.ofList (script.take i).reduceOption

variable {l k : Lexer} {script : List (Option Char)} {i : Nat}

theorem ComesTo.of_read {x : Option Char} {k' : Lexer} (h : l.ComesTo k)
    (hread : k.read = (x, k')) : l.ComesTo k' := by
  have hk := h.read
  rwa [hread] at hk

theorem ComesTo.skipRun (h : l.ComesTo k) (inRun : Char → Bool) : l.ComesTo (k.skipRun inRun) := by
  fun_induction Lexer.skipRun inRun k with
  | case1 k k' hread => exact h.of_read hread
  | case2 k c k' hread hin ih => exact ih (h.of_read hread)
  | case3 k c k' hread hin => exact (h.of_read hread).unread c

theorem ComesTo.next (h : l.ComesTo k) : l.ComesTo k.next.2 := by
  fun_induction Lexer.next k with
  | case1 k hended => exact h.note true k.place.behind
  | case2 k hrunning k' hread => exact (h.of_read hread).note true k'.place.behind
  | case3 k hrunning c k' hread t ht => exact (h.of_read hread).note k'.ended k'.place
  | case4 k hrunning c k' hread ht hblank ih => exact ih ((h.of_read hread).skipRun k.blank)
  | case5 k hrunning c k' hread ht hblank hword ih => exact ih ((h.of_read hread).skipRun k.word)
  | case6 k hrunning c k' hread ht hblank hword ih => exact ih (h.of_read hread)

theorem ComesTo.after (h : l.ComesTo k) (n : Nat) : l.ComesTo (k.after n) := by
  induction n generalizing k with
  | zero => exact h
  | succ n ih => exact ih h.next

theorem HasRead.count (h : l.HasRead script i) (c : Char) : (l.count c).HasRead script i := by
  unfold Lexer.count
  split
  · exact ⟨h.feed, h.consumed⟩
  · exact ⟨h.feed, h.consumed⟩

theorem HasRead.unread (h : l.HasRead script i) (c : Char) : (l.unread c).HasRead script i := by
  unfold Lexer.unread uncount
  split
  · exact ⟨h.feed, h.consumed⟩
  · exact ⟨h.feed, h.consumed⟩

/-- One more read, if the stream gives `x`. -/
theorem HasRead.succ {x : Option Char} {feed : List (Option Char)} (h : l.HasRead script i)
    (hfeed : l.feed = x :: feed) :
    ({ l with feed, past := x.toList ++ l.past } : Lexer).HasRead script (i + 1) := by
  have hdrop : script.drop i = x :: feed := h.feed.symm.trans hfeed
  have hx : script[i]? = some x := by
    rw [← List.head?_drop, hdrop]
    rfl
  have hpast : l.past.reverse = (script.take i).reduceOption := String.ofList_injective h.consumed
  constructor
  · show feed = script.drop (i + 1)
    rw [← List.tail_drop, hdrop]
    rfl
  · show String.ofList (x.toList ++ l.past).reverse = _
    rw [List.take_add_one, hx, List.reverse_append, hpast, List.reduceOption_append]
    cases x with
    | none => rfl
    | some c => rfl

/-- A read takes the next part of the stream, unless it gives the character that was put
back or the stream is used up. -/
theorem HasRead.read (h : l.HasRead script i) : ∃ j, l.read.2.HasRead script j := by
  unfold Lexer.read
  split
  · exact ⟨i, HasRead.count (l := { l with pending := none }) ⟨h.feed, h.consumed⟩ _⟩
  · exact ⟨i, h⟩
  · exact ⟨i + 1, h.succ ‹_›⟩
  · exact ⟨i + 1, (h.succ ‹_›).count _⟩

theorem hasRead_start (script : List (Option Char)) :
    ({ feed := script } : Lexer).HasRead script 0 :=
  ⟨rfl, rfl⟩

/-- Every state on the way accounts for what has been read. -/
theorem ComesTo.exists_hasRead (h : l.ComesTo k) (hl : l.HasRead script i) :
    ∃ j, k.HasRead script j := by
  induction h with
  | start => exact ⟨i, hl⟩
  | read _ ih =>
    obtain ⟨j, hj⟩ := ih
    exact hj.read
  | unread c _ ih =>
    obtain ⟨j, hj⟩ := ih
    exact ⟨j, hj.unread c⟩
  | note ended mark _ ih =>
    obtain ⟨j, hj⟩ := ih
    exact ⟨j, hj.feed, hj.consumed⟩

/-! ## Behind the end -/

theorem after_of_ended (h : l.ended = true) (n : Nat) : ∃ mark, l.after n = { l with mark } := by
  induction n generalizing l with
  | zero => exact ⟨l.mark, rfl⟩
  | succ n ih =>
    obtain ⟨mark, hmark⟩ := ih (l := l.stop.2) rfl
    refine ⟨mark, ?_⟩
    rw [after, next_of_ended h, hmark, stop, ← h]

/-- A lexer that has met the end gives the same answer for ever, and leaves the stream
where it is. -/
theorem seen_of_ended (h : l.ended = true) (n : Nat) :
    (l.after n).seen = (.endOfText, l.place.behind, l.consumed) ∧ (l.after n).feed = l.feed := by
  obtain ⟨mark, hmark⟩ := after_of_ended h n
  rw [hmark]
  have hended : ({ l with mark } : Lexer).ended = true := h
  constructor
  · unfold Lexer.seen
    rw [next_of_ended hended]
    rfl
  · rfl

end Lexer

/-! ## What is seen of a stream -/

namespace Reader

/-- Of a stream that has given `before`, the reader sees the text `rest`, one by one and
then its end.  At the end it leaves `left` in the stream. -/
structure SeesUpTo (r : Reader) (before rest : List Char) (left : List (Option Char)) : Prop
    extends r.Sees before rest where
  ended : ∀ j, (Text.symbolIndices rest).length < j → (r.after j).ended = true
  left : ∀ j, (Text.symbolIndices rest).length < j → (r.after j).feed = left

variable {r r₀ : Reader} {before rest : List Char} {left : List (Option Char)} {b : Bool}

/-- What comes behind an end that has been met. -/
theorem after_of_ended (h : r.ended = true) (n : Nat) :
    (r.after n).ended = true ∧ (r.after n).feed = r.feed := by
  induction n generalizing r with
  | zero => exact ⟨h, rfl⟩
  | succ n ih =>
    have hnext : r.next = r.stop r.feed := if_pos h
    rw [after, hnext]
    exact ih rfl

/-- The reader has taken this part of the text and not met the end. -/
structure HasTaken (r : Reader) (before : List Char) : Prop where
  past : r.past = before.reverse
  place : r.place = .ofText before
  running : r.ended = false

theorem HasTaken.take (h : r.HasTaken before) (c : Char) : (r.take c).HasTaken (before ++ [c]) where
  past := by simp [Reader.take, h.past]
  place := by
    rw [Position.ofText_append_singleton, ← h.place]
    rfl
  running := h.running

theorem HasTaken.consumed (h : r.HasTaken before) : r.consumed = String.ofList before := by
  rw [Reader.consumed, h.past, List.reverse_reverse]

theorem seesUpTo_of_stop (h : r₀.HasTaken before) (hnext : r.next = r₀.stop left) :
    r.SeesUpTo before [] left := by
  have hplace : r₀.place.behind = .following before := by
    rw [h.place, Position.ofText_eq]
    rfl
  have hseen (j : Nat) : (r.after j).seen =
      (.endOfText, .following before, String.ofList before) := by
    rw [← hplace, ← h.consumed]
    cases j with
    | zero =>
      unfold after seen
      rw [hnext]
      rfl
    | succ j =>
      rw [after, hnext]
      exact seen_of_ended rfl j
  refine ⟨⟨?_, ?_⟩, ?_, ?_⟩
  · intro j p hp
    simp [Text.symbolIndices] at hp
  · intro j _
    rw [List.append_nil]
    exact hseen j
  all_goals
    intro j hj
    obtain ⟨k, rfl⟩ := Nat.exists_eq_add_of_lt hj
    rw [after, hnext]
  · exact (after_of_ended rfl _).1
  · exact (after_of_ended rfl _).2

/-- A character that is no symbol is passed over. -/
theorem SeesUpTo.pass {c : Char} (h : r.SeesUpTo (before ++ [c]) rest left)
    (hc : Token.ofChar? c = none) : r.SeesUpTo before (c :: rest) left := by
  have hindices := Text.symbolIndices_cons c rest
  rw [hc, Option.isSome_none, if_neg (by simp), List.nil_append] at hindices
  refine ⟨h.toSees.pass hc fun _ => rfl, ?_, ?_⟩
  · intro j hj
    rw [hindices, List.length_map] at hj
    exact h.ended j hj
  · intro j hj
    rw [hindices, List.length_map] at hj
    exact h.left j hj

/-- A symbol takes one draw. -/
theorem SeesUpTo.symbol_cons {c : Char} {t : Token} (h : r₀.SeesUpTo (before ++ [c]) rest left)
    (hc : Token.ofChar? c = some t)
    (hseen : r.seen = (t, .following before, String.ofList (before ++ [c])))
    (hlater : r.next.2 = r₀) : r.SeesUpTo before (c :: rest) left := by
  have hafter (j : Nat) : r.after (j + 1) = r₀.after j := by rw [after, hlater]
  have hindices := Text.symbolIndices_cons c rest
  rw [hc, Option.isSome_some, if_pos rfl, List.singleton_append] at hindices
  refine ⟨h.toSees.symbol_cons hc hseen hafter, ?_, ?_⟩
  all_goals
    intro j hj
    rw [hindices, List.length_cons, List.length_map] at hj
    obtain ⟨k, rfl⟩ := Nat.exists_eq_add_of_lt hj
    rw [hafter]
  · exact h.ended _ (by omega)
  · exact h.left _ (by omega)

/-- What is seen of a stream.  The reader `r` goes on as `r₀` does, which has taken `before`
and has the script in front of it; `b` says whether the read before gave a filler
character. -/
theorem exists_seesUpTo (script : List (Option Char)) (h : r₀.HasTaken before)
    (hfiller : ∀ c t, Token.ofChar? c = some t → r₀.filler c = false)
    (hnext : r.next = r₀.seek b script) :
    ∃ n, Script.EndsAt r₀.filler b script n ∧
      r.SeesUpTo before (script.take n).reduceOption (script.drop (n + 1)) := by
  induction script generalizing r r₀ before b with
  | nil =>
    cases b with
    | false => exact ⟨0, Script.endsAt_zero rfl, seesUpTo_of_stop h hnext⟩
    | true =>
      refine ⟨1, ⟨⟨rfl, rfl⟩, ?_⟩, seesUpTo_of_stop h hnext⟩
      intro i hi hstops
      obtain rfl : i = 0 := by omega
      cases hstops.2
  | cons x script ih =>
    cases x with
    | none =>
      cases b with
      | false => exact ⟨0, Script.endsAt_zero rfl, seesUpTo_of_stop h hnext⟩
      | true =>
        obtain ⟨n, hn, hsees⟩ := ih (b := false) h hfiller hnext
        exact ⟨n + 1, hn.cons (fun hstops => Bool.noConfusion hstops.2), hsees⟩
    | some c =>
      have hstart : ¬ Script.StopsAt r₀.filler b (some c :: script) 0 := by
        intro hstops
        cases hstops.1
      rw [seek] at hnext
      cases hc : Token.ofChar? c with
      | none =>
        simp only [hc] at hnext
        obtain ⟨n, hn, hsees⟩ := ih (h.take c) hfiller hnext
        refine ⟨n + 1, hn.cons hstart, ?_⟩
        rw [List.take_succ_cons, List.reduceOption_cons_of_some]
        exact hsees.pass hc
      | some t =>
        simp only [hc] at hnext
        let r₁ : Reader := { r₀.take c with feed := script, mark := (r₀.take c).place }
        have hnext₁ : r.next = (t, r₁) := hnext
        have htaken : r₁.HasTaken (before ++ [c]) :=
          ⟨(h.take c).past, (h.take c).place, (h.take c).running⟩
        have hrest : r₁.next = r₁.seek false script := if_neg (by simp [htaken.running])
        obtain ⟨n, hn, hsees⟩ := ih htaken hfiller hrest
        have hpast : (some c).any r₀.filler = false := hfiller c t hc
        refine ⟨n + 1, Script.EndsAt.cons (hpast ▸ hn) hstart, ?_⟩
        rw [List.take_succ_cons, List.reduceOption_cons_of_some]
        apply hsees.symbol_cons hc
        · have hline : c ≠ '\n' := by
            rintro rfl
            cases hc
          have hmark : r₁.mark = .following before :=
            (h.take c).place.trans (Position.ofText_append_singleton_eq before hline)
          unfold seen
          rw [hnext₁, hmark, htaken.consumed]
        · rw [hnext₁]

end Reader

/-! ## The result -/

/-- What is read of a stream that gives a script, and nothing behind it.  The text ends
at the first read that gives nothing and does not follow a filler character.  What is
seen is what is seen of the characters in front of that; and wherever the lexer is on
its way, the text read so far is what the reads have given, each of them once.  Behind
the end mark it gives the end mark at the same place for ever, and makes no further
read, whatever the stream would still give. -/
theorem reads_up_to_stop (script : List (Option Char)) :
    let l : Lexer := { feed := script }
    ∃ n, Script.EndsAt Text.isFiller false script n ∧
      let text := (script.take n).reduceOption
      (Text.ReadExactly text (fun j => (l.after j).seen) ∧
        Text.ReadExactly text fun j => (({ feed := script } : Reader).after j).seen) ∧
      ((∀ k, l.ComesTo k → ∃ i, k.HasRead script i) ∧ ∀ j, l.ComesTo (l.after j)) ∧
      ∀ j, (Text.symbolIndices text).length < j →
        (l.after j).HasRead script (n + 1) ∧
        ∀ feed i, ({ l.after j with feed }.after i).seen =
            (.endOfText, .following text, String.ofList text) ∧
          ({ l.after j with feed }.after i).feed = feed := by
  intro l
  have hready : l.Ready := Lexer.ready_of_feed script
  have hreader : l.toReader = { feed := script } := Lexer.toReader_of_feed script
  have htaken : ({ feed := script } : Reader).HasTaken [] := ⟨rfl, rfl, rfl⟩
  have hnext : ({ feed := script } : Reader).next =
    ({ feed := script } : Reader).seek false script := rfl
  obtain ⟨n, hn, hsees⟩ := Reader.exists_seesUpTo script htaken
    (fun _ _ hc => Text.isFiller_of_symbol hc) hnext
  have hseen (j : Nat) : (l.after j).seen = (({ feed := script } : Reader).after j).seen := by
    obtain ⟨hj, htogether⟩ := hready.after j
    rw [hj.seen, htogether, hreader]
  have hexact : Text.ReadExactly (script.take n).reduceOption fun j =>
      (({ feed := script } : Reader).after j).seen := by
    obtain ⟨hsymbol, hstop⟩ := hsees.toSees
    simp only [List.nil_append] at hsymbol hstop
    exact ⟨hsymbol, hstop⟩
  simp only [hseen]
  refine ⟨n, hn, ⟨hexact, hexact⟩, ⟨?_, ?_⟩, ?_⟩
  · intro k hk
    exact hk.exists_hasRead (Lexer.hasRead_start script)
  · intro j
    exact Lexer.ComesTo.start.after j
  intro j hj
  have htogether := (hready.after j).2
  rw [hreader] at htogether
  have hended : (l.after j).ended = true := by
    show (l.after j).toReader.ended = true
    rw [htogether]
    exact hsees.ended j hj
  have hleft : (l.after j).feed = script.drop (n + 1) := by
    show (l.after j).toReader.feed = _
    rw [htogether]
    exact hsees.left j hj
  -- What is seen at the end tells where the lexer stands and what it has read.
  have hanswer : (Token.endOfText, (l.after j).place.behind, (l.after j).consumed) =
      (.endOfText, .following (script.take n).reduceOption,
        String.ofList (script.take n).reduceOption) :=
    ((Lexer.seen_of_ended hended 0).1.symm.trans (hseen j)).trans (hexact.stop j (by omega))
  simp only [Prod.mk.injEq, true_and] at hanswer
  obtain ⟨hplace, hconsumed⟩ := hanswer
  refine ⟨⟨hleft, ?_⟩, ?_⟩
  · rw [hconsumed, Script.reduceOption_take_succ hn.stops.1]
  intro feed i
  have hended' : ({ l.after j with feed } : Lexer).ended = true := hended
  obtain ⟨hseen', hfeed⟩ := Lexer.seen_of_ended hended' i
  rw [hseen', hfeed, ← hplace, ← hconsumed]
  exact ⟨rfl, rfl⟩

/-- The read behind a comment that gives nothing is passed over, the one behind a symbol
is the end.  Another symbol comes too late, whatever else the stream would give. -/
theorem reads_up_to_stop_in_comment :
    let script := [some 'a', none, some '+', none, some '-']
    let l : Lexer := { feed := script }
    Script.EndsAt Text.isFiller false script 3 ∧
      (Text.symbolIndices ['a', '+']).length < 2 ∧
      (l.after 2).HasRead script 4 ∧
      ∀ feed i, ({ l.after 2 with feed }.after i).seen = (.endOfText, .following ['a', '+'], "a+") ∧
        ({ l.after 2 with feed }.after i).feed = feed := by
  intro script l
  have hend : Script.EndsAt Text.isFiller false script 3 := by
    refine ⟨⟨rfl, by decide⟩, ?_⟩
    intro i hi hstops
    match i with
    | 0 => cases hstops.1
    | 1 => exact absurd hstops.2 (by decide)
    | 2 => cases hstops.1
  have hdrawn : (Text.symbolIndices ['a', '+']).length < 2 := by decide
  obtain ⟨n, hn, -, -, hbehind⟩ := reads_up_to_stop script
  obtain rfl : n = 3 := hn.unique hend
  obtain ⟨hread, hlater⟩ := hbehind 2 hdrawn
  exact ⟨hend, hdrawn, hread, hlater⟩

end Brainfuck
