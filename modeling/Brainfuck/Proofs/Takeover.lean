import Brainfuck.Proofs.Balance
import Brainfuck.Proofs.Likeness
import Brainfuck.Proofs.Resumption

/-!
# Taking over a text

A text may be read by several parties, one after the other: tokens are drawn from it,
and emitters build from it and are given up.  Whoever takes it over does what it would
do with the rest of the text alone, apart from the places that it reports.

* `Source.exists_after_use`: every use of a source comes to some number of draws.
* `Reader.Between` says of a reader, also of one that has met the end, what is read of
  a text and what is to come.  `Between.next` is one draw, and `Between.after` any
  number of them.
* `TakesOver` is what there is to be said of a build in the middle of a text.
  `takesOver_build` proves it for every reader that stands there.
-/

namespace Brainfuck

/-! ## Uses of a source -/

/-- What may be done with a source before it is handed on. -/
inductive Source.Use where
  /-- A token is drawn. -/
  | next
  /-- All tokens up to the next end mark are drawn, and the end mark. -/
  | rest
  /-- A new emitter builds so many times, with any outcomes, and is given up. -/
  | builds (fold : Bool) (n : Nat)

namespace Source

/-- The source behind a use that was made of it. -/
def use (s : Source) : Use → Source
  | .next => s.next.2
  | .rest => s.drain.2
  | .builds fold n => (Emitter.after { source := s, fold } n).source

theorem exists_after_drain (s : Source) : ∃ k, s.drain.2 = s.after k := by
  induction s using drawing_induction with
  | stop s hend =>
    rw [drain_of_end hend]
    exact ⟨1, rfl⟩
  | draw s hend ih =>
    obtain ⟨k, hk⟩ := ih
    rw [drain_of_token hend]
    exact ⟨k + 1, hk⟩

/-- A use of a source comes to a number of draws. -/
theorem exists_after_use (s : Source) (u : Use) : ∃ k, s.use u = s.after k := by
  cases u with
  | next => exact ⟨1, rfl⟩
  | rest => exact s.exists_after_drain
  | builds fold n =>
    let a : Assembly := { source := s, fold }
    obtain ⟨k, hsource, -, -⟩ := a.exists_reaches n
    refine ⟨k, ?_⟩
    show (a.toEmitter.after n).source = _
    rw [Emitter.after_toEmitter]
    exact hsource

theorem exists_after_uses (s : Source) (uses : List Use) : ∃ k, uses.foldl use s = s.after k := by
  induction uses generalizing s with
  | nil => exact ⟨0, rfl⟩
  | cons u uses ih =>
    obtain ⟨j, hj⟩ := s.exists_after_use u
    obtain ⟨k, hk⟩ := ih (s.use u)
    rw [List.foldl_cons, hk, hj, ← after_add]
    exact ⟨j + k, rfl⟩

end Source

/-! ## Readers in a text -/

namespace Reader

/-- The reader has read `before`, and the text goes on with `rest`.  It may have met the
end of the text. -/
structure Between (r : Reader) (before rest : List Char) : Prop where
  consumed : r.consumed = String.ofList before
  stands : r.ended = false → r.Stands before rest
  rest_of_ended : r.ended = true → rest = []

variable {r : Reader} {before rest : List Char}

theorem Stands.between (h : r.Stands before rest) : r.Between before rest := by
  refine ⟨h.consumed, fun _ => h, ?_⟩
  intro hended
  rw [h.running] at hended
  cases hended

theorem between_of_ended (hconsumed : r.consumed = String.ofList before)
    (hended : r.ended = true) : r.Between before [] := by
  refine ⟨hconsumed, ?_, fun _ => rfl⟩
  intro hrunning
  rw [hended] at hrunning
  cases hrunning

/-- A reader that has met the end gives the end mark, and reads nothing. -/
theorem next_of_ended (h : r.ended = true) :
    r.next.1 = .endOfText ∧ r.next.2.consumed = r.consumed ∧ r.next.2.ended = true := by
  rw [next, if_pos h]
  exact ⟨rfl, rfl, rfl⟩

/-- A draw takes something from the rest of the text, or nothing. -/
theorem Stands.between_next (h : r.Stands before rest) :
    ∃ before' rest', before ++ rest = before' ++ rest' ∧ r.next.2.Between before' rest' := by
  -- One draw may pass over many characters, so the induction is on the rest and not on draws.
  induction rest generalizing r before with
  | nil =>
    obtain ⟨r', hnext, hended, hconsumed⟩ := h.next_of_nil
    rw [hnext]
    exact ⟨before, [], rfl, between_of_ended hconsumed hended⟩
  | cons c rest ih =>
    cases hc : Token.ofChar? c with
    | none =>
      obtain ⟨before', rest', hsplit, hbetween⟩ := ih h.pass
      rw [h.next_of_other hc]
      exact ⟨before', rest', by simpa using hsplit, hbetween⟩
    | some t =>
      obtain ⟨r', hnext, hr', -⟩ := h.next_of_symbol hc
      rw [hnext]
      exact ⟨before ++ [c], rest, by simp, hr'.between⟩

theorem Between.next (h : r.Between before rest) :
    ∃ before' rest', before ++ rest = before' ++ rest' ∧ r.next.2.Between before' rest' := by
  cases hended : r.ended with
  | false => exact (h.stands hended).between_next
  | true =>
    obtain ⟨-, hconsumed, hended'⟩ := next_of_ended hended
    obtain rfl := h.rest_of_ended hended
    exact ⟨before, [], rfl, between_of_ended (hconsumed.trans h.consumed) hended'⟩

theorem Between.after (h : r.Between before rest) (k : Nat) :
    ∃ before' rest', before ++ rest = before' ++ rest' ∧ (r.after k).Between before' rest' := by
  induction k generalizing r before rest with
  | zero => exact ⟨before, rest, rfl, h⟩
  | succ k ih =>
    obtain ⟨before₁, rest₁, hsplit₁, h₁⟩ := h.next
    obtain ⟨before₂, rest₂, hsplit₂, h₂⟩ := ih h₁
    exact ⟨before₂, rest₂, hsplit₁.trans hsplit₂, h₂⟩

/-- What is still given are the symbols of the rest. -/
theorem Between.map_drain (h : r.Between before rest) :
    (Source.text r).drain.1.map Prod.fst = Token.ofText rest := by
  cases hended : r.ended with
  | false => exact (h.stands hended).map_drain
  | true =>
    obtain rfl := h.rest_of_ended hended
    have hend : (Source.text r).next.1 = .endOfText := (next_of_ended hended).1
    rw [Source.drain_of_end hend]
    rfl

/-- At the end mark all of the text has been read. -/
theorem Between.consumed_drain (h : r.Between before rest) :
    (Source.text r).drain.2.consumed = String.ofList (before ++ rest) := by
  cases hended : r.ended with
  | false => exact (h.stands hended).consumed_drain
  | true =>
    obtain rfl := h.rest_of_ended hended
    obtain ⟨hend, hconsumed, -⟩ := next_of_ended hended
    have hsource : (Source.text r).next.1 = .endOfText := hend
    rw [Source.drain_of_end hsource, List.append_nil, ← h.consumed]
    exact hconsumed

/-- The next draw gives the first of the tokens that are still to come. -/
theorem Between.next_eq_head (h : r.Between before rest) :
    (Source.text r).next.1 = (Token.ofText rest).head?.getD .endOfText := by
  rw [← h.map_drain]
  by_cases hend : (Source.text r).next.1 = .endOfText
  · rw [Source.drain_of_end hend, hend]
    rfl
  · rw [Source.drain_of_token hend]
    rfl

end Reader

/-! ## Builds in the middle of a text -/

/-- What a build comes to when `before` is read of a text and `rest` is to come, and the
source behind it.  It gives the program of the rest or is refused as the rest is, but for
the bracket's place in the whole text; and it leaves the source directly behind what it
has used. -/
structure TakesOver (before rest : List Char) (fold : Bool)
    (outcome : Except LoopError Program) (behind : Source) : Prop where
  program : ∀ p, outcome = .ok p ↔ Program.ofText rest fold = .ok p
  consumed_all : ∀ p, outcome = .ok p → behind.consumed = String.ofList (before ++ rest)
  unterminated : ∀ e, Program.ofText rest fold = .error e → e.kind = .unterminated →
    ∃ mid after f, rest = mid ++ '[' :: after ∧ outcome = .error f ∧
      e.At .unterminated (.following mid) ∧ f.At .unterminated (.following (before ++ mid)) ∧
      e.Counts (Text.brackets.unclosed rest) ∧ f.Counts (Text.brackets.unclosed rest) ∧
      behind.consumed = String.ofList (before ++ rest)
  unbalanced : ∀ e, Program.ofText rest fold = .error e → e.kind = .unbalanced →
    ∃ mid after f, rest = mid ++ ']' :: after ∧ outcome = .error f ∧
      e.At .unbalanced (.following mid) ∧ f.At .unbalanced (.following (before ++ mid)) ∧
      behind.consumed = String.ofList (before ++ mid ++ [']']) ∧
      behind.next.1 = (Token.ofText after).head?.getD .endOfText ∧
      behind.drain.1.map Prod.fst = Token.ofText after

variable {r : Reader} {before rest : List Char}

/-- A reader that has something before it has not met the end. -/
theorem Reader.Between.stands_of_append_cons {mid after : List Char} {c : Char}
    (h : r.Between before (mid ++ c :: after)) : r.Stands before (mid ++ c :: after) := by
  cases hended : r.ended with
  | false => exact h.stands hended
  | true =>
    have hrest := h.rest_of_ended hended
    simp at hrest

/-- A build from a reader in the middle of a text takes over from there. -/
theorem takesOver_build (h : r.Between before rest) (fold : Bool) :
    let a : Assembly := { source := .text r, fold }
    TakesOver before rest fold a.build.1 a.build.2.source := by
  intro a
  -- The same build from the rest alone: only the tokens decide, and they are the same.
  let b : Assembly := { source := .text (.ofList rest), fold }
  have hmap : a.source.drain.1.map Prod.fst = Token.ofText rest := h.map_drain
  have halike : BuildsAlike a.build.1 (Program.ofText rest fold) :=
    Assembly.build_alike (a := a) (b := b) rfl (.refl {})
      (hmap.trans (Reader.stands_ofList rest).map_drain.symm)
  have hall (hstray : Text.brackets.NoStray rest) :
      a.build.2.source.consumed = String.ofList (before ++ rest) := by
    rw [a.source_build_of_noStray (hmap ▸ noStray_ofText.2 hstray)]
    exact h.consumed_drain
  refine ⟨fun p => halike.ok_iff p, ?_, ?_, ?_⟩
  · intro p hp
    have hbalanced := (Program.exists_ofText_iff rest fold).1 ⟨p, (halike.ok_iff p).1 hp⟩
    exact hall hbalanced.1
  · intro e he hkind
    obtain ⟨mid, after, -, -, -, rfl⟩ | ⟨mid, after, hsplit, hstray, hafter, rfl⟩ :=
      Program.ofText_error_cases he
    · cases hkind
    · have hconsumed := hall hstray
      subst hsplit
      have hbuild := h.stands_of_append_cons.build_of_leftOpen fold hstray hafter
      exact ⟨mid, after, _, rfl, hbuild, LoopError.at_leftOpen _ _ _, LoopError.at_leftOpen _ _ _,
        LoopError.counts_leftOpen _ _ _ _, LoopError.counts_leftOpen _ _ _ _, hconsumed⟩
  · intro e he hkind
    obtain ⟨mid, after, hsplit, hmid, hzero, rfl⟩ | ⟨mid, after, -, -, -, rfl⟩ :=
      Program.ofText_error_cases he
    · subst hsplit
      obtain ⟨hbuild, r', hsource, hr⟩ := h.stands_of_append_cons.build_of_stray fold hmid hzero
      rw [hsource]
      exact ⟨mid, after, _, rfl, hbuild, LoopError.at_stray _ _, LoopError.at_stray _ _,
        hr.consumed, hr.between.next_eq_head, hr.map_drain⟩
    · cases hkind

/-! ## The result -/

/-- An emitter takes over a text after any uses that were made of it, and no token is
lost on the way: none is put back in the lexer when it hands on a token, and none in the
emitter when its build has ended. -/
theorem takesOver_after_uses (text : List Char) (uses : List Source.Use) (fold : Bool) :
    let s := uses.foldl Source.use (.text (.ofList text))
    let e : Emitter := { source := s, fold }
    ∃ k before rest, text = before ++ rest ∧ s.consumed = String.ofList before ∧
      s = .text ((Lexer.ofList text).after k).toReader ∧
      ((Lexer.ofList text).after k).pending = none ∧
      e.build.2.ahead = none ∧ TakesOver before rest fold e.build.1 e.build.2.source := by
  intro s e
  obtain ⟨k, hk⟩ := Source.exists_after_uses (.text (.ofList text)) uses
  obtain ⟨before, rest, hsplit, hbetween⟩ := (Reader.stands_ofList text).between.after k
  have hstart : (Lexer.ofList text).toReader = Reader.ofList text := Lexer.toReader_of_feed _
  have hready : (Lexer.ofList text).Ready := Lexer.ready_of_feed _
  obtain ⟨hready, hreader⟩ := hready.after k
  rw [hstart] at hreader
  have hs : s = .text ((Reader.ofList text).after k) := hk.trans (Source.after_text _ k)
  have he : e = ({ source := s, fold } : Assembly).toEmitter := rfl
  refine ⟨k, before, rest, hsplit, ?_, ?_, hready.pending, ?_, ?_⟩
  · rw [hs]
    exact hbetween.consumed
  · rw [hs, hreader]
  · rw [he, Emitter.build_toEmitter]
    rfl
  · rw [he, Emitter.build_toEmitter, hs]
    exact takesOver_build hbetween fold

end Brainfuck
