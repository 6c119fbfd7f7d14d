import Brainfuck.Proofs.Drawing
import Brainfuck.Source.Lexer

/-!
# Reading is exact

What is seen of a text while its tokens are drawn: each token with its place and
with the text that has been read by then.  `Text.ReadExactly` says what has to be
seen at each draw, in terms of the indices of the symbols in the text.

* A `Lexer` puts one character back at the end of each run.  `Lexer.read_unread`
  says that this leaves no trace, and `Lexer.Ready.gives_next` that its tokens are
  therefore those of a `Reader`, also in a text that gives nothing now and then.
* A `Reader` reads exactly (`Reader.Stands.sees`), by an induction on the text
  that is to come.
-/

namespace Brainfuck

/-! ## What is seen -/

/-- The reader after so many tokens. -/
def Reader.after (r : Reader) : Nat → Reader
  | 0 => r
  | n + 1 => r.next.2.after n

/-- What is seen of the next draw: the token, its place, and the text read by then. -/
def Reader.seen (r : Reader) : Token × Position × String :=
  (r.next.1, r.next.2.mark, r.next.2.consumed)

/-- What is seen of the next draw: the token, its place, and the text read by then. -/
def Lexer.seen (l : Lexer) : Token × Position × String :=
  (l.next.1, l.next.2.mark, l.next.2.consumed)

/-- The indices of the symbols in a text, in rising order. -/
def Text.symbolIndices (text : List Char) : List Nat :=
  (List.range text.length).filter fun i => (text[i]?.bind Token.ofChar?).isSome

/-- What is seen of each draw, counted from zero: as long as there are symbols,
the token of the next one, its place, and the text up to and including it; and
then, for ever, the end mark, the place behind the text, and the whole text. -/
structure Text.ReadExactly (text : List Char) (seen : Nat → Token × Position × String) :
    Prop where
  symbol : ∀ j p, (symbolIndices text)[j]? = some p → ∃ t, text[p]?.bind Token.ofChar? = some t ∧
    seen j = (t, .following (text.take p), String.ofList (text.take (p + 1)))
  stop : ∀ j, (symbolIndices text).length ≤ j →
    seen j = (.endOfText, .following text, String.ofList text)

namespace Text

theorem symbolIndices_cons (c : Char) (text : List Char) :
    symbolIndices (c :: text) =
      (if (Token.ofChar? c).isSome then [0] else []) ++ (symbolIndices text).map (· + 1) := by
  unfold symbolIndices
  rw [List.length_cons, List.range_succ_eq_map, List.filter_cons, List.filter_map]
  show (if (Token.ofChar? c).isSome = true then _ else _) = _
  split <;> rfl

end Text

/-! ## A character that is put back -/

namespace Lexer

variable {l l' : Lexer}

private theorem read_unread_count (hpending : l.pending = none) (c : Char) :
    ((l.count c).unread c).read = (some c, l.count c) := by
  cases l
  cases hpending
  by_cases hc : c = '\n'
  · simp [read, unread, uncount, count, hc]
  · simp [read, unread, uncount, count, hc]

/-- Putting back the character that was read last leaves no trace of it. -/
theorem read_unread {c : Char} (hpending : l.pending = none) (h : l.read = (some c, l')) :
    (l'.unread c).read = (some c, l') := by
  unfold read at h
  split at h
  · rename_i hsome
    rw [hpending] at hsome
    cases hsome
  · cases h
  · cases h
  · cases h
    apply read_unread_count
    exact hpending

/-! ## Single rounds -/

theorem skipRun_of_none {inRun : Char → Bool} (h : l.read = (none, l')) :
    l.skipRun inRun = l' := by
  unfold skipRun
  split <;> simp_all

theorem skipRun_of_mem {inRun : Char → Bool} {c : Char} (h : l.read = (some c, l'))
    (hc : inRun c = true) : l.skipRun inRun = l'.skipRun inRun := by
  rw [skipRun]
  split <;> simp_all

theorem skipRun_of_not_mem {inRun : Char → Bool} {c : Char} (h : l.read = (some c, l'))
    (hc : inRun c = false) : l.skipRun inRun = l'.unread c := by
  unfold skipRun
  split <;> simp_all

theorem next_of_ended (h : l.ended = true) : l.next = l.stop := by
  unfold next
  rw [if_pos h]

theorem next_of_none (hrunning : l.ended = false) (h : l.read = (none, l')) :
    l.next = l'.stop := by
  unfold next
  rw [if_neg (by simp [hrunning])]
  split <;> simp_all

theorem next_of_symbol {c : Char} {t : Token} (hrunning : l.ended = false)
    (h : l.read = (some c, l')) (hc : Token.ofChar? c = some t) :
    l.next = (t, { l' with mark := l'.place }) := by
  unfold next
  rw [if_neg (by simp [hrunning])]
  split <;> simp_all

theorem next_of_other {c : Char} (hrunning : l.ended = false)
    (h : l.read = (some c, l')) (hc : Token.ofChar? c = none) :
    l.next = if l.blank c then (l'.skipRun l.blank).next
      else if l.word c then (l'.skipRun l.word).next else l'.next := by
  rw [next, if_neg (by simp [hrunning])]
  split <;> simp_all

/-- What comes next depends on the next read only. -/
theorem next_congr {k : Lexer} (hl : l.ended = false) (hk : k.ended = false)
    (hread : k.read = l.read) (hblank : k.blank = l.blank) (hword : k.word = l.word) :
    k.next = l.next := by
  rw [next, next, if_neg (by simp [hk]), if_neg (by simp [hl]), hread, hblank, hword]

/-! ## Lexers and readers -/

/-- The reader that stands where the lexer does, for a lexer that has put nothing back. -/
def toReader (l : Lexer) : Reader where
  feed := l.feed
  past := l.past
  place := l.place
  ended := l.ended
  mark := l.mark
  filler c := l.blank c || l.word c

/-- Nothing is put back, and the runs hold no symbols. -/
structure Ready (l : Lexer) : Prop where
  pending : l.pending = none
  blank : ∀ c t, Token.ofChar? c = some t → l.blank c = false
  word : ∀ c t, Token.ofChar? c = some t → l.word c = false

/-- The lexer behind the next character of the text. -/
def taken (l : Lexer) (c : Char) (feed : List (Option Char)) : Lexer :=
  { l with feed, past := c :: l.past }.count c

theorem toReader_taken (l : Lexer) (c : Char) (feed : List (Option Char)) :
    (l.taken c feed).toReader = { l.toReader.take c with feed } := by
  unfold taken count
  split <;> simp [toReader, Reader.take, Position.advance, *]

theorem Ready.taken (h : l.Ready) (c : Char) (feed : List (Option Char)) :
    (l.taken c feed).Ready := by
  unfold Lexer.taken count
  split <;> exact ⟨h.pending, h.blank, h.word⟩

theorem feed_taken (l : Lexer) (c : Char) (feed : List (Option Char)) :
    (l.taken c feed).feed = feed := by
  unfold taken count
  split <;> rfl

theorem classes_taken (l : Lexer) (c : Char) (feed : List (Option Char)) :
    (l.taken c feed).ended = l.ended ∧ (l.taken c feed).blank = l.blank ∧
      (l.taken c feed).word = l.word := by
  unfold taken count
  split <;> exact ⟨rfl, rfl, rfl⟩

theorem classes_unread (l : Lexer) (c : Char) :
    (l.unread c).ended = l.ended ∧ (l.unread c).blank = l.blank ∧ (l.unread c).word = l.word := by
  unfold unread uncount
  split <;> exact ⟨rfl, rfl, rfl⟩

theorem read_of_nil (hpending : l.pending = none) (hfeed : l.feed = []) :
    l.read = (none, l) := by
  unfold read
  simp [hpending, hfeed]

theorem read_of_nothing {feed : List (Option Char)} (hpending : l.pending = none)
    (hfeed : l.feed = none :: feed) : l.read = (none, { l with feed }) := by
  unfold read
  simp [hpending, hfeed]

theorem read_of_char {c : Char} {feed : List (Option Char)} (hpending : l.pending = none)
    (hfeed : l.feed = some c :: feed) : l.read = (some c, l.taken c feed) := by
  unfold read
  simp [hpending, hfeed, taken]

/-- The lexer gives this token and then stands where the reader does. -/
structure Gives (l : Lexer) (drawn : Token × Reader) : Prop where
  token : l.next.1 = drawn.1
  reader : l.next.2.toReader = drawn.2
  ready : l.next.2.Ready

theorem Gives.congr {k : Lexer} {drawn : Token × Reader} (h : l.Gives drawn)
    (hnext : k.next = l.next) : k.Gives drawn where
  token := by rw [hnext, h.token]
  reader := by rw [hnext, h.reader]
  ready := by
    rw [hnext]
    exact h.ready

/-- Behind the next character the reader reads on from where the lexer stands. -/
private theorem seek_taken (l : Lexer) (c : Char) (b : Bool) (feed : List (Option Char)) :
    (l.taken c feed).toReader.seek b feed = (l.toReader.take c).seek b feed := by
  rw [toReader_taken, Reader.seek_feed]

private theorem gives_stop {feed : List (Option Char)} (h : l.Ready)
    (hrunning : l.ended = false) (hread : l.read = (none, { l with feed })) :
    l.Gives (l.toReader.stop feed) := by
  have hnext := next_of_none hrunning hread
  constructor
  · rw [hnext]
    rfl
  · rw [hnext]
    rfl
  · rw [hnext]
    exact ⟨h.pending, h.blank, h.word⟩

private theorem gives_symbol {c : Char} {t : Token} {feed : List (Option Char)} (h : l.Ready)
    (hrunning : l.ended = false) (hread : l.read = (some c, l.taken c feed))
    (hc : Token.ofChar? c = some t) :
    l.Gives ((l.toReader.take c).give t feed) := by
  have hnext := next_of_symbol hrunning hread hc
  have htaken := l.toReader_taken c feed
  constructor
  · rw [hnext]
    rfl
  · rw [hnext, show Lexer.toReader _ = { (l.taken c feed).toReader with
      mark := (l.taken c feed).toReader.place } from rfl, htaken]
    rfl
  · rw [hnext]
    obtain ⟨hpending, hblank, hword⟩ := h.taken c feed
    exact ⟨hpending, hblank, hword⟩

section Runs

variable {c : Char} {feed : List (Option Char)} (h : l.Ready) (hrunning : l.ended = false)
  (hread : l.read = (some c, l.taken c feed))
  (hrun : ∀ inRun, inRun = l.blank ∨ inRun = l.word →
    ((l.taken c feed).skipRun inRun).Gives ((l.toReader.take c).seek true feed))

include hrunning hread hrun

/-- A character that is no symbol begins a run or is passed over by itself. -/
private theorem gives_other (hc : Token.ofChar? c = none)
    (hnext : (l.taken c feed).Gives ((l.toReader.take c).seek false feed)) :
    l.Gives ((l.toReader.take c).seek (l.blank c || l.word c) feed) := by
  have hother := next_of_other hrunning hread hc
  by_cases hb : l.blank c = true
  · rw [if_pos hb] at hother
    rw [hb, Bool.true_or]
    exact (hrun l.blank (Or.inl rfl)).congr hother
  · rw [if_neg hb] at hother
    by_cases hw : l.word c = true
    · rw [if_pos hw] at hother
      rw [hw, Bool.or_true]
      exact (hrun l.word (Or.inr rfl)).congr hother
    · rw [if_neg hw] at hother
      rw [Bool.not_eq_true] at hb hw
      rw [hb, hw]
      exact hnext.congr hother

include h

/-- A run goes on over a character that belongs to it.  Any other character is put
back and read again, which is as if no run had been begun. -/
private theorem gives_skipRun {inRun : Char → Bool} (hclass : inRun = l.blank ∨ inRun = l.word)
    (hgives : l.Gives (l.toReader.seek false (some c :: feed))) :
    (l.skipRun inRun).Gives (l.toReader.seek true (some c :: feed)) := by
  by_cases hin : inRun c = true
  · rw [skipRun_of_mem hread hin]
    have hother : Token.ofChar? c = none := by
      rw [Option.eq_none_iff_forall_ne_some]
      intro t hc
      rcases hclass with rfl | rfl
      · rw [h.blank c t hc] at hin
        cases hin
      · rw [h.word c t hc] at hin
        cases hin
    have hfiller : (l.blank c || l.word c) = true := by
      rcases hclass with rfl | rfl <;> simp [hin]
    unfold Reader.seek
    simp only [hother]
    show Gives _ ((l.toReader.take c).seek (l.blank c || l.word c) feed)
    rw [hfiller]
    exact hrun inRun hclass
  · rw [skipRun_of_not_mem hread (by simpa using hin)]
    obtain ⟨hended, hblank, hword⟩ := l.classes_taken c feed
    obtain ⟨hended', hblank', hword'⟩ := (l.taken c feed).classes_unread c
    apply hgives.congr
    apply next_congr hrunning (hended'.trans (hended.trans hrunning))
    · rw [read_unread h.pending hread, hread]
    · exact hblank'.trans hblank
    · exact hword'.trans hword

end Runs

/-- The lexer reads on to the next symbol or to the end as the reader does.  The
end of a run is a read that may give nothing once more. -/
theorem gives_seek {feed : List (Option Char)} (h : l.Ready) (hrunning : l.ended = false)
    (hfeed : l.feed = feed) :
    l.Gives (l.toReader.seek false feed) ∧
      ∀ inRun, inRun = l.blank ∨ inRun = l.word →
        (l.skipRun inRun).Gives (l.toReader.seek true feed) := by
  induction feed generalizing l with
  | nil =>
    have hread := read_of_nil h.pending hfeed
    have hsame : { l with feed := [] } = l := by rw [← hfeed]
    have hstop : l.Gives (l.toReader.stop []) := gives_stop h hrunning (by rw [hread, hsame])
    refine ⟨hstop, ?_⟩
    intro inRun _
    rw [skipRun_of_none hread]
    exact hstop
  | cons x feed ih =>
    cases x with
    | none =>
      have hread := read_of_nothing h.pending hfeed
      refine ⟨gives_stop h hrunning hread, ?_⟩
      intro inRun _
      rw [skipRun_of_none hread]
      have hnext := (ih (l := { l with feed }) ⟨h.pending, h.blank, h.word⟩ hrunning rfl).1
      have hseek : ({ l with feed } : Lexer).toReader.seek false feed =
          l.toReader.seek false feed := Reader.seek_feed l.toReader feed false feed
      rwa [hseek] at hnext
    | some c =>
      have hread := read_of_char h.pending hfeed
      obtain ⟨hended, hblank, hword⟩ := l.classes_taken c feed
      obtain ⟨hnext, hrun⟩ := ih (h.taken c feed) (hended.trans hrunning) (l.feed_taken c feed)
      rw [seek_taken] at hnext hrun
      rw [hblank, hword] at hrun
      have hgives : l.Gives (l.toReader.seek false (some c :: feed)) := by
        unfold Reader.seek
        cases hc : Token.ofChar? c with
        | some t => exact gives_symbol h hrunning hread hc
        | none => exact gives_other hrunning hread hrun hc hnext
      exact ⟨hgives, fun inRun hclass => gives_skipRun h hrunning hread hrun hclass hgives⟩

/-- The next token of a lexer is that of a reader. -/
theorem Ready.gives_next (h : l.Ready) : l.Gives l.toReader.next := by
  by_cases hended : l.ended = true
  · have hnext : l.next = l.stop := by
      unfold next
      rw [if_pos hended]
    have hreader : l.toReader.next = l.toReader.stop l.feed := if_pos hended
    rw [hreader]
    constructor
    · rw [hnext]
      rfl
    · rw [hnext]
      rfl
    · rw [hnext]
      exact ⟨h.pending, h.blank, h.word⟩
  · have hreader : l.toReader.next = l.toReader.seek false l.feed := if_neg hended
    rw [hreader]
    exact (gives_seek h (by simpa using hended) rfl).1

/-- Lexer and reader stay together. -/
theorem Ready.after (h : l.Ready) (n : Nat) :
    (l.after n).Ready ∧ (l.after n).toReader = l.toReader.after n := by
  induction n generalizing l with
  | zero => exact ⟨h, rfl⟩
  | succ n ih =>
    have hgives := h.gives_next
    unfold Lexer.after Reader.after
    rw [← hgives.reader]
    exact ih hgives.ready

theorem Ready.seen (h : l.Ready) : l.seen = l.toReader.seen := by
  obtain ⟨htoken, hreader, -⟩ := h.gives_next
  unfold Lexer.seen Reader.seen
  rw [htoken, ← hreader]
  rfl

end Lexer

/-! ## Readers read exactly -/

namespace Reader

variable {r : Reader}

theorem seen_of_ended (h : r.ended = true) (n : Nat) :
    (r.after n).seen = (.endOfText, r.place.behind, r.consumed) := by
  have hnext : r.next = r.stop r.feed := if_pos h
  induction n generalizing r with
  | zero =>
    unfold after seen
    rw [hnext]
    rfl
  | succ n ih =>
    unfold after
    rw [hnext]
    exact ih rfl rfl

theorem Stands.seen_of_nil {before : List Char} (h : r.Stands before []) (n : Nat) :
    (r.after n).seen = (.endOfText, .following before, String.ofList before) := by
  have hnext : r.next = r.stop [] := by
    simp [next, h.running, h.feed, seek]
  have hplace : r.place.behind = .following before := by
    rw [h.place, Position.ofText_eq]
    rfl
  rw [← hplace, ← h.consumed]
  cases n with
  | zero =>
    unfold after Reader.seen
    rw [hnext]
    rfl
  | succ n =>
    unfold after
    rw [hnext]
    exact seen_of_ended rfl n

theorem after_congr {r' : Reader} (h : r.next = r'.next) (n : Nat) :
    (r.after n).next = (r'.after n).next := by
  cases n with
  | zero => exact h
  | succ n =>
    unfold after
    rw [h]

/-- What the reader sees of a text, of which it has read the part `before`: the
symbols of the rest one by one, and then its end. -/
structure Sees (r : Reader) (before rest : List Char) : Prop where
  symbol : ∀ j p, (Text.symbolIndices rest)[j]? = some p →
    ∃ t, rest[p]?.bind Token.ofChar? = some t ∧ (r.after j).seen =
      (t, .following (before ++ rest.take p), String.ofList (before ++ rest.take (p + 1)))
  stop : ∀ j, (Text.symbolIndices rest).length ≤ j → (r.after j).seen =
    (.endOfText, .following (before ++ rest), String.ofList (before ++ rest))

/-- A character that is no symbol changes nothing. -/
theorem Sees.pass {r' : Reader} {before rest : List Char} {c : Char}
    (h : r'.Sees (before ++ [c]) rest) (hc : Token.ofChar? c = none)
    (hseen : ∀ j, (r.after j).seen = (r'.after j).seen) : r.Sees before (c :: rest) := by
  have hindices := Text.symbolIndices_cons c rest
  rw [hc, Option.isSome_none, if_neg (by simp), List.nil_append] at hindices
  constructor
  · intro j p hp
    rw [hindices, List.getElem?_map, Option.map_eq_some_iff] at hp
    obtain ⟨q, hq, rfl⟩ := hp
    obtain ⟨t, ht, hsees⟩ := h.symbol j q hq
    rw [List.append_assoc, List.append_assoc] at hsees
    exact ⟨t, ht, (hseen j).trans hsees⟩
  · intro j hj
    rw [hindices, List.length_map] at hj
    have hsees := h.stop j hj
    rw [List.append_assoc] at hsees
    exact (hseen j).trans hsees

/-- A symbol takes one draw. -/
theorem Sees.symbol_cons {r' : Reader} {before rest : List Char} {c : Char} {t : Token}
    (h : r'.Sees (before ++ [c]) rest) (hc : Token.ofChar? c = some t)
    (hseen : r.seen = (t, .following before, String.ofList (before ++ [c])))
    (hlater : ∀ j, r.after (j + 1) = r'.after j) : r.Sees before (c :: rest) := by
  have hindices := Text.symbolIndices_cons c rest
  rw [hc, Option.isSome_some, if_pos rfl, List.singleton_append] at hindices
  constructor
  · intro j p hp
    rw [hindices] at hp
    cases j with
    | zero =>
      cases hp
      rw [List.take_zero, List.append_nil]
      exact ⟨t, hc, hseen⟩
    | succ j =>
      rw [List.getElem?_cons_succ, List.getElem?_map, Option.map_eq_some_iff] at hp
      obtain ⟨q, hq, rfl⟩ := hp
      obtain ⟨u, hu, hsees⟩ := h.symbol j q hq
      rw [List.append_assoc, List.append_assoc] at hsees
      rw [hlater]
      exact ⟨u, hu, hsees⟩
  · intro j hj
    rw [hindices] at hj
    cases j with
    | zero => cases hj
    | succ j =>
      rw [List.length_cons, List.length_map, Nat.add_le_add_iff_right] at hj
      have hsees := h.stop j hj
      rw [List.append_assoc] at hsees
      rw [hlater]
      exact hsees

/-- A reader sees all that is to come.  The induction is on that part of the text. -/
theorem Stands.sees {before rest : List Char} (h : r.Stands before rest) :
    r.Sees before rest := by
  induction rest generalizing r before with
  | nil =>
    refine ⟨fun j p hp => ?_, fun j _ => ?_⟩
    · simp [Text.symbolIndices] at hp
    · rw [List.append_nil]
      exact h.seen_of_nil j
  | cons c rest ih =>
    cases hc : Token.ofChar? c with
    | none =>
      apply (ih h.pass).pass hc
      intro j
      unfold Reader.seen
      rw [after_congr (h.next_of_other hc)]
    | some t =>
      obtain ⟨r', hnext, hr', hmark⟩ := h.next_of_symbol hc
      have hplace : c ≠ '\n' := by
        rintro rfl
        cases hc
      rw [Position.ofText_append_singleton_eq before hplace] at hmark
      apply (ih hr').symbol_cons hc
      · unfold Reader.seen
        rw [hnext]
        simp only [hmark, hr'.consumed]
      · intro j
        rw [after, hnext]

theorem readExactly (text : List Char) (filler : Char → Bool) :
    Text.ReadExactly text fun j => ({ ofList text with filler }.after j).seen := by
  have hstands : ({ ofList text with filler } : Reader).Stands [] text := ⟨rfl, rfl, rfl, rfl⟩
  obtain ⟨hsymbol, hstop⟩ := hstands.sees
  simp only [List.nil_append] at hsymbol hstop
  exact ⟨hsymbol, hstop⟩

end Reader

/-! ## The classes of characters -/

/-- The classes of characters that a lexer has by default hold no symbols. -/
theorem Text.not_class_of_symbol {c : Char} {t : Token} (h : Token.ofChar? c = some t) :
    isBlank c = false ∧ (isLetter c || isDigit c) = false := by
  have hc := Token.ofChar?_eq_some_iff.1 h
  cases t with
  | command k => cases k <;> cases hc <;> decide +kernel
  | loopOpen | loopClose => cases hc; decide +kernel
  | endOfText => cases hc

theorem Text.isFiller_of_symbol {c : Char} {t : Token} (h : Token.ofChar? c = some t) :
    isFiller c = false := by
  obtain ⟨hblank, hword⟩ := not_class_of_symbol h
  rw [isFiller, Bool.or_assoc, hblank, hword]
  rfl

theorem Lexer.ready_of_feed (feed : List (Option Char)) : ({ feed } : Lexer).Ready :=
  ⟨rfl, fun _ _ h => (Text.not_class_of_symbol h).1, fun _ _ h => (Text.not_class_of_symbol h).2⟩

theorem Lexer.toReader_of_feed (feed : List (Option Char)) :
    ({ feed } : Lexer).toReader = { feed } := by
  have hfiller : (fun c => Text.isBlank c || (Text.isLetter c || Text.isDigit c)) =
      Text.isFiller := by
    funext c
    rw [Text.isFiller, Bool.or_assoc]
  show ({ feed
          filler := fun c => Text.isBlank c || (Text.isLetter c || Text.isDigit c) } : Reader) = _
  rw [hfiller]

/-! ## The result -/

/-- A text is read exactly, by a reader and by a lexer that skips runs, whatever
counts as white space and as a comment, as long as no symbol does. -/
theorem reads_exactly (text : List Char) (blank word : Char → Bool)
    (hblank : ∀ c t, Token.ofChar? c = some t → blank c = false)
    (hword : ∀ c t, Token.ofChar? c = some t → word c = false) :
    Text.ReadExactly text (fun j => ({ Lexer.ofList text with blank, word }.after j).seen) ∧
      Text.ReadExactly text fun j =>
        ({ Reader.ofList text with filler := fun c => blank c || word c }.after j).seen := by
  have hreader := Reader.readExactly text fun c => blank c || word c
  have hready : ({ Lexer.ofList text with blank, word } : Lexer).Ready := ⟨rfl, hblank, hword⟩
  refine ⟨?_, hreader⟩
  have hseen (j : Nat) : ({ Lexer.ofList text with blank, word }.after j).seen =
      ({ Reader.ofList text with filler := fun c => blank c || word c }.after j).seen := by
    obtain ⟨hj, htogether⟩ := hready.after j
    rw [hj.seen, htogether]
    rfl
  simp only [hseen]
  exact hreader

/-- Two symbols on different lines, with a comment and white space before the second. -/
theorem reads_exactly_across_lines :
    (∀ c t, Token.ofChar? c = some t → Text.isBlank c = false) ∧
      (∀ c t, Token.ofChar? c = some t → (Text.isLetter c || Text.isDigit c) = false) ∧
      Text.symbolIndices "x [\n\n y+ ".toList = [2, 7] ∧
      ((Lexer.ofList "x [\n\n y+ ".toList).after 1).seen =
        (.command .increment, ⟨3, 3⟩, "x [\n\n y+") ∧
      ((Lexer.ofList "x [\n\n y+ ".toList).after 2).seen = (.endOfText, ⟨3, 5⟩, "x [\n\n y+ ") := by
  have hblank (c : Char) (t : Token) (h : Token.ofChar? c = some t) :=
    (Text.not_class_of_symbol h).1
  have hword (c : Char) (t : Token) (h : Token.ofChar? c = some t) :=
    (Text.not_class_of_symbol h).2
  have hindices : Text.symbolIndices "x [\n\n y+ ".toList = [2, 7] := by decide
  have hexact := (reads_exactly "x [\n\n y+ ".toList _ _ hblank hword).1
  obtain ⟨t, ht, hseen⟩ := hexact.symbol 1 7 (by rw [hindices]; rfl)
  cases ht
  exact ⟨hblank, hword, hindices, hseen, hexact.stop 2 (by rw [hindices]; decide)⟩

end Brainfuck
