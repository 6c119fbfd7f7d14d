import Brainfuck.Proofs.Lexing
import Brainfuck.Proofs.Spelling

/-!
# Building again and again

A build that comes to an end mark or to a stray bracket leaves behind what has
been built, and the next one goes on from there.

* `Source.given` are the tokens of so many draws.  `Assembly.exists_reaches` says
  that what has been built after any number of builds spells these tokens
  without the stray brackets, and `Draft.source_layout` and
  `Draft.unresolved_layout` say how this looks in the row of an emitter.
* `Emitter.isPrefix_of_after` says that a program which was given is never
  changed.
* `Assembly.rounds` are builds that begin in the middle of one.  For a source with
  one end there is a report for each stray bracket, and then one answer for ever
  (`Assembly.Resumes`).  `Resumes.cons` and `Resumes.of_add` are the two steps of
  the induction.
-/

namespace Brainfuck

/-- The sequence of outcomes that ends with one answer for ever: a program, or the
report that loops are left open. -/
def SettlesFrom (m : Nat) (outcome : Nat → Except LoopError Program) : Prop :=
  ∃ out, (∀ e, out = .error e → e.kind = .unterminated) ∧ ∀ i, m ≤ i → outcome i = out

/-! ## Draws -/

theorem Reader.ended_of_seek {r : Reader} {b : Bool} {feed : List (Option Char)}
    (h : (r.seek b feed).1 = .endOfText) : (r.seek b feed).2.ended = true := by
  induction feed generalizing r b with
  | nil => rfl
  | cons x feed ih =>
    cases x with
    | none =>
      unfold seek at h ⊢
      split
      · rw [if_pos ‹_›] at h
        exact ih h
      · rfl
    | some c =>
      unfold seek at h ⊢
      cases hc : Token.ofChar? c with
      | none =>
        rw [hc] at h
        exact ih h
      | some t =>
        rw [hc] at h
        exact absurd (hc.trans (congrArg some h)) (Token.ofChar?_ne_endOfText c)

namespace Source

/-- The source after so many draws. -/
def after (s : Source) : Nat → Source
  | 0 => s
  | k + 1 => s.next.2.after k

/-- The tokens of so many draws. -/
def given (s : Source) : Nat → List Token
  | 0 => []
  | k + 1 => s.next.1 :: s.next.2.given k

theorem after_add (s : Source) (j k : Nat) : s.after (j + k) = (s.after j).after k := by
  induction j generalizing s with
  | zero => rw [Nat.zero_add, after]
  | succ j ih => rw [Nat.succ_add, after, after, ih]

theorem given_add (s : Source) (j k : Nat) :
    s.given (j + k) = s.given j ++ (s.after j).given k := by
  induction j generalizing s with
  | zero => rw [Nat.zero_add, after, given, List.nil_append]
  | succ j ih => rw [Nat.succ_add, given, given, after, ih, List.cons_append]

/-- The draws before the end mark, one by one. -/
theorem getElem?_drain {s : Source} {q : Nat} {x : Token × Source}
    (h : s.drain.1[q]? = some x) : x = (s.after q).next := by
  induction s using drawing_induction generalizing q with
  | stop s hend =>
    rw [drain_of_end hend] at h
    cases h
  | draw s hend ih =>
    rw [drain_of_token hend] at h
    cases q with
    | zero =>
      cases h
      rfl
    | succ q => exact ih h

/-- The source comes to its end mark only behind its last token. -/
def EndsOnce : Source → Prop
  | text _ => True
  | tokens ts => .endOfText ∉ ts

theorem EndsOnce.next {s : Source} (h : s.EndsOnce) : s.next.2.EndsOnce := by
  cases s with
  | text r => exact trivial
  | tokens ts =>
    cases ts with
    | nil => exact h
    | cons t ts => exact fun hts => h (List.mem_cons_of_mem t hts)

/-- Behind the last token there are end marks only, and no more text. -/
theorem EndsOnce.next_of_end {s : Source} (h : s.EndsOnce) (hend : s.next.1 = .endOfText) :
    s.next.2.next.1 = .endOfText ∧ s.next.2.next.2.consumed = s.next.2.consumed := by
  cases s with
  | text r =>
    have hended : r.next.2.ended = true := by
      simp only [Source.next] at hend
      unfold Reader.next at hend ⊢
      split
      · rfl
      · rw [if_neg ‹_›] at hend
        exact Reader.ended_of_seek hend
    have hnext : r.next.2.next = r.next.2.stop r.next.2.feed := if_pos hended
    simp only [Source.next, hnext]
    exact ⟨rfl, rfl⟩
  | tokens ts =>
    cases ts with
    | nil => exact ⟨rfl, rfl⟩
    | cons t ts => exact absurd hend fun ht => h (ht ▸ List.mem_cons_self)

end Source

/-! ## What has been built -/

/-- A token that is added is no bracket that meets nothing open. -/
theorem Draft.not_stray_of_add {join : Bool} {t : Token} {position : Position} {d d' : Draft}
    (h : d.add join t position = some d') :
    ¬ (t = Token.brackets.closing ∧ d.opened.length = 0) := by
  rintro ⟨hclose, hopened⟩
  rw [add_eq_none_iff.2 ⟨hclose, List.eq_nil_of_length_eq_zero hopened⟩] at h
  cases h

/-- Adding a token leaves as many loops open as it has met. -/
theorem Draft.length_opened_met {join : Bool} {t : Token} {position : Position} {d d' : Draft}
    (h : d.add join t position = some d') :
    d'.opened.length = Token.brackets.met d.opened.length t := by
  rcases add_cases h with ⟨c, rfl, rfl⟩ | ⟨rfl, rfl⟩ | ⟨l, opened, rfl, hopened, rfl⟩ | ⟨rfl, rfl⟩
  · simp [Brackets.met, Token.brackets]
  · simp [Brackets.met, Token.brackets]
  · simp [Brackets.met, Token.brackets, hopened]
  · simp [Brackets.met, Token.brackets]

namespace Assembly

/-- From `a` to `a'` there were `k` draws, and what was put down is spelled as their
tokens are, without stray brackets and end marks. -/
structure Reaches (a : Assembly) (k : Nat) (a' : Assembly) : Prop where
  source : a'.source = a.source.after k
  symbols : a'.draft.symbols = a.draft.symbols ++
    (Token.brackets.kept a.draft.opened.length (a.source.given k)).filter (· ≠ .endOfText)
  opened : a'.draft.opened.length =
    (a.source.given k).foldl Token.brackets.met a.draft.opened.length

namespace Reaches

variable {a : Assembly}

theorem refl (a : Assembly) : a.Reaches 0 a :=
  ⟨rfl, (List.append_nil _).symm, rfl⟩

theorem trans {b c : Assembly} {j k : Nat} (h : a.Reaches j b) (h' : b.Reaches k c) :
    a.Reaches (j + k) c where
  source := by rw [h'.source, h.source, Source.after_add]
  symbols := by
    rw [h'.symbols, h.symbols, h.source, h.opened, Source.given_add, Brackets.kept_append,
      List.filter_append, List.append_assoc]
  opened := by rw [h'.opened, h.source, h.opened, Source.given_add, List.foldl_append]

theorem of_end (h : a.source.next.1 = .endOfText) :
    a.Reaches 1 { a with source := a.source.next.2 } where
  source := rfl
  symbols := by
    simp only [Source.given, h]
    simp [Brackets.kept, Token.brackets]
  opened := by
    simp only [Source.given, h]
    simp [Brackets.met, Token.brackets]

theorem of_stray {join : Bool}
    (h : a.draft.add join a.source.next.1 a.source.next.2.mark = none) :
    a.Reaches 1 { a with source := a.source.next.2 } := by
  obtain ⟨hclose, hopened⟩ := Draft.add_eq_none_iff.1 h
  refine ⟨rfl, ?_, ?_⟩
  · simp only [Source.given, hclose, hopened]
    simp [Brackets.kept, Token.brackets]
  · simp only [Source.given, hclose, hopened]
    simp [Brackets.met, Token.brackets]

theorem of_add {join : Bool} {d : Draft} (hend : a.source.next.1 ≠ .endOfText)
    (h : a.draft.add join a.source.next.1 a.source.next.2.mark = some d) :
    a.Reaches 1 { a with source := a.source.next.2, draft := d } := by
  refine ⟨rfl, ?_, Draft.length_opened_met h⟩
  simp only [Source.given, Brackets.kept, if_neg (Draft.not_stray_of_add h),
    Draft.symbols_add hend h]
  simp [hend]

end Reaches

/-- The draws of a build, and what they put down. -/
theorem exists_reaches_goOn (a : Assembly) (continuing : Bool) :
    ∃ k, a.Reaches k (a.goOn continuing).2 := by
  induction hs : a.source using Source.drawing_induction generalizing a continuing with
  | stop s hend =>
    subst hs
    rw [goOn_of_end hend]
    exact ⟨1, .of_end hend⟩
  | draw s hend ih =>
    subst hs
    cases hadd : a.draft.add (a.fold && continuing) a.source.next.1 a.source.next.2.mark with
    | none =>
      rw [goOn_of_stray hend hadd]
      exact ⟨1, .of_stray hadd⟩
    | some d =>
      rw [goOn_of_add hend hadd]
      obtain ⟨k, hk⟩ := ih { a with source := a.source.next.2, draft := d } true rfl
      exact ⟨1 + k, (Reaches.of_add hend hadd).trans hk⟩

/-- The draws of any number of builds, and what they put down. -/
theorem exists_reaches (a : Assembly) (n : Nat) : ∃ k, a.Reaches k (a.after n) := by
  induction n generalizing a with
  | zero => exact ⟨0, .refl a⟩
  | succ n ih =>
    obtain ⟨j, hj⟩ := a.exists_reaches_goOn false
    obtain ⟨k, hk⟩ := ih a.build.2
    rw [goOn_false] at hj
    exact ⟨j + k, hj.trans hk⟩

/-! ## The outcomes of builds -/

/-- A build that begins in the middle, and then `i` more builds: the last of them. -/
def rounds (a : Assembly) (continuing : Bool) : (i : Nat) → Except LoopError Program × Assembly
  | 0 => a.goOn continuing
  | i + 1 => ((a.goOn continuing).2.after i).build

theorem rounds_false (a : Assembly) (i : Nat) : a.rounds false i = (a.after i).build := by
  cases i with
  | zero => exact a.goOn_false
  | succ i => rw [rounds, goOn_false, after]

theorem kind_of_finish {a : Assembly} {e : LoopError} (h : a.finish = .error e) :
    e.kind = .unterminated := by
  unfold finish at h
  split at h
  · cases h
  · cases h
    rfl

/-- At the end mark there is one answer for ever. -/
theorem rounds_of_end {a : Assembly} (h : a.source.EndsOnce) (hend : a.source.next.1 = .endOfText)
    (continuing : Bool) (i : Nat) :
    (a.rounds continuing i).1 = ({ a with source := a.source.next.2 } : Assembly).finish := by
  induction i generalizing a continuing with
  | zero => rw [rounds, goOn_of_end hend]
  | succ i ih =>
    obtain ⟨hagain, hconsumed⟩ := h.next_of_end hend
    rw [rounds, goOn_of_end hend, ← rounds_false,
      ih (a := { a with source := a.source.next.2 }) h.next hagain]
    unfold finish
    simp only [hconsumed]

theorem rounds_zero_of_stray {a : Assembly} {continuing : Bool}
    (hend : a.source.next.1 ≠ .endOfText)
    (hadd : a.draft.add (a.fold && continuing) a.source.next.1 a.source.next.2.mark = none) :
    a.rounds continuing 0 = (.error (.stray a.source.next.2.consumed a.source.next.2.mark.line
      a.source.next.2.mark.column), { a with source := a.source.next.2 }) :=
  goOn_of_stray hend hadd

theorem rounds_succ_of_stray {a : Assembly} {continuing : Bool}
    (hend : a.source.next.1 ≠ .endOfText)
    (hadd : a.draft.add (a.fold && continuing) a.source.next.1 a.source.next.2.mark = none)
    (i : Nat) : a.rounds continuing (i + 1) =
      ({ a with source := a.source.next.2 } : Assembly).rounds false i := by
  rw [rounds, goOn_of_stray hend hadd, rounds_false]

theorem rounds_of_add {a : Assembly} {continuing : Bool} {d : Draft}
    (hend : a.source.next.1 ≠ .endOfText)
    (hadd : a.draft.add (a.fold && continuing) a.source.next.1 a.source.next.2.mark = some d)
    (i : Nat) : a.rounds continuing i =
      ({ a with source := a.source.next.2, draft := d } : Assembly).rounds true i := by
  cases i with
  | zero => rw [rounds, goOn_of_add hend hadd, rounds]
  | succ i => rw [rounds, goOn_of_add hend hadd, rounds]

/-- Each of the stray brackets, which are given by their numbers among the draws, ends
one build right behind it, and then there is one answer for ever. -/
structure Resumes (a : Assembly) (continuing : Bool) (strays : List Nat) : Prop where
  stray : ∀ i q, strays[i]? = some q → ∃ x, a.source.drain.1[q]? = some x ∧
    (a.rounds continuing i).1 = .error (.stray x.2.consumed x.2.mark.line x.2.mark.column) ∧
    (a.rounds continuing i).2.source = x.2
  settles : SettlesFrom strays.length fun i => (a.rounds continuing i).1

/-- The first stray bracket takes one build, and the others are met as if that had
been none. -/
theorem Resumes.cons {a : Assembly} {continuing : Bool} {strays : List Nat}
    (hend : a.source.next.1 ≠ .endOfText)
    (hadd : a.draft.add (a.fold && continuing) a.source.next.1 a.source.next.2.mark = none)
    (h : ({ a with source := a.source.next.2 } : Assembly).Resumes false strays) :
    a.Resumes continuing (0 :: strays.map (· + 1)) := by
  constructor
  · intro i q hq
    rw [Source.drain_of_token hend]
    cases i with
    | zero =>
      cases hq
      rw [rounds_zero_of_stray hend hadd]
      exact ⟨a.source.next, rfl, rfl, rfl⟩
    | succ i =>
      rw [List.getElem?_cons_succ, List.getElem?_map, Option.map_eq_some_iff] at hq
      obtain ⟨q', hq', rfl⟩ := hq
      rw [rounds_succ_of_stray hend hadd]
      exact h.stray i q' hq'
  · obtain ⟨out, hout, hlater⟩ := h.settles
    refine ⟨out, hout, ?_⟩
    intro i hi
    rw [List.length_cons, List.length_map] at hi
    cases i with
    | zero => omega
    | succ i =>
      show (a.rounds continuing (i + 1)).1 = out
      rw [rounds_succ_of_stray hend hadd]
      exact hlater i (by omega)

/-- A token that is added takes no build of its own. -/
theorem Resumes.of_add {a : Assembly} {continuing : Bool} {strays : List Nat} {d : Draft}
    (hend : a.source.next.1 ≠ .endOfText)
    (hadd : a.draft.add (a.fold && continuing) a.source.next.1 a.source.next.2.mark = some d)
    (h : ({ a with source := a.source.next.2, draft := d } : Assembly).Resumes true strays) :
    a.Resumes continuing (strays.map (· + 1)) := by
  constructor
  · intro i q hq
    rw [List.getElem?_map, Option.map_eq_some_iff] at hq
    obtain ⟨q', hq', rfl⟩ := hq
    rw [Source.drain_of_token hend, rounds_of_add hend hadd]
    exact h.stray i q' hq'
  · simp only [rounds_of_add hend hadd, List.length_map]
    exact h.settles

/-- A source with one end resumes behind each of its stray brackets.  The induction
is on the draws before the end mark. -/
theorem resumes (a : Assembly) (continuing : Bool) (h : a.source.EndsOnce) :
    a.Resumes continuing
      (Token.brackets.strays a.draft.opened.length (a.source.drain.1.map Prod.fst)) := by
  induction hs : a.source using Source.drawing_induction generalizing a continuing with
  | stop s hend =>
    subst hs
    rw [Source.drain_of_end hend]
    constructor
    · intro i q hq
      simp [Brackets.strays] at hq
    · refine ⟨({ a with source := a.source.next.2 } : Assembly).finish, ?_, ?_⟩
      · intro e he
        exact kind_of_finish he
      · intro i _
        exact rounds_of_end h hend continuing i
  | draw s hend ih =>
    subst hs
    rw [Source.drain_of_token hend, List.map_cons, Brackets.strays_cons]
    cases hadd : a.draft.add (a.fold && continuing) a.source.next.1 a.source.next.2.mark with
    | none =>
      obtain ⟨hclose, hopened⟩ := Draft.add_eq_none_iff.1 hadd
      have hrest := ih { a with source := a.source.next.2 } false h.next rfl
      rw [hopened, List.length_nil] at hrest ⊢
      rw [if_pos ⟨hclose, rfl⟩, Brackets.met_of_stray _ hclose]
      exact Resumes.cons hend hadd hrest
    | some d =>
      have hrest := ih { a with source := a.source.next.2, draft := d } true h.next rfl
      rw [if_neg (Draft.not_stray_of_add hadd), List.nil_append, ← Draft.length_opened_met hadd]
      exact Resumes.of_add hend hadd hrest

end Assembly

/-! ## What has been given stays -/

namespace Emitter

/-- What is put down before all open loops stays as it is. -/
theorem isPrefix_of_after {before : List Instruction} {e : Emitter}
    (hbefore : before <+: e.code.toList) (hopened : ∀ l ∈ e.opened, before.length ≤ l.1) (n : Nat) :
    before <+: (e.after n).code.toList := by
  have hbuild (e : Emitter)
      (h : before <+: e.code.toList ∧ ∀ l ∈ e.opened, before.length ≤ l.1) :
      before <+: e.build.2.code.toList ∧ ∀ l ∈ e.build.2.opened, before.length ≤ l.1 := by
    apply build_keeps (P := fun code opened => before <+: code.toList ∧
      ∀ l ∈ opened, before.length ≤ l.1) _ _ _ h
    · rintro code opened c n ⟨hcode, hstarts⟩
      rw [Array.toList_push]
      exact ⟨hcode.trans (List.prefix_append _ _), hstarts⟩
    · rintro code opened place ⟨hcode, hstarts⟩
      rw [Array.toList_push]
      refine ⟨hcode.trans (List.prefix_append _ _), ?_⟩
      intro l hl
      rcases List.mem_cons.1 hl with rfl | hl
      · exact hcode.length_le
      · exact hstarts l hl
    · rintro code l opened ⟨hcode, hstarts⟩
      refine ⟨?_, fun k hk => hstarts k (List.mem_cons_of_mem l hk)⟩
      have hle := hstarts l List.mem_cons_self
      obtain ⟨rest, hrest⟩ := hcode
      rw [Array.toList_setIfInBounds, Array.toList_push, ← hrest, List.append_assoc,
        List.set_append_right _ _ hle]
      exact List.prefix_append _ _
  induction n generalizing e with
  | zero => exact hbefore
  | succ n ih =>
    obtain ⟨hcode, hstarts⟩ := hbuild e ⟨hbefore, hopened⟩
    exact ih hcode hstarts

theorem after_add (e : Emitter) (i j : Nat) : e.after (i + j) = (e.after i).after j := by
  induction i generalizing e with
  | zero => rw [Nat.zero_add, after]
  | succ i ih => rw [Nat.succ_add, after, after, ih]

/-- A program that was given is the beginning of every later one. -/
theorem isPrefix_of_lt {e : Emitter} {i j : Nat} {p q : Program} (hij : i < j)
    (hp : (e.after i).build.1 = .ok p) (hq : (e.after j).build.1 = .ok q) :
    p.code.toList <+: q.code.toList := by
  obtain ⟨hpcode, hpopened⟩ := code_of_build_ok hp
  obtain ⟨hqcode, -⟩ := code_of_build_ok hq
  obtain ⟨k, rfl⟩ : ∃ k, j = i + 1 + k := ⟨j - i - 1, by omega⟩
  have hbefore : p.code.toList <+: (e.after i).build.2.code.toList :=
    hpcode ▸ List.prefix_refl _
  have hkept := isPrefix_of_after hbefore (by simp [hpopened]) (k + 1)
  have hlater : (e.after (i + 1 + k)).build.2 = (e.after i).build.2.after (k + 1) := by
    show (e.after (i + 1 + k)).after 1 = ((e.after i).after 1).after (k + 1)
    rw [← after_add, ← after_add, ← after_add]
    congr 1
    omega
  rwa [← hlater, hqcode] at hkept

end Emitter

/-! ## The result -/

theorem Assembly.builds_eq (a : Assembly) (n : Nat) :
    a.builds n = (List.range n).map fun i => (a.after i).build.1 := by
  induction n generalizing a with
  | zero => rfl
  | succ n ih =>
    rw [builds, ih, List.range_succ_eq_map, List.map_cons, List.map_map]
    rfl

theorem Assembly.after_succ (a : Assembly) (n : Nat) : a.after (n + 1) = (a.after n).build.2 := by
  induction n generalizing a with
  | zero => rfl
  | succ n ih => exact ih a.build.2

theorem Source.after_tokens (ts : List Token) (k : Nat) :
    (tokens ts).after k = tokens (ts.drop k) := by
  induction k generalizing ts with
  | zero => rfl
  | succ k ih =>
    cases ts with
    | nil =>
      have hnil := ih []
      rw [List.drop_nil] at hnil ⊢
      exact hnil
    | cons t ts => exact ih ts

theorem Source.after_text (r : Reader) (k : Nat) : (text r).after k = text (r.after k) := by
  induction k generalizing r with
  | zero => rfl
  | succ k ih => exact ih r.next.2

/-- What the builds of a list give that holds no end mark. -/
theorem Assembly.builds_of_tokens (ts : List Token) (fold : Bool) (hts : .endOfText ∉ ts) :
    let a : Assembly := { source := .tokens ts, fold }
    (∀ i q, (Token.brackets.strays 0 ts)[i]? = some q →
      (a.after i).build.1 = .error (.stray "" 0 0) ∧
      (a.after (i + 1)).source = .tokens (ts.drop (q + 1))) ∧
    SettlesFrom (Token.brackets.strays 0 ts).length fun i => (a.after i).build.1 := by
  intro a
  obtain ⟨hstrays, hsettles⟩ := a.resumes false (show a.source.EndsOnce from hts)
  simp only [rounds_false, show a.source.drain.1.map Prod.fst = ts from Source.map_drain_tokens hts]
    at hstrays hsettles
  refine ⟨?_, hsettles⟩
  intro i q hq
  obtain ⟨x, hx, hout, hsource⟩ := hstrays i q hq
  have hbehind : x.2 = .tokens (ts.drop (q + 1)) := by
    rw [Source.getElem?_drain hx, ← Source.after_tokens, Source.after_add]
    rfl
  rw [after_succ, hsource, hout, hbehind]
  exact ⟨rfl, rfl⟩

/-- What the builds of a text give. -/
theorem Assembly.builds_of_text (text : List Char) (fold : Bool) :
    let a : Assembly := { source := .text (.ofList text), fold }
    let strays := Token.brackets.strays 0 (Token.ofText text)
    (∀ i q, strays[i]? = some q → ∃ p, (Text.symbolIndices text)[q]? = some p ∧
      (a.after i).build.1 = .error (.stray (String.ofList (text.take (p + 1)))
        (Position.following (text.take p)).line (Position.following (text.take p)).column)) ∧
    SettlesFrom strays.length fun i => (a.after i).build.1 := by
  intro a strays
  obtain ⟨hstrays, hsettles⟩ := a.resumes false (show a.source.EndsOnce from trivial)
  have hmap : a.source.drain.1.map Prod.fst = Token.ofText text :=
    (Reader.stands_ofList text).map_drain
  simp only [rounds_false, hmap] at hstrays hsettles
  refine ⟨?_, hsettles⟩
  intro i q hq
  obtain ⟨x, hx, hout, -⟩ := hstrays i q hq
  obtain ⟨hsymbol, hstop⟩ := Reader.readExactly text Text.isFiller
  have hseen : (x.1, x.2.mark, x.2.consumed) = ((Reader.ofList text).after q).seen := by
    rw [Source.getElem?_drain hx, Source.after_text]
    rfl
  cases hp : (Text.symbolIndices text)[q]? with
  | some p =>
    obtain ⟨t, -, hsymbol⟩ := hsymbol q p hp
    have hx' := hseen.trans hsymbol
    rw [Prod.mk.injEq, Prod.mk.injEq] at hx'
    refine ⟨p, rfl, ?_⟩
    rw [hout, hx'.2.1, hx'.2.2]
  | none =>
    have hx' := hseen.trans (hstop q (List.getElem?_eq_none_iff.1 hp))
    rw [Prod.mk.injEq] at hx'
    exact absurd hx'.1 (Source.ne_endOfText_of_mem_drain (List.mem_of_getElem? hx))

/-- End marks are not written. -/
theorem Token.filterMap_char?_filter (ts : List Token) :
    (ts.filter (· ≠ .endOfText)).filterMap char? = ts.filterMap char? := by
  induction ts with
  | nil => rfl
  | cons t ts ih =>
    cases t with
    | endOfText => simpa [List.filterMap_cons, char?] using ih
    | command c => simpa [char?] using ih
    | loopOpen => simpa [char?] using ih
    | loopClose => simpa [char?] using ih

/-- However often an emitter builds and however each build ends, no token is lost,
repeated or moved: nothing is put back when a build has ended, the row of instructions
is written as the tokens drawn so far without the stray brackets, and what leads
nowhere in it are the open loops.  A list without end marks and a text give a report
for each stray bracket and then settle, and a program that was given is the
beginning of every later one.  All this is what an assembly gives too. -/
theorem builds_resume (s : Source) (fold : Bool) :
    let e : Emitter := { source := s, fold }
    let outcome (i : Nat) : Except LoopError Program := (e.after i).build.1
    (∀ n, (e.after n).ahead = none ∧
      (∃ k, (e.after n).source = s.after k ∧ (⟨(e.after n).code⟩ : Program).source =
        (Token.brackets.kept 0 (s.given k)).filterMap Token.char?) ∧
      unresolved (e.after n).code.toList = ((e.after n).opened.map Prod.fst).reverse) ∧
    (∀ ts, s = .tokens ts → .endOfText ∉ ts →
      (∀ i q, (Token.brackets.strays 0 ts)[i]? = some q → outcome i = .error (.stray "" 0 0) ∧
        (e.after (i + 1)).source = .tokens (ts.drop (q + 1))) ∧
      SettlesFrom (Token.brackets.strays 0 ts).length outcome) ∧
    (∀ text, s = .text (.ofList text) →
      (∀ i q, (Token.brackets.strays 0 (Token.ofText text))[i]? = some q →
        ∃ p, (Text.symbolIndices text)[q]? = some p ∧
          outcome i = .error (.stray (String.ofList (text.take (p + 1)))
            (Position.following (text.take p)).line (Position.following (text.take p)).column)) ∧
      SettlesFrom (Token.brackets.strays 0 (Token.ofText text)).length outcome) ∧
    (∀ i j p q, i < j → outcome i = .ok p → outcome j = .ok q →
      p.code.toList <+: q.code.toList) ∧
    ∀ n, ({ source := s, fold } : Assembly).builds n = (List.range n).map outcome := by
  intro e outcome
  have he : e = ({ source := s, fold } : Assembly).toEmitter := rfl
  have hafter (n : Nat) : e.after n = (({ source := s, fold } : Assembly).after n).toEmitter := by
    rw [he, Emitter.after_toEmitter]
  have houtcome : outcome = fun i => (({ source := s, fold } : Assembly).after i).build.1 := by
    funext i
    show (e.after i).build.1 = _
    rw [hafter, Emitter.build_toEmitter]
  refine ⟨?_, ?_, ?_, ?_, ?_⟩
  · intro n
    rw [hafter]
    obtain ⟨k, hsource, hsymbols, -⟩ := ({ source := s, fold } : Assembly).exists_reaches n
    refine ⟨rfl, ⟨k, hsource, ?_⟩, Draft.unresolved_layout _⟩
    show (⟨Draft.layout _⟩ : Program).source = _
    rw [Draft.source_layout, hsymbols]
    exact Token.filterMap_char?_filter _
  · rintro ts rfl hts
    rw [houtcome]
    obtain ⟨hstrays, hsettles⟩ := Assembly.builds_of_tokens ts fold hts
    refine ⟨?_, hsettles⟩
    intro i q hq
    rw [hafter]
    exact hstrays i q hq
  · rintro text rfl
    rw [houtcome]
    exact Assembly.builds_of_text text fold
  · intro i j p q hij hp hq
    exact Emitter.isPrefix_of_lt hij hp hq
  · intro n
    rw [houtcome, Assembly.builds_eq]

/-- The second stray bracket of a list and of a text, and two programs of a list with
an end mark between equal commands. -/
theorem builds_resume_behind_strays :
    (let e : Emitter := { source := .tokens [.loopClose, .command .increment, .loopClose] }
     Token.endOfText ∉ [Token.loopClose, .command .increment, .loopClose] ∧
      (Token.brackets.strays 0 [.loopClose, .command .increment, .loopClose])[1]? = some 2 ∧
      (e.after 1).build.1 = .error (.stray "" 0 0) ∧ (e.after 2).source = .tokens []) ∧
    (let e : Emitter := { source := .text (.ofList "]\n+]".toList) }
     (Token.brackets.strays 0 (Token.ofText "]\n+]".toList))[1]? = some 2 ∧
      (e.after 1).build.1 = .error (.stray "]\n+]" 2 2)) ∧
    let e : Emitter :=
      { source := .tokens [.command .increment, .endOfText, .command .increment] }
    let p : Program := ⟨#[.op (.command .increment) 1]⟩
    let q : Program := ⟨#[.op (.command .increment) 1, .op (.command .increment) 1]⟩
    (0 < 1 ∧ (e.after 0).build.1 = .ok p ∧ (e.after 1).build.1 = .ok q) ∧
      p.code.toList <+: q.code.toList := by
  have hend : Token.endOfText ∉ [Token.loopClose, .command .increment, .loopClose] := by decide
  have hlist : (Token.brackets.strays 0
      [.loopClose, .command .increment, .loopClose])[1]? = some 2 := by decide
  have htext : (Token.brackets.strays 0 (Token.ofText "]\n+]".toList))[1]? = some 2 := by decide
  refine ⟨⟨hend, hlist, ?_⟩, ⟨htext, ?_⟩, ?_⟩
  · exact ((builds_resume _ true).2.1 _ rfl hend).1 _ _ hlist
  · obtain ⟨p, hp, hout⟩ := ((builds_resume _ true).2.2.1 _ rfl).1 _ _ htext
    have hthree : (Text.symbolIndices "]\n+]".toList)[2]? = some 3 := by decide
    cases hthree.symm.trans hp
    exact hout
  · have hbuilds := (builds_resume
      (.tokens [.command .increment, .endOfText, .command .increment]) true).2.2.2.2 2
    obtain ⟨hp, hq⟩ := List.cons.inj hbuilds.symm
    have hq := (List.cons.inj hq).1
    exact ⟨⟨Nat.zero_lt_one, hp, hq⟩, (builds_resume _ true).2.2.2.1 0 1 _ _ Nat.zero_lt_one hp hq⟩

end Brainfuck
