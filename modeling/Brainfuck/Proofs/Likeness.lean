import Brainfuck.Proofs.Building

/-!
# Builds of the same tokens

Where a token stands has a part in a report only.  Two sources that give the same
tokens, from whatever places, build the same program or are refused for the same
reason.

* `Draft.Alike` relates drafts that differ in places only, and `Draft.Alike.add` is the
  step that keeps it.
* `Draft.Alike.addAll` is the induction on the tokens, and
  `Assembly.build_alike` what it makes of a build.
-/

namespace Brainfuck

/-- The same program, or reports that say the same of the brackets, if perhaps of
another place. -/
def BuildsAlike : Except LoopError Program → Except LoopError Program → Prop
  | .ok p, .ok q => p = q
  | .error e, .error f => e.kind = f.kind ∧ e.detail = f.detail
  | _, _ => False

namespace BuildsAlike

variable {x y : Except LoopError Program}

theorem ok_iff (h : BuildsAlike x y) (p : Program) : x = .ok p ↔ y = .ok p := by
  cases x with
  | ok q =>
    cases y with
    | ok q' =>
      obtain rfl : q = q' := h
      rfl
    | error e => cases h
  | error e =>
    cases y with
    | ok q => cases h
    | error e' => exact iff_of_false nofun nofun

theorem exists_error (h : BuildsAlike x y) {e : LoopError} (hx : x = .error e) :
    ∃ f, y = .error f ∧ e.kind = f.kind ∧ e.detail = f.detail := by
  subst hx
  cases y with
  | ok q => cases h
  | error f => exact ⟨f, rfl, h⟩

end BuildsAlike

namespace Draft

/-- The drafts differ in the places of open loops only. -/
structure Alike (d d' : Draft) : Prop where
  items : d.items = d'.items
  before : d.opened.map OpenLoop.before = d'.opened.map OpenLoop.before

variable {d d' : Draft}

theorem Alike.refl (d : Draft) : d.Alike d :=
  ⟨rfl, rfl⟩

theorem Alike.length_opened (h : d.Alike d') : d.opened.length = d'.opened.length := by
  rw [← List.length_map OpenLoop.before, h.before, List.length_map]

/-- A token that is added to one draft is added to the other. -/
theorem Alike.add {join : Bool} {t : Token} {position : Position} {d₁ : Draft} (h : d.Alike d')
    (hadd : d.add join t position = some d₁) (position' : Position) :
    ∃ d₁', d'.add join t position' = some d₁' ∧ d₁.Alike d₁' := by
  rcases add_cases hadd with
    ⟨c, rfl, rfl⟩ | ⟨rfl, rfl⟩ | ⟨l, opened, rfl, hopened, rfl⟩ | ⟨rfl, rfl⟩
  · exact ⟨_, rfl, congrArg (addCommand join c) h.items, h.before⟩
  · refine ⟨_, rfl, rfl, ?_⟩
    rw [List.map_cons, List.map_cons, h.items, h.before]
  · have hbefore := h.before
    rw [hopened, List.map_cons] at hbefore
    obtain ⟨l', opened', hopened', hl, hrest⟩ := List.map_eq_cons_iff.1 hbefore.symm
    refine ⟨{ items := .loop (.ofReversed d'.items) :: l'.before, opened := opened' }, ?_, ?_, ?_⟩
    · rw [Draft.add, hopened']
    · rw [h.items, hl]
    · exact hrest.symm
  · exact ⟨d', rfl, h⟩

/-- The same tokens are added to drafts that are alike, or are refused by both. -/
theorem Alike.addAll (h : d.Alike d') (fold continuing : Bool) {l l' : List (Token × Source)}
    (hl : l.map Prod.fst = l'.map Prod.fst) :
    (∀ d₁, d.addAll fold continuing l = .ok d₁ →
      ∃ d₁', d'.addAll fold continuing l' = .ok d₁' ∧ d₁.Alike d₁') ∧
    ∀ x, d.addAll fold continuing l = .error x →
      ∃ x', d'.addAll fold continuing l' = .error x' := by
  induction l generalizing continuing d d' l' with
  | nil =>
    obtain rfl : l' = [] := List.map_eq_nil_iff.1 hl.symm
    constructor
    · intro d₁ hd
      cases hd
      exact ⟨d', rfl, h⟩
    · intro x hx
      cases hx
  | cons x l ih =>
    rw [List.map_cons] at hl
    obtain ⟨x', rest, rfl, hx, hrest⟩ := List.map_eq_cons_iff.1 hl.symm
    simp only [Draft.addAll]
    rw [hx]
    cases hadd : d.add (fold && continuing) x.1 x.2.mark with
    | some d₁ =>
      obtain ⟨d₁', hadd', halike⟩ := h.add hadd x'.2.mark
      rw [hadd']
      exact ih halike true hrest.symm
    | none =>
      obtain ⟨hclose, hopened⟩ := add_eq_none_iff.1 hadd
      have hlength := h.length_opened
      rw [hopened, List.length_nil] at hlength
      have hadd' : d'.add (fold && continuing) x.1 x'.2.mark = none :=
        add_eq_none_iff.2 ⟨hclose, List.eq_nil_of_length_eq_zero hlength.symm⟩
      rw [hadd']
      constructor
      · intro d₁ hd
        cases hd
      · intro _ _
        exact ⟨_, rfl⟩

end Draft

namespace Assembly

variable {a b : Assembly}

/-- At the end mark both are programs, or have the same number of loops open. -/
theorem finish_alike (h : a.draft.Alike b.draft) : BuildsAlike a.finish b.finish := by
  have hlength := h.length_opened
  unfold finish
  cases ha : a.draft.opened with
  | nil =>
    rw [ha, List.length_nil] at hlength
    rw [List.eq_nil_of_length_eq_zero hlength.symm]
    show a.draft.program = b.draft.program
    rw [Draft.program, Draft.program, h.items]
  | cons l opened =>
    rw [ha, List.length_cons] at hlength
    cases hb : b.draft.opened with
    | nil =>
      rw [hb, List.length_nil] at hlength
      omega
    | cons l' opened' =>
      rw [hb, List.length_cons, Nat.add_right_cancel_iff] at hlength
      refine ⟨rfl, ?_⟩
      simp only [LoopError.leftOpen, LoopError.locate, hlength]

/-- The same tokens build alike. -/
theorem build_alike (hfold : a.fold = b.fold) (hdraft : a.draft.Alike b.draft)
    (htokens : a.source.drain.1.map Prod.fst = b.source.drain.1.map Prod.fst) :
    BuildsAlike a.build.1 b.build.1 := by
  obtain ⟨hok, herror⟩ := hdraft.addAll a.fold false htokens
  cases hadd : a.draft.addAll a.fold false a.source.drain.1 with
  | ok d =>
    obtain ⟨d', hadd', halike⟩ := hok d hadd
    rw [build_of_ok hadd, build_of_ok (hfold ▸ hadd')]
    exact finish_alike halike
  | error x =>
    obtain ⟨x', hadd'⟩ := herror x hadd
    rw [build_of_error hadd, build_of_error (hfold ▸ hadd')]
    exact ⟨rfl, rfl⟩

end Assembly

/-- Texts that spell the same tokens build alike. -/
theorem Program.ofText_alike {text text' : List Char} (h : Token.ofText text = Token.ofText text')
    (fold : Bool) : BuildsAlike (ofText text fold) (ofText text' fold) := by
  let a : Assembly := { source := .text (.ofList text), fold }
  let b : Assembly := { source := .text (.ofList text'), fold }
  have hmap := (Reader.stands_ofList text).map_drain
  have hmap' := (Reader.stands_ofList text').map_drain
  exact Assembly.build_alike (a := a) (b := b) rfl (.refl {}) ((hmap.trans h).trans hmap'.symm)

end Brainfuck
