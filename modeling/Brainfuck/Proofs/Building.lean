import Brainfuck.Program.Assembly
import Brainfuck.Proofs.Brackets
import Brainfuck.Proofs.Drafting
import Brainfuck.Proofs.Drawing

/-!
# Building from drawn tokens

A build draws tokens and adds each of them to the draft before it draws the
next one.  `Assembly.build_eq` takes the two apart: the tokens up to the end
mark are those of `Source.drain`, and `Draft.addAll` adds them one after the
other.  What a build does is then an induction on a list.

There are three such inductions.

* `addAll_keeps` carries any property that adding one token keeps.  The
  condition on counts is one (`Assembly.build_keeps_all`), and
  `exists_block_of_mem_builds` follows it through any number of builds.
* `addAll_symbols` says that the tokens are added in their order, and
  `Program.exists_block_of_ofText` what this makes of a text.
* `addAll_of_noStray` says that tokens without a stray bracket are all added,
  and how many loops are open afterwards.
-/

namespace Brainfuck

/-- The brackets among tokens. -/
def Token.brackets : Brackets Token :=
  ⟨.loopOpen, .loopClose, by decide⟩

namespace Draft

/-- Adds drawn tokens, each at the place that its source marks.  A stray
bracket stops this, with the draft before it and the source behind it. -/
def addAll (fold : Bool) :
    (continuing : Bool) → Draft → List (Token × Source) → Except (Draft × Source) Draft
  | _, d, [] => .ok d
  | continuing, d, x :: rest =>
    match d.add (fold && continuing) x.1 x.2.mark with
    | some d' => addAll fold true d' rest
    | none => .error (d, x.2)

theorem addAll_append {fold continuing : Bool} {d d' : Draft} {front : List (Token × Source)}
    (h : addAll fold continuing d front = .ok d') (rear : List (Token × Source)) :
    ∃ b, addAll fold continuing d (front ++ rear) = addAll fold b d' rear := by
  induction front generalizing continuing d with
  | nil =>
    cases h
    exact ⟨continuing, rfl⟩
  | cons x front ih =>
    cases hadd : d.add (fold && continuing) x.1 x.2.mark with
    | none =>
      simp only [addAll, hadd] at h
      cases h
    | some d₁ =>
      simp only [addAll, hadd] at h
      simp only [List.cons_append, addAll, hadd]
      exact ih h

/-- What adding one token keeps, adding tokens keeps, also when a stray bracket
stops it. -/
theorem addAll_keeps (fold continuing : Bool) {P : Draft → Prop}
    (hadd : ∀ join t position d d', (join = true → fold = true) → P d →
      d.add join t position = some d' → P d')
    {d : Draft} (hd : P d) (l : List (Token × Source)) :
    (∀ d', addAll fold continuing d l = .ok d' → P d') ∧
      ∀ d' s, addAll fold continuing d l = .error (d', s) → P d' := by
  induction l generalizing continuing d with
  | nil =>
    constructor
    · intro d' h
      cases h
      exact hd
    · intro d' s h
      cases h
  | cons x l ih =>
    cases hx : d.add (fold && continuing) x.1 x.2.mark with
    | none =>
      simp only [addAll, hx]
      constructor
      · intro d' h
        cases h
      · intro d' s h
        cases h
        exact hd
    | some d₁ =>
      simp only [addAll, hx]
      exact ih true (hadd _ _ _ _ _ (fun hj => (Bool.and_eq_true_iff.1 hj).1) hd hx)

/-- Tokens are added in their order. -/
theorem addAll_symbols {fold continuing : Bool} {d d' : Draft} {l : List (Token × Source)}
    (hl : ∀ x ∈ l, x.1 ≠ .endOfText) (h : addAll fold continuing d l = .ok d') :
    d'.symbols = d.symbols ++ l.map Prod.fst := by
  induction l generalizing continuing d with
  | nil =>
    cases h
    simp
  | cons x l ih =>
    cases hx : d.add (fold && continuing) x.1 x.2.mark with
    | none =>
      simp only [addAll, hx] at h
      cases h
    | some d₁ =>
      simp only [addAll, hx] at h
      rw [ih (fun y hy => hl y (List.mem_cons_of_mem x hy)) h,
        symbols_add (hl x List.mem_cons_self) hx, List.map_cons, List.append_assoc]
      rfl

/-- Adding a token changes the number of open loops by its depth. -/
theorem length_opened_add {join : Bool} {t : Token} {position : Position} {d d' : Draft}
    (h : d.add join t position = some d') :
    (d'.opened.length : Int) = d.opened.length + Token.brackets.depth [t] := by
  rcases add_cases h with ⟨c, rfl, rfl⟩ | ⟨rfl, rfl⟩ | ⟨k, opened, rfl, hopened, rfl⟩ | ⟨rfl, rfl⟩
  · have hzero : Token.brackets.depth [.command c] = 0 :=
      Brackets.depth_other _ (by simp [Token.brackets]) (by simp [Token.brackets])
    rw [hzero, Int.add_zero]
  · have hone : Token.brackets.depth [.loopOpen] = 1 := rfl
    rw [hone, List.length_cons]
    omega
  · have hminus : Token.brackets.depth [.loopClose] = -1 := rfl
    rw [hminus, hopened, List.length_cons]
    show (opened.length : Int) = (opened.length + 1 : Nat) + -1
    omega
  · have hzero : Token.brackets.depth [.endOfText] = 0 := rfl
    rw [hzero, Int.add_zero]

/-- Adding a token closes the innermost loop at most. -/
theorem suffix_opened_add {join : Bool} {t : Token} {position : Position} {d d' : Draft}
    {l : List OpenLoop} (h : d.add join t position = some d') (hl : l <:+ d.opened)
    (hlength : l.length ≤ d'.opened.length) : l <:+ d'.opened := by
  rcases add_cases h with ⟨c, rfl, rfl⟩ | ⟨rfl, rfl⟩ | ⟨k, opened, rfl, hopened, rfl⟩ | ⟨rfl, rfl⟩
  · exact hl
  · exact List.suffix_cons_iff.2 (Or.inr hl)
  · rw [hopened] at hl
    rcases List.suffix_cons_iff.1 hl with rfl | hsuffix
    · rw [List.length_cons] at hlength
      simp only at hlength
      omega
    · exact hsuffix
  · exact hl

/-- Tokens without a stray bracket are all added.  The loops that were open
stay so, and the depth of the tokens says how many more there are. -/
theorem addAll_of_noStray (fold continuing : Bool) (d : Draft) {l : List (Token × Source)}
    (h : Token.brackets.NoStray (l.map Prod.fst)) :
    ∃ d', addAll fold continuing d l = .ok d' ∧ d.opened <:+ d'.opened ∧
      (d'.opened.length : Int) = d.opened.length + Token.brackets.depth (l.map Prod.fst) := by
  induction l using List.reverseRecOn with
  | nil => exact ⟨d, rfl, List.suffix_refl _, by simp⟩
  | append_singleton l x ih =>
    rw [List.map_append, List.map_singleton, Brackets.noStray_append_singleton] at h
    rcases ih h.1 with ⟨d₁, hd₁, hsuffix, hlength⟩
    rcases addAll_append hd₁ [x] with ⟨b, happend⟩
    have hdepth := h.2
    rw [Brackets.depth_append] at hdepth
    rw [List.map_append, List.map_singleton, Brackets.depth_append, happend]
    cases hx : d₁.add (fold && b) x.1 x.2.mark with
    | none =>
      rcases add_eq_none_iff.1 hx with ⟨ht, hopened⟩
      have hminus : Token.brackets.depth [x.1] = -1 := by
        rw [ht]
        rfl
      rw [hopened, List.length_nil] at hlength
      omega
    | some d' =>
      have hadded := length_opened_add hx
      refine ⟨d', by simp only [addAll, hx], ?_, by omega⟩
      -- The depth is not negative, so a loop that is closed was opened by one of the tokens.
      apply suffix_opened_add hx hsuffix
      omega

end Draft

namespace Assembly

/-- What a build comes to once its tokens have been added. -/
def settle (a : Assembly) : Except (Draft × Source) Draft → Except LoopError Program × Assembly
  | .ok draft =>
    let done := { a with source := a.source.drain.2, draft }
    (done.finish, done)
  | .error (draft, source) =>
    (.error (.stray source.consumed source.mark.line source.mark.column), { a with source, draft })

private theorem absorb_eq {rounds : Nat} {continuing : Bool} {a : Assembly}
    (hrounds : a.source.size < rounds) :
    a.absorb rounds continuing =
      a.settle (a.draft.addAll a.fold continuing a.source.drain.1) := by
  induction rounds generalizing continuing a with
  | zero => omega
  | succ rounds ih =>
    by_cases hend : a.source.next.1 = .endOfText
    · rw [Source.drain_of_end hend, Draft.addAll, absorb, settle]
      simp only [hend, if_true]
      rw [Source.drain_of_end hend]
    · have hlt := a.source.next_endOfText_or_size_lt.resolve_left hend
      rw [Source.drain_of_token hend, Draft.addAll, absorb]
      simp only [hend, if_false]
      cases hadd : a.draft.add (a.fold && continuing) a.source.next.1 a.source.next.2.mark with
      | none => rfl
      | some draft =>
        simp only
        rw [ih (show a.source.next.2.size < rounds by omega)]
        cases hall : draft.addAll a.fold true a.source.next.2.drain.1 with
        | ok d => simp only [settle, Source.drain_of_token hend]
        | error e => rfl

/-- A build draws the tokens up to the end mark and adds them. -/
theorem build_eq (a : Assembly) :
    a.build = a.settle (a.draft.addAll a.fold false a.source.drain.1) :=
  absorb_eq (Nat.lt_succ_self _)

theorem build_of_ok {a : Assembly} {d : Draft}
    (h : a.draft.addAll a.fold false a.source.drain.1 = .ok d) :
    a.build.1 = ({ a with source := a.source.drain.2, draft := d } : Assembly).finish := by
  rw [build_eq, h]
  rfl

theorem build_of_error {a : Assembly} {d : Draft} {s : Source}
    (h : a.draft.addAll a.fold false a.source.drain.1 = .error (d, s)) :
    a.build.1 = .error (.stray s.consumed s.mark.line s.mark.column) := by
  rw [build_eq, h]
  rfl

/-- Behind a build that came to the end mark, all up to it has been drawn. -/
theorem source_build_of_ok {a : Assembly} {d : Draft}
    (h : a.draft.addAll a.fold false a.source.drain.1 = .ok d) :
    a.build.2.source = a.source.drain.2 := by
  rw [build_eq, h]
  rfl

/-- Behind a build that came to a stray bracket, nothing further has been drawn. -/
theorem source_build_of_error {a : Assembly} {d : Draft} {s : Source}
    (h : a.draft.addAll a.fold false a.source.drain.1 = .error (d, s)) :
    a.build.2.source = s := by
  rw [build_eq, h]
  rfl

theorem finish_eq_ok_iff {a : Assembly} {p : Program} :
    a.finish = .ok p ↔ a.draft.opened = [] ∧ p = a.draft.program := by
  unfold finish
  split
  · rename_i hopened
    simp only [hopened, Except.ok.injEq, true_and, eq_comm]
  · rename_i hopened
    simp [hopened]

/-- A build keeps a condition on counts, in the draft and in the program. -/
theorem build_keeps_all {a : Assembly} {q : Nat → Prop} (hone : q 1)
    (hjoin : a.fold = true → ∀ n, q n → q (n + 1)) (h : a.draft.All q) :
    (∀ p, a.build.1 = .ok p → ∃ b : Block, p = .ofBlock b ∧ b.All q) ∧ a.build.2.draft.All q := by
  obtain ⟨hok, herror⟩ := Draft.addAll_keeps a.fold false (P := Draft.All q)
    (fun _ _ _ _ _ hj hd hadd => Draft.all_add hone (fun h => hjoin (hj h)) hadd hd)
    h a.source.drain.1
  rw [build_eq]
  cases hall : a.draft.addAll a.fold false a.source.drain.1 with
  | ok d =>
    refine ⟨?_, hok d hall⟩
    intro p hp
    rcases finish_eq_ok_iff.1 hp with ⟨-, rfl⟩
    exact ⟨_, rfl, (hok d hall).1⟩
  | error e =>
    refine ⟨?_, herror e.1 e.2 hall⟩
    intro p hp
    cases hp

@[simp] theorem fold_build (a : Assembly) : a.build.2.fold = a.fold := by
  rw [build_eq]
  cases a.draft.addAll a.fold false a.source.drain.1 <;> rfl

/-- All builds keep a condition on counts. -/
theorem exists_block_of_mem_builds {a : Assembly} {q : Nat → Prop} {n : Nat} {p : Program}
    (hone : q 1) (hjoin : a.fold = true → ∀ n, q n → q (n + 1)) (h : a.draft.All q)
    (hp : .ok p ∈ a.builds n) : ∃ b : Block, p = .ofBlock b ∧ b.All q := by
  induction n generalizing a with
  | zero => cases hp
  | succ n ih =>
    rcases build_keeps_all hone hjoin h with ⟨hprogram, hdraft⟩
    simp only [builds, List.mem_cons] at hp
    rcases hp with hp | hp
    · exact hprogram p hp.symm
    · exact ih (by rwa [fold_build]) hdraft hp

end Assembly

/-- The program of a text is the layout of a block with the symbols of the
text.  Its counts are positive, and they are one if nothing is joined. -/
theorem Program.exists_block_of_ofText {text : List Char} {fold : Bool} {p : Program}
    (h : ofText text fold = .ok p) :
    ∃ b : Block, p = .ofBlock b ∧ b.symbols = Token.ofText text ∧ b.All (1 ≤ ·) ∧
      (fold = false → b.All (· = 1)) := by
  let a : Assembly := { source := .text (.ofList text), fold }
  have hbuild : a.build.1 = .ok p := h
  obtain ⟨hall, herror⟩ := Draft.addAll_keeps fold false
    (P := fun d => d.All (1 ≤ ·) ∧ (fold = false → d.All (· = 1)))
    (fun join t position d d' hj hd hadd =>
      ⟨Draft.all_add (Nat.le_refl 1) (fun _ n hn => Nat.le_succ_of_le hn) hadd hd.1,
        fun hf => Draft.all_add rfl (fun hjoin => by simp [hj hjoin] at hf) hadd (hd.2 hf)⟩)
    ⟨Draft.all_empty _, fun _ => Draft.all_empty _⟩ a.source.drain.1
  cases hd : a.draft.addAll a.fold false a.source.drain.1 with
  | error e =>
    rw [Assembly.build_of_error hd] at hbuild
    cases hbuild
  | ok d =>
    rw [Assembly.build_of_ok hd] at hbuild
    rcases Assembly.finish_eq_ok_iff.1 hbuild with ⟨hopened, rfl⟩
    have hsymbols := Draft.addAll_symbols (fun x hx => Source.ne_endOfText_of_mem_drain hx) hd
    rw [(Reader.stands_ofList text).map_drain] at hsymbols
    refine ⟨.ofReversed d.items, rfl, ?_, (hall d hd).1.1, fun hf => ((hall d hd).2 hf).1⟩
    have hitems : d.symbols = (Block.ofReversed d.items).symbols := by
      rw [Draft.symbols, show d.opened = [] from hopened]
      rfl
    rw [← hitems, hsymbols]
    rfl

end Brainfuck
