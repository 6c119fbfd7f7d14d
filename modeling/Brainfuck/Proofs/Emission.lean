import Brainfuck.Program.Emitter
import Brainfuck.Proofs.Building

/-!
# Two ways of building

An emitter builds the same programs as an assembly, and reports the same errors.
Its row of instructions is a function of what the assembly keeps: the levels
laid out one behind the other, each open loop by a bracket that leads nowhere.

* `Draft.layout` is that row, and `Assembly.toEmitter` the emitter that belongs
  to an assembly.
* `Assembly.goOn` is a build from its middle, and `goOn_of_end`, `goOn_of_add` and
  `goOn_of_stray` say what the next token does to it.
* `Emitter.exists_run` follows an emitter through a run of equal commands, at the
  end of which it is one token ahead of the assembly.
* `Emitter.Alike` is what holds of emitter and assembly before each token, and
  `Alike.command`, `Alike.openLoop` and `Alike.closeLoop` lead from one token to the
  next one.
* `Emitter.build_toEmitter` is the result for one build, and
  `Emitter.after_toEmitter` for any number of them.
* `Emitter.build_keeps` carries a property of the row through a build.
-/

namespace Brainfuck

/-! ## The row of a draft -/

theorem Block.emit_ofReversed_cons (i : Item) (items : List Item) (before : Array Instruction) :
    (ofReversed (i :: items)).emit before = (cons i nil).emit ((ofReversed items).emit before) := by
  have hfold (items : List Item) (b : Block) : (items.foldl (fun b i => cons i b) b).emit before =
      b.emit ((ofReversed items).emit before) := by
    induction items generalizing b with
    | nil => rfl
    | cons i items ih =>
      rw [ofReversed, List.foldl_cons, List.foldl_cons, ih, ih]
      cases i <;> rfl
  exact hfold items (cons i nil)

namespace Draft

/-- The instructions before the innermost level of open loops. -/
def outer : List OpenLoop → Array Instruction
  | [] => #[]
  | l :: opened => ((Block.ofReversed l.before).emit (outer opened)).push (.jump .loopOpen (-1))

/-- The instructions of a draft.  The brackets of open loops lead nowhere. -/
def layout (d : Draft) : Array Instruction :=
  (Block.ofReversed d.items).emit (outer d.opened)

/-- The indices of the brackets of open loops in the layout, with their places. -/
def starts : List OpenLoop → List (Nat × Position)
  | [] => []
  | l :: opened => (((Block.ofReversed l.before).emit (outer opened)).size, l.position) ::
      starts opened

theorem addCommand_false (c : Command) (items : List Block.Item) :
    addCommand false c items = .op c 1 :: items := by
  rcases addCommand_cases false c items with h | ⟨_, _, hjoin, -⟩
  · exact h
  · cases hjoin

theorem length_starts (opened : List OpenLoop) : (starts opened).length = opened.length := by
  induction opened with
  | nil => rfl
  | cons l opened ih => rw [starts, List.length_cons, List.length_cons, ih]

theorem layout_command (c : Command) (n : Nat) (items : List Block.Item) (opened : List OpenLoop) :
    layout { items := .op c n :: items, opened } =
      (layout { items, opened }).push (.op (.command c) n) :=
  Block.emit_ofReversed_cons _ _ _

theorem layout_close (items : List Block.Item) (l : OpenLoop) (opened : List OpenLoop) :
    let start := ((Block.ofReversed l.before).emit (outer opened)).size
    let d : Draft := { items, opened := l :: opened }
    layout { items := .loop (.ofReversed items) :: l.before, opened } =
      (d.layout.push (.jump .loopClose start)).setIfInBounds start
        (.jump .loopOpen d.layout.size) :=
  Block.emit_ofReversed_cons _ _ _

end Draft

/-! ## The build of an assembly, token by token -/

namespace Assembly

/-- The rest of a build.  `continuing` says whether a token has been drawn in it already. -/
def goOn (a : Assembly) (continuing : Bool) : Except LoopError Program × Assembly :=
  a.settle (a.draft.addAll a.fold continuing a.source.drain.1)

variable {a : Assembly} {continuing : Bool}

theorem goOn_false (a : Assembly) : a.goOn false = a.build :=
  a.build_eq.symm

theorem goOn_of_end (h : a.source.next.1 = .endOfText) :
    a.goOn continuing =
      (({ a with source := a.source.next.2 } : Assembly).finish,
        { a with source := a.source.next.2 }) := by
  unfold goOn
  rw [Source.drain_of_end h]
  simp only [Draft.addAll, settle, Source.drain_of_end h]

theorem goOn_of_add {d : Draft} (h : a.source.next.1 ≠ .endOfText)
    (hadd : a.draft.add (a.fold && continuing) a.source.next.1 a.source.next.2.mark = some d) :
    a.goOn continuing =
      ({ a with source := a.source.next.2, draft := d } : Assembly).goOn true := by
  unfold goOn
  rw [Source.drain_of_token h]
  simp only [Draft.addAll, hadd]
  cases hall : d.addAll a.fold true a.source.next.2.drain.1 with
  | ok d' => simp only [settle, Source.drain_of_token h]
  | error x => rfl

theorem goOn_of_stray (h : a.source.next.1 ≠ .endOfText)
    (hadd : a.draft.add (a.fold && continuing) a.source.next.1 a.source.next.2.mark = none) :
    a.goOn continuing = (.error (.stray a.source.next.2.consumed a.source.next.2.mark.line
      a.source.next.2.mark.column), { a with source := a.source.next.2 }) := by
  unfold goOn
  rw [Source.drain_of_token h]
  simp only [Draft.addAll, hadd, settle]

/-- The assembly after `n` builds, one after the other. -/
def after (a : Assembly) : (n : Nat) → Assembly
  | 0 => a
  | n + 1 => a.build.2.after n

/-- The emitter that has built what the assembly has. -/
def toEmitter (a : Assembly) : Emitter where
  source := a.source
  fold := a.fold
  code := a.draft.layout
  opened := Draft.starts a.draft.opened

theorem toEmitter_command (a : Assembly) (c : Command) (n : Nat) :
    ({ a with draft.items := .op c n :: a.draft.items } : Assembly).toEmitter =
      { a.toEmitter with code := a.toEmitter.code.push (.op (.command c) n) } := by
  unfold toEmitter
  simp only [Draft.layout_command]

theorem toEmitter_close {l : OpenLoop} {opened : List OpenLoop} (h : a.draft.opened = l :: opened) :
    ∃ start, a.toEmitter.opened = (start, l.position) :: Draft.starts opened ∧
      ({ a with draft := { items := .loop (.ofReversed a.draft.items) :: l.before, opened } } :
        Assembly).toEmitter = a.toEmitter.closeLoop start (Draft.starts opened) := by
  have hdraft : a.draft = { items := a.draft.items, opened := l :: opened } := by rw [← h]
  refine ⟨((Block.ofReversed l.before).emit (Draft.outer opened)).size, ?_, ?_⟩
  · show Draft.starts a.draft.opened = _
    rw [h]
    rfl
  · unfold toEmitter Emitter.closeLoop
    rw [hdraft]
    simp only [Draft.layout_close]

theorem finish_toEmitter (a : Assembly) : a.toEmitter.finish = a.finish := by
  unfold Emitter.finish finish toEmitter
  cases hopened : a.draft.opened with
  | nil =>
    simp only [Draft.starts, Draft.program, Draft.layout, hopened, Draft.outer]
    rfl
  | cons l opened =>
    simp only [Draft.starts, Draft.length_starts]

end Assembly

/-! ## The build of an emitter, token by token -/

namespace Emitter

variable {e : Emitter}

theorem build_of_end (h : e.draw.1 = .endOfText) : e.build = (e.draw.2.finish, e.draw.2) := by
  unfold build
  split <;> simp_all

theorem build_of_command {c : Command} (h : e.draw.1 = .command c) :
    e.build = (e.draw.2.command c).build := by
  rw [build]
  split <;> simp_all

theorem build_of_open (h : e.draw.1 = .loopOpen) : e.build = e.draw.2.openLoop.build := by
  rw [build]
  split <;> simp_all

theorem build_of_stray (h : e.draw.1 = .loopClose) (hopened : e.draw.2.opened = []) :
    e.build = (.error (.stray e.draw.2.source.consumed e.draw.2.source.mark.line
      e.draw.2.source.mark.column), e.draw.2) := by
  unfold build
  split <;> simp_all

theorem build_of_close {l : Nat × Position} {opened : List (Nat × Position)}
    (h : e.draw.1 = .loopClose) (hopened : e.draw.2.opened = l :: opened) :
    e.build = (e.draw.2.closeLoop l.1 opened).build := by
  rw [build]
  split <;> simp_all

theorem draw_of_none (h : e.ahead = none) :
    e.draw = (e.source.next.1, { e with source := e.source.next.2 }) := by
  unfold draw
  rw [h]

/-- A run of equal commands.  The emitter has drawn the token behind it, where the
assembly is about to draw that token. -/
theorem exists_run (c : Command) (k : Nat) (h : e.ahead = none) :
    ∃ n s, e.countRun c k = (n, { e with source := s.next.2, ahead := some s.next.1 }) ∧
      s.next.1 ≠ .command c ∧ s.size ≤ e.source.size ∧
      ∀ (a : Assembly) (items : List Block.Item), a.fold = true → a.source = e.source →
        a.draft.items = .op c k :: items →
        a.goOn true =
          ({ a with source := s, draft := { a.draft with items := .op c n :: items } } :
            Assembly).goOn true := by
  fun_induction countRun c k e with
  | case1 k e hdraw ih =>
    have hnone := e.ahead_draw
    obtain ⟨n, s, hrun, hbehind, hsize, hgoOn⟩ := ih hnone
    rw [draw_of_none h] at hdraw hrun hsize hgoOn
    refine ⟨n, s, ?_, hbehind, Nat.le_trans hsize e.source.size_next_le, ?_⟩
    · rw [draw_of_none h]
      exact hrun
    intro a items hfold hsource hitems
    have hadd : a.draft.add (a.fold && true) a.source.next.1 a.source.next.2.mark =
        some { a.draft with items := .op c (k + 1) :: items } := by
      rw [hsource, hdraw, hfold, Draft.add, hitems]
      simp [Draft.addCommand]
    rw [Assembly.goOn_of_add (by rw [hsource, hdraw]; simp) hadd]
    exact hgoOn _ items hfold (by rw [hsource]) rfl
  | case2 k e hdraw =>
    rw [draw_of_none h] at hdraw ⊢
    refine ⟨k, e.source, rfl, hdraw, Nat.le_refl _, ?_⟩
    intro a items hfold hsource hitems
    rw [← hsource, ← hitems]

/-- The emitter is about to draw what the assembly draws, and a command that comes next
is not joined to what has been put down. -/
structure Alike (e : Emitter) (a : Assembly) (continuing : Bool) : Prop where
  draw : e.draw = (a.source.next.1, { a.toEmitter with source := a.source.next.2 })
  first : ∀ c, a.source.next.1 = .command c →
    Draft.addCommand (a.fold && continuing) c a.draft.items = .op c 1 :: a.draft.items

/-- The emitter, with a token drawn, has come to where the rest of the build of `a` is
that of an assembly with fewer tokens to come. -/
def Advances (e : Emitter) (a : Assembly) (continuing : Bool) : Prop :=
  ∃ a' : Assembly, Alike e a' true ∧ a.goOn continuing = a'.goOn true ∧
    a'.source.size < a.source.size

section Tokens

variable {a : Assembly} {continuing : Bool}

/-- Behind a command both have put down one instruction.  If commands are joined the
emitter stops one token behind the run, so the assembly is taken there too. -/
theorem Alike.command {c : Command} (h : Alike e a continuing)
    (hnext : a.source.next.1 = .command c) : Advances (e.draw.2.command c) a continuing := by
  have hend : a.source.next.1 ≠ .endOfText := by simp [hnext]
  have hlt := a.source.next_endOfText_or_size_lt.resolve_left hend
  have hadd : a.draft.add (a.fold && continuing) a.source.next.1 a.source.next.2.mark =
      some { a.draft with items := .op c 1 :: a.draft.items } := by
    rw [hnext, Draft.add, h.first c hnext]
  unfold Advances
  rw [h.draw, Assembly.goOn_of_add hend hadd]
  let a₁ : Assembly :=
    { a with source := a.source.next.2, draft.items := .op c 1 :: a.draft.items }
  show ∃ a' : Assembly, Alike (Emitter.command { a.toEmitter with source := a.source.next.2 } c)
    a' true ∧ a₁.goOn true = a'.goOn true ∧ a'.source.size < a.source.size
  by_cases hfold : a.fold = true
  · obtain ⟨n, s, hrun, hbehind, hsize, hgoOn⟩ :=
      exists_run (e := { a.toEmitter with source := a.source.next.2 }) c 1 rfl
    have hcommand : Emitter.command { a.toEmitter with source := a.source.next.2 } c =
        { ({ a with source := s, draft.items := .op c n :: a.draft.items } :
            Assembly).toEmitter with
          source := s.next.2
          ahead := some s.next.1 } := by
      rw [Assembly.toEmitter_command { a with source := s }]
      unfold Emitter.command
      rw [if_pos (show a.toEmitter.fold = true from hfold), hrun]
      rfl
    rw [hcommand]
    refine ⟨_, ⟨rfl, ?_⟩, hgoOn a₁ a.draft.items hfold rfl rfl, ?_⟩
    · intro k hk
      have hne : c ≠ k := by
        rintro rfl
        exact hbehind hk
      simp [Draft.addCommand, hne]
    · exact Nat.lt_of_le_of_lt hsize hlt
  · rw [Bool.not_eq_true] at hfold
    have hcommand : Emitter.command { a.toEmitter with source := a.source.next.2 } c =
        a₁.toEmitter := by
      rw [Assembly.toEmitter_command { a with source := a.source.next.2 }]
      unfold Emitter.command
      rw [if_neg (by simp [Assembly.toEmitter, hfold])]
      rfl
    rw [hcommand]
    refine ⟨a₁, ⟨rfl, ?_⟩, rfl, hlt⟩
    intro k _
    rw [show a₁.fold = false from hfold, Bool.false_and]
    exact Draft.addCommand_false k _

theorem Alike.openLoop (h : Alike e a continuing) (hnext : a.source.next.1 = .loopOpen) :
    Advances e.draw.2.openLoop a continuing := by
  have hend : a.source.next.1 ≠ .endOfText := by simp [hnext]
  have hlt := a.source.next_endOfText_or_size_lt.resolve_left hend
  have hadd : a.draft.add (a.fold && continuing) a.source.next.1 a.source.next.2.mark =
      some { items := [], opened := ⟨a.source.next.2.mark, a.draft.items⟩ :: a.draft.opened } := by
    rw [hnext, Draft.add]
  unfold Advances
  rw [h.draw, Assembly.goOn_of_add hend hadd]
  exact ⟨_, ⟨rfl, fun _ _ => rfl⟩, rfl, hlt⟩

theorem Alike.closeLoop {l : OpenLoop} {opened : List OpenLoop} (h : Alike e a continuing)
    (hnext : a.source.next.1 = .loopClose) (hopened : a.draft.opened = l :: opened) :
    ∃ start, e.draw.2.opened = (start, l.position) :: Draft.starts opened ∧
      Advances (e.draw.2.closeLoop start (Draft.starts opened)) a continuing := by
  have hend : a.source.next.1 ≠ .endOfText := by simp [hnext]
  have hlt := a.source.next_endOfText_or_size_lt.resolve_left hend
  have hadd : a.draft.add (a.fold && continuing) a.source.next.1 a.source.next.2.mark =
      some { items := .loop (.ofReversed a.draft.items) :: l.before, opened } := by
    rw [hnext, Draft.add, hopened]
  have hafter : ({ a with source := a.source.next.2 } : Assembly).draft.opened = l :: opened :=
    hopened
  obtain ⟨start, hstart, hclose⟩ := Assembly.toEmitter_close hafter
  unfold Advances
  rw [h.draw, Assembly.goOn_of_add hend hadd]
  exact ⟨start, hstart, _, ⟨hclose ▸ rfl, fun _ _ => rfl⟩, rfl, hlt⟩

/-- An emitter that draws what an assembly does goes on as it does. -/
theorem build_eq_goOn (h : Alike e a continuing) :
    e.build = ((a.goOn continuing).1, (a.goOn continuing).2.toEmitter) := by
  induction hn : a.source.size using Nat.strongRecOn generalizing a e continuing with
  | ind n ih =>
  have hadvance {e' : Emitter} (h' : Advances e' a continuing) :
      e'.build = ((a.goOn continuing).1, (a.goOn continuing).2.toEmitter) := by
    obtain ⟨a', halike, hgoOn, hlt⟩ := h'
    rw [hgoOn]
    exact ih _ (hn ▸ hlt) halike rfl
  have htoken : e.draw.1 = a.source.next.1 := by rw [h.draw]
  cases hnext : a.source.next.1 with
  | endOfText =>
    rw [build_of_end (htoken.trans hnext), h.draw, Assembly.goOn_of_end hnext]
    simp only [← Assembly.finish_toEmitter]
    rfl
  | command c =>
    rw [build_of_command (htoken.trans hnext)]
    exact hadvance (h.command hnext)
  | loopOpen =>
    rw [build_of_open (htoken.trans hnext)]
    exact hadvance (h.openLoop hnext)
  | loopClose =>
    cases hopened : a.draft.opened with
    | nil =>
      have hend : a.source.next.1 ≠ .endOfText := by simp [hnext]
      have hadd : a.draft.add (a.fold && continuing) a.source.next.1 a.source.next.2.mark = none :=
        Draft.add_eq_none_iff.2 ⟨hnext, hopened⟩
      have hnone : e.draw.2.opened = [] := by
        rw [h.draw]
        show Draft.starts a.draft.opened = []
        rw [hopened]
        rfl
      rw [build_of_stray (htoken.trans hnext) hnone, h.draw, Assembly.goOn_of_stray hend hadd]
      rfl
    | cons l opened =>
      obtain ⟨start, hstart, hclose⟩ := h.closeLoop hnext hopened
      rw [build_of_close (htoken.trans hnext) hstart]
      exact hadvance hclose

end Tokens

/-- An emitter builds what an assembly does, and is left where the assembly is. -/
theorem build_toEmitter (a : Assembly) :
    a.toEmitter.build = (a.build.1, a.build.2.toEmitter) := by
  rw [← Assembly.goOn_false]
  refine build_eq_goOn ⟨rfl, ?_⟩
  intro c _
  rw [Bool.and_false]
  exact Draft.addCommand_false c _

theorem after_toEmitter (a : Assembly) (n : Nat) :
    a.toEmitter.after n = (a.after n).toEmitter := by
  induction n generalizing a with
  | zero => rfl
  | succ n ih => rw [after, build_toEmitter, Assembly.after, ih]

/-! ## What a build keeps -/

theorem draw_keeps (e : Emitter) : e.draw.2.code = e.code ∧ e.draw.2.opened = e.opened := by
  unfold draw
  split <;> exact ⟨rfl, rfl⟩

theorem countRun_keeps (c : Command) (count : Nat) (e : Emitter) :
    (e.countRun c count).2.code = e.code ∧ (e.countRun c count).2.opened = e.opened := by
  fun_induction countRun c count e with
  | case1 count e h ih => rwa [e.draw_keeps.1, e.draw_keeps.2] at ih
  | case2 count e h => exact e.draw_keeps

theorem exists_command (e : Emitter) (c : Command) :
    ∃ n : Nat, (e.command c).code = e.code.push (.op (.command c) n) ∧
      (e.command c).opened = e.opened := by
  unfold command
  split
  · obtain ⟨hcode, hopened⟩ := e.countRun_keeps c 1
    exact ⟨(e.countRun c 1).1, by simp only [hcode], hopened⟩
  · exact ⟨1, rfl, rfl⟩

/-- What each instruction that is put down keeps, a build keeps, however it ends. -/
theorem build_keeps {P : Array Instruction → List (Nat × Position) → Prop}
    (hcommand : ∀ code opened c n, P code opened → P (code.push (.op (.command c) n)) opened)
    (hopen : ∀ code opened place, P code opened →
      P (code.push (.jump .loopOpen (-1))) ((code.size, place) :: opened))
    (hclose : ∀ code l opened, P code (l :: opened) →
      P ((code.push (.jump .loopClose l.1)).setIfInBounds l.1 (.jump .loopOpen code.size)) opened)
    {e : Emitter} (h : P e.code e.opened) : P e.build.2.code e.build.2.opened := by
  fun_induction build e with
  | case1 e hdraw =>
    rw [e.draw_keeps.1, e.draw_keeps.2]
    exact h
  | case2 e c hdraw ih =>
    apply ih
    obtain ⟨n, hcode, hopened⟩ := e.draw.2.exists_command c
    rw [hcode, hopened, e.draw_keeps.1, e.draw_keeps.2]
    exact hcommand _ _ c n h
  | case3 e hdraw ih =>
    apply ih
    unfold openLoop
    rw [e.draw_keeps.1, e.draw_keeps.2]
    exact hopen _ _ _ h
  | case4 e hdraw hopened =>
    rw [e.draw_keeps.1, e.draw_keeps.2]
    exact h
  | case5 e hdraw l opened hopened ih =>
    apply ih
    unfold closeLoop
    rw [e.draw_keeps.2] at hopened
    rw [e.draw_keeps.1]
    rw [hopened] at h
    exact hclose _ _ _ h

theorem code_of_build_ok {e : Emitter} {p : Program} (h : e.build.1 = .ok p) :
    e.build.2.code = p.code ∧ e.build.2.opened = [] := by
  fun_induction build e with
  | case1 e hdraw =>
    unfold finish at h
    split at h
    · cases h
      exact ⟨rfl, ‹_›⟩
    · cases h
  | case2 e c hdraw ih => exact ih h
  | case3 e hdraw ih => exact ih h
  | case4 e hdraw hopened => cases h
  | case5 e hdraw l opened hopened ih => exact ih h

end Emitter

end Brainfuck
