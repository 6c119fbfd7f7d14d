import Brainfuck.Proofs.Layout
import Brainfuck.Proofs.Spelling
import Mathlib.Data.List.Chain

/-!
# Programs that are what their text builds

A program is written as a text and built again.  It comes back if and only if it
is what some text builds, and `Program.Canonical` says which programs these are,
by their instructions.

* `Emitter.isChain_build`: a build joins all commands that can be joined.  The
  step is one token of the build, with the next token known to be another one
  than the command put down last.
* `Draft.addAll_symbols_of_tight`: adding the symbols of a block to a draft puts
  the very items of the block behind those of the draft, provided that its counts
  are those that building gives (`Block.Tight`).  The induction is on the block.

A canonical program is the layout of a block (`Program.exists_block_of_wellNested`),
so the second of these rebuilds it, and the first says that nothing else comes back.
-/

namespace Brainfuck

/-- The instructions do not repeat the same token. -/
def Instruction.Unlike (x y : Instruction) : Prop :=
  ∀ (k : Token) (m n : Int), x = .op k m → y ≠ .op k n

theorem Instruction.unlike_jump (x : Instruction) (k : Token) (t : Int) :
    x.Unlike (.jump k t) := by
  intro _ _ _ _ h
  cases h

theorem Instruction.jump_unlike (k : Token) (t : Int) (y : Instruction) :
    (jump k t).Unlike y := by
  intro _ _ _ h
  cases h

/-- The program is what a text can build: its loops are resolved, and its commands
are joined wherever they can be, or else not at all. -/
structure Program.Canonical (fold : Bool) (p : Program) : Prop where
  /-- Commands come at least once, and brackets jump to their partners. -/
  wellNested : p.WellNested
  /-- Neighbours repeat different commands. -/
  runs : fold = true → p.code.toList.IsChain Instruction.Unlike
  /-- Each command comes once. -/
  ones : fold = false → ∀ (k : Token) (n : Int), .op k n ∈ p.code → n = 1

/-! ## A build joins what it can -/

namespace Emitter

theorem fold_draw (e : Emitter) : e.draw.2.fold = e.fold := by
  unfold draw
  split <;> rfl

/-- What is drawn does not depend on what has been put down. -/
theorem draw_of_code (e : Emitter) (code : Array Instruction) :
    ({ e with code } : Emitter).draw.1 = e.draw.1 := by
  unfold draw
  cases e.ahead <;> rfl

theorem fold_countRun (c : Command) (count : Nat) (e : Emitter) :
    (e.countRun c count).2.fold = e.fold := by
  fun_induction countRun c count e with
  | case1 count e h ih => rw [ih, fold_draw]
  | case2 count e h => exact e.fold_draw

/-- A run ends where another token comes. -/
theorem draw_countRun (c : Command) (count : Nat) (e : Emitter) :
    (e.countRun c count).2.draw.1 ≠ .command c := by
  fun_induction countRun c count e with
  | case1 count e h ih => exact ih
  | case2 count e h => exact h

/-- Neighbours in the row repeat different commands, and so will the next token. -/
structure Joined (e : Emitter) : Prop where
  fold : e.fold = true
  code : e.code.toList.IsChain Instruction.Unlike
  next : ∀ k n, e.code.toList.getLast? = some (.op k n) → e.draw.1 ≠ k

theorem isChain_push {code : Array Instruction} {x : Instruction}
    (h : code.toList.IsChain Instruction.Unlike)
    (hx : ∀ y, code.toList.getLast? = some y → y.Unlike x) :
    (code.push x).toList.IsChain Instruction.Unlike := by
  rw [Array.toList_push, List.isChain_append]
  refine ⟨h, List.isChain_singleton _, ?_⟩
  intro y hy z hz
  obtain rfl : x = z := by simpa using hz
  exact hx y hy

theorem isChain_set {code : List Instruction} (h : code.IsChain Instruction.Unlike) (start : Nat)
    (k : Token) (t : Int) : (code.set start (.jump k t)).IsChain Instruction.Unlike := by
  rw [List.isChain_iff_getElem] at h ⊢
  intro i hi
  rw [List.length_set] at hi
  rw [List.getElem_set, List.getElem_set]
  split
  · exact Instruction.jump_unlike k t _
  · split
    · exact Instruction.unlike_jump _ k t
    · exact h i hi

theorem Joined.command {e : Emitter} {c : Command} (h : e.Joined) (hdraw : e.draw.1 = .command c) :
    (e.draw.2.command c).Joined := by
  have hfold : e.draw.2.fold = true := e.fold_draw.trans h.fold
  obtain ⟨hcode, -⟩ := e.draw.2.countRun_keeps c 1
  unfold Emitter.command
  rw [if_pos hfold]
  refine ⟨(fold_countRun c 1 _).trans hfold, ?_, ?_⟩
  · simp only [hcode, e.draw_keeps.1]
    apply isChain_push h.code
    intro y hlast k m n hy hrun
    cases hrun
    exact h.next _ m (hy ▸ hlast) hdraw
  · intro k n hlast
    have hk : Token.command c = k := by
      simp only [Array.toList_push, List.getLast?_append, List.getLast?_singleton] at hlast
      cases hlast
      rfl
    rw [← hk]
    exact (draw_of_code _ _).trans_ne (draw_countRun c 1 e.draw.2)

theorem Joined.openLoop {e : Emitter} (h : e.Joined) : e.draw.2.openLoop.Joined := by
  unfold Emitter.openLoop
  refine ⟨e.fold_draw.trans h.fold, ?_, ?_⟩
  · simp only [e.draw_keeps.1]
    exact isChain_push h.code fun y _ => y.unlike_jump _ _
  · intro k n hlast
    simp at hlast

theorem Joined.closeLoop {e : Emitter} (h : e.Joined) (start : Nat)
    (opened : List (Nat × Position)) : (e.draw.2.closeLoop start opened).Joined := by
  unfold Emitter.closeLoop
  refine ⟨e.fold_draw.trans h.fold, ?_, ?_⟩
  · simp only [e.draw_keeps.1, Array.toList_setIfInBounds]
    exact isChain_set (isChain_push h.code fun y _ => y.unlike_jump _ _) _ _ _
  · intro k n hlast
    simp only [Array.toList_setIfInBounds, Array.toList_push, List.getLast?_eq_getElem?,
      List.getElem?_set] at hlast
    split at hlast
    · split at hlast <;> cases hlast
    · simp at hlast

theorem isChain_build {e : Emitter} (h : e.Joined) :
    e.build.2.code.toList.IsChain Instruction.Unlike := by
  fun_induction build e with
  | case1 e hdraw =>
    rw [e.draw_keeps.1]
    exact h.code
  | case2 e c hdraw ih => exact ih (h.command hdraw)
  | case3 e hdraw ih => exact ih h.openLoop
  | case4 e hdraw hopened =>
    rw [e.draw_keeps.1]
    exact h.code
  | case5 e hdraw l opened hopened ih => exact ih (h.closeLoop l.1 opened)

end Emitter

/-! ## Adding the symbols of a block -/

namespace Block

/-- The items of a block put behind others.  The latest item comes first. -/
def onto (items : List Item) : Block → List Item
  | nil => items
  | op c n rest => rest.onto (.op c n :: items)
  | loop body rest => rest.onto (.loop body :: items)

theorem ofReversed_onto (b : Block) (items : List Item) :
    ofReversed (b.onto items) = items.foldl (fun b i => cons i b) b := by
  induction b generalizing items with
  | nil => rfl
  | op c n rest ih => exact ih (.op c n :: items)
  | loop body rest _ ih => exact ih (.loop body :: items)

/-- The command that the latest item repeats, if it is not a loop. -/
def latest? : List Item → Option Command
  | .op c _ :: _ => some c
  | _ => none

/-- Behind items of which the latest repeats `latest`, the block has the counts that
building its symbols gives. -/
def Tight (fold : Bool) : (latest : Option Command) → Block → Prop
  | _, nil => True
  | latest, op c n rest =>
    1 ≤ n ∧ (fold = true → latest ≠ some c) ∧ (fold = false → n = 1) ∧ rest.Tight fold (some c)
  | _, loop body rest => body.Tight fold none ∧ rest.Tight fold none

end Block

namespace Draft

/-- A command that is not to be joined becomes an item of its own. -/
theorem addCommand_of_ne {join : Bool} {c : Command} {items : List Block.Item}
    (h : join = true → Block.latest? items ≠ some c) :
    addCommand join c items = .op c 1 :: items := by
  rcases addCommand_cases join c items with hnew | ⟨n, rest, hjoin, rfl, -⟩
  · exact hnew
  · exact absurd rfl (h hjoin)

/-- Further commands of a run are joined. -/
theorem addAll_run {c : Command} {m k : Nat} {items : List Block.Item} {opened : List OpenLoop}
    {front : List (Token × Source)} (hfront : front.map Prod.fst = List.replicate m (.command c))
    (rear : List (Token × Source)) :
    addAll true true ⟨.op c k :: items, opened⟩ (front ++ rear) =
      addAll true true ⟨.op c (k + m) :: items, opened⟩ rear := by
  induction m generalizing k front with
  | zero =>
    obtain rfl := List.map_eq_nil_iff.1 hfront
    rfl
  | succ m ih =>
    obtain ⟨x, front, rfl, hx, hrest⟩ := List.map_eq_cons_iff.1 hfront
    have hadd : add (true && true) x.1 x.2.mark ⟨.op c k :: items, opened⟩ =
        some ⟨.op c (k + 1) :: items, opened⟩ := by
      rw [hx, add, addCommand, Bool.and_true, if_pos (by simp)]
    rw [List.cons_append, addAll, hadd]
    show addAll true true ⟨.op c (k + 1) :: items, opened⟩ (front ++ rear) = _
    rw [ih hrest, Nat.add_right_comm, Nat.add_assoc]

/-- All commands of a run make one item.  Without joining the run is one command. -/
theorem addAll_op {fold continuing : Bool} {c : Command} {n : Nat} {items : List Block.Item}
    {opened : List OpenLoop} {front : List (Token × Source)} (hpos : 1 ≤ n)
    (hnew : fold = true → Block.latest? items ≠ some c) (hone : fold = false → n = 1)
    (hfront : front.map Prod.fst = List.replicate n (.command c)) (rear : List (Token × Source)) :
    addAll fold continuing ⟨items, opened⟩ (front ++ rear) =
      addAll fold true ⟨.op c n :: items, opened⟩ rear := by
  obtain ⟨m, rfl⟩ := Nat.exists_eq_add_of_le' hpos
  obtain ⟨x, run, rfl, hx, hrun⟩ := List.map_eq_cons_iff.1 hfront
  have hadd : add (fold && continuing) x.1 x.2.mark ⟨items, opened⟩ =
      some ⟨.op c 1 :: items, opened⟩ := by
    rw [hx, add, addCommand_of_ne fun hjoin => hnew (Bool.and_eq_true_iff.1 hjoin).1]
  rw [List.cons_append, addAll, hadd]
  show addAll fold true ⟨.op c 1 :: items, opened⟩ (run ++ rear) = _
  cases fold with
  | true => rw [addAll_run hrun, Nat.add_comm]
  | false =>
    obtain rfl : m = 0 := by
      have := hone rfl
      omega
    obtain rfl := List.map_eq_nil_iff.1 hrun
    rfl

/-- The symbols of a block add its items. -/
theorem addAll_symbols_of_tight {fold : Bool} {b : Block} (continuing : Bool)
    (items : List Block.Item) (opened : List OpenLoop) {front : List (Token × Source)}
    (h : b.Tight fold (Block.latest? items)) (hfront : front.map Prod.fst = b.symbols)
    (rear : List (Token × Source)) :
    ∃ again, addAll fold continuing ⟨items, opened⟩ (front ++ rear) =
      addAll fold again ⟨b.onto items, opened⟩ rear := by
  induction b generalizing continuing items opened front rear with
  | nil =>
    obtain rfl := List.map_eq_nil_iff.1 hfront
    exact ⟨continuing, rfl⟩
  | op c n rest ih =>
    obtain ⟨hpos, hnew, hone, hrest⟩ := h
    obtain ⟨run, tail, rfl, hrun, htail⟩ := List.map_eq_append_iff.1 hfront
    obtain ⟨again, hagain⟩ := ih true (.op c n :: items) opened hrest htail rear
    refine ⟨again, ?_⟩
    rw [List.append_assoc, addAll_op hpos hnew hone hrun]
    exact hagain
  | loop body rest ihb ihr =>
    obtain ⟨x, front, rfl, hx, hfront⟩ := List.map_eq_cons_iff.1 hfront
    obtain ⟨inner, tail, rfl, hinner, htail⟩ := List.map_eq_append_iff.1 hfront
    obtain ⟨y, tail, rfl, hy, htail⟩ := List.map_eq_cons_iff.1 htail
    obtain ⟨again, hbody⟩ := ihb true [] (⟨x.2.mark, items⟩ :: opened) h.1 hinner
      (y :: (tail ++ rear))
    obtain ⟨last, hrest⟩ := ihr true (.loop body :: items) opened h.2 htail rear
    have hopen : add (fold && continuing) x.1 x.2.mark ⟨items, opened⟩ =
        some ⟨[], ⟨x.2.mark, items⟩ :: opened⟩ := by
      rw [hx, add]
    have hclose : add (fold && again) y.1 y.2.mark ⟨body.onto [], ⟨x.2.mark, items⟩ :: opened⟩ =
        some ⟨.loop body :: items, opened⟩ := by
      rw [hy, add, Block.ofReversed_onto]
      rfl
    refine ⟨last, ?_⟩
    rw [List.cons_append, List.append_assoc, List.cons_append, addAll, hopen]
    show addAll fold true ⟨[], ⟨x.2.mark, items⟩ :: opened⟩ (inner ++ y :: (tail ++ rear)) = _
    rw [hbody, addAll, hclose]
    exact hrest

end Draft

/-! ## Texts of blocks -/

namespace Token

/-- The character of a symbol is read as that symbol. -/
theorem ofText_filterMap_char? {ts : List Token} (h : .endOfText ∉ ts) :
    ofText (ts.filterMap char?) = ts := by
  induction ts with
  | nil => rfl
  | cons t ts ih =>
    rw [List.mem_cons, not_or] at h
    cases hc : t.char? with
    | none =>
      cases t with
      | endOfText => exact absurd rfl h.1
      | command c => cases hc
      | loopOpen => cases hc
      | loopClose => cases hc
    | some c =>
      rw [List.filterMap_cons_some hc, ofText, List.filterMap_cons_some (ofChar?_eq_some_iff.2 hc)]
      exact congrArg (t :: ·) (ih h.2)

/-- What is left of a text that is read and written again are its symbols. -/
theorem filterMap_char?_ofText (text : List Char) :
    (ofText text).filterMap char? = text.filter fun c => (ofChar? c).isSome := by
  induction text with
  | nil => rfl
  | cons c text ih =>
    cases hc : ofChar? c with
    | none =>
      rw [ofText, List.filterMap_cons_none hc, List.filter_cons_of_neg (by simp [hc])]
      exact ih
    | some t =>
      rw [ofText, List.filterMap_cons_some hc, List.filterMap_cons_some (ofChar?_eq_some_iff.1 hc),
        List.filter_cons_of_pos (by simp [hc])]
      exact congrArg (c :: ·) ih

end Token

namespace Block

theorem endOfText_notMem_symbols (b : Block) : .endOfText ∉ b.symbols := by
  induction b with
  | nil => exact List.not_mem_nil
  | op c n rest ih => simp [symbols, ih]
  | loop body rest ihb ihr => simp [symbols, ihb, ihr]

/-- Joined wherever they can be, the commands of a block have the counts of a build. -/
theorem tight_of_isChain {b : Block} {start : Nat} {latest : Option Command}
    (hpos : b.All (1 ≤ ·)) (hruns : (b.code start).IsChain Instruction.Unlike)
    (hlatest : ∀ c n, (b.code start).head? = some (.op (.command c) n) → latest ≠ some c) :
    b.Tight true latest := by
  induction b generalizing start latest with
  | nil => trivial
  | op c n rest ih =>
    rw [code, List.isChain_cons] at hruns
    refine ⟨hpos.1, fun _ => hlatest c n rfl, Bool.noConfusion, ih hpos.2 hruns.2 ?_⟩
    intro k m hhead hk
    cases hk
    exact hruns.1 _ hhead _ _ _ rfl rfl
  | loop body rest ihb ihr =>
    rw [code, List.isChain_cons, List.isChain_append, List.isChain_cons] at hruns
    obtain ⟨-, hbody, ⟨-, hrest⟩, -⟩ := hruns
    have hfirst (c : Command) : none ≠ some c := (Option.some_ne_none c).symm
    exact ⟨ihb hpos.1 hbody fun c _ _ => hfirst c, ihr hpos.2 hrest fun c _ _ => hfirst c⟩

theorem tight_of_all_one {b : Block} {latest : Option Command} (h : b.All (· = 1)) :
    b.Tight false latest := by
  induction b generalizing latest with
  | nil => trivial
  | op c n rest ih => exact ⟨Nat.le_of_eq h.1.symm, nofun, fun _ => h.1, ih h.2⟩
  | loop body rest ihb ihr => exact ⟨ihb h.1, ihr h.2⟩

end Block

/-! ## Building what was written -/

namespace Program

/-- The text of a block with the counts of a build is built as that block. -/
theorem ofText_of_tight {fold : Bool} {b : Block} {text : List Char} (h : b.Tight fold none)
    (htext : Token.ofText text = b.symbols) : ofText text fold = .ok (ofBlock b) := by
  let a : Assembly := { source := .text (.ofList text), fold }
  have hmap : a.source.drain.1.map Prod.fst = b.symbols :=
    (Reader.stands_ofList text).map_drain.trans htext
  obtain ⟨again, hadd⟩ := Draft.addAll_symbols_of_tight false [] [] h hmap []
  rw [List.append_nil] at hadd
  have hbuild := a.build_of_ok (hadd.trans rfl)
  refine hbuild.trans (Assembly.finish_eq_ok_iff.2 ⟨rfl, ?_⟩)
  show _ = ofBlock (.ofReversed (b.onto []))
  rw [Block.ofReversed_onto]
  rfl

theorem canonical_of_ofText {text : List Char} {fold : Bool} {p : Program}
    (h : ofText text fold = .ok p) : p.Canonical fold := by
  obtain ⟨b, rfl, -, hpos, hone⟩ := exists_block_of_ofText h
  refine ⟨wellNested_ofBlock hpos, ?_, ?_⟩
  · rintro rfl
    let a : Assembly := { source := .text (.ofList text) }
    have hbuild : a.toEmitter.build.1 = .ok (ofBlock b) := by
      rw [Emitter.build_toEmitter]
      exact h
    rw [← (Emitter.code_of_build_ok hbuild).1]
    exact Emitter.isChain_build ⟨rfl, List.isChain_nil, nofun⟩
  · intro hfold k n hmem
    rw [← Array.mem_toList_iff, toList_code_ofBlock] at hmem
    obtain ⟨m, rfl, rfl⟩ := (Block.all_iff 0).1 (hone hfold) k n hmem
    rfl

theorem ofText_source_iff (p : Program) (fold : Bool) :
    ofText p.source fold = .ok p ↔ p.Canonical fold := by
  refine ⟨canonical_of_ofText, ?_⟩
  intro h
  obtain ⟨b, rfl, hpos⟩ := exists_block_of_wellNested h.wellNested
  apply ofText_of_tight
  · cases fold with
    | true =>
      have hruns := h.runs rfl
      rw [toList_code_ofBlock] at hruns
      exact Block.tight_of_isChain hpos hruns fun _ _ _ => nofun
    | false =>
      apply Block.tight_of_all_one
      apply (Block.all_iff 0).2
      intro k n hmem
      rw [← toList_code_ofBlock, Array.mem_toList_iff] at hmem
      exact ⟨1, h.ones rfl k n hmem, rfl⟩
  · rw [source_ofBlock, Token.ofText_filterMap_char? b.endOfText_notMem_symbols]

/-- A program that was built is written as the symbols of its text. -/
theorem source_of_ofText {text : List Char} {fold : Bool} {p : Program}
    (h : ofText text fold = .ok p) :
    p.source = text.filter fun c => (Token.ofChar? c).isSome := by
  obtain ⟨b, rfl, hsymbols, -, -⟩ := exists_block_of_ofText h
  rw [source_ofBlock, hsymbols, Token.filterMap_char?_ofText]

end Program

/-! ## The result -/

end Brainfuck
