import Brainfuck.Proofs.Canonical
import Brainfuck.Proofs.Decoding
import Brainfuck.Proofs.Likeness

/-!
# Texts one behind the other

Two texts that are programs are a program together.  Its instructions are those
of the first text and then those of the second one, whose jumps lead as much
further on as there are instructions before them.  With joining there is one
thing more: a command at the seam may go on.

* `Instruction.raise` is what becomes of an instruction that others are put in
  front of, and `Program.append` the program of both.
* `Block.code_raise` says that a block is laid out behind others in just this
  way.  The induction is on the block, with the place of its first instruction
  left open.
* `Program.Canonical.append` says that two canonical programs make a canonical one,
  if nothing is to be joined at the seam.

The program of both texts is found by what it is written as: it is canonical and
written with the symbols of both texts, and so it is what these symbols build.  If
a command goes on at the seam, the first program without its last instruction
and the second one with a larger count take their places.
-/

namespace Brainfuck

/-- The instruction with its target, if it has one, raised by `d`. -/
def Instruction.raise (d : Nat) : Instruction → Instruction
  | op k n => op k n
  | jump k t => jump k (t + d)

/-- The instructions of `p` and then those of `q`, whose targets are raised by the size of `p`. -/
def Program.append (p q : Program) : Program :=
  ⟨p.code ++ q.code.map (.raise p.size)⟩

/-- No command that `p` ends with is the one that `q` begins with. -/
def Program.Apart (p q : Program) : Prop :=
  ∀ (k : Token) (m n : Int), p.code.back? = some (.op k m) → q.code[0]? ≠ some (.op k n)

namespace Instruction

@[simp] theorem source_raise (d : Nat) (x : Instruction) : (x.raise d).source = x.source := by
  cases x <;> rfl

theorem raise_eq_op_iff {d : Nat} {x : Instruction} {k : Token} {n : Int} :
    x.raise d = op k n ↔ x = op k n := by
  cases x with
  | op k' n' => rfl
  | jump k' t => exact iff_of_false nofun nofun

theorem raise_unlike_iff {d : Nat} {x y : Instruction} : (x.raise d).Unlike y ↔ x.Unlike y := by
  unfold Unlike
  simp only [raise_eq_op_iff]

theorem unlike_raise_iff {d : Nat} {x y : Instruction} : x.Unlike (y.raise d) ↔ x.Unlike y := by
  unfold Unlike
  simp only [ne_eq, raise_eq_op_iff]

end Instruction

/-! ## Rows behind others -/

namespace Block

theorem code_raise (d start : Nat) (b : Block) :
    (b.code start).map (.raise d) = b.code (start + d) := by
  induction b generalizing start with
  | nil => rfl
  | op c n rest ih =>
    rw [code, List.map_cons, ih, code, Nat.add_right_comm]
    rfl
  | loop body rest ihb ihr =>
    have hstop : ((start + body.length + 1 : Nat) : Int) + d =
        (start + d + body.length + 1 : Nat) := by omega
    have hbody : start + 1 + d = start + d + 1 := by omega
    have hrest : start + body.length + 2 + d = start + d + body.length + 2 := by omega
    rw [code, List.map_cons, List.map_append, List.map_cons, ihb, ihr, hbody, hrest, code,
      Instruction.raise, Instruction.raise, hstop, Int.natCast_add start d]

end Block

theorem Resolved.raise {start : Nat} {code : List Instruction} (h : Resolved start code)
    (d : Nat) : Resolved (start + d) (code.map (.raise d)) := by
  obtain ⟨b, rfl, hpos⟩ := h.exists_block
  rw [Block.code_raise]
  exact resolved_code (start + d) hpos

/-- A first command may be carried out more often. -/
theorem Resolved.recount {start : Nat} {k : Token} {m n : Int} {code : List Instruction}
    (h : Resolved start (.op k m :: code)) (hmn : m ≤ n) : Resolved start (.op k n :: code) := by
  rcases h.kinds _ List.mem_cons_self with ⟨c, i, hop, hi⟩ | ⟨t, hjump⟩ | ⟨t, hjump⟩
  · cases hop
    exact (Resolved.op start c (Int.le_trans hi hmn)).append h.of_cons_op
  · cases hjump
  · cases hjump

namespace Program

variable {p q : Program}

theorem toList_code_append (p q : Program) :
    (p.append q).code.toList = p.code.toList ++ q.code.toList.map (.raise p.size) := by
  rw [append, Array.toList_append, Array.toList_map]

theorem source_append (p q : Program) : (p.append q).source = p.source ++ q.source := by
  unfold source
  rw [toList_code_append, List.flatMap_append, List.flatMap_map]
  simp only [Instruction.source_raise]

theorem WellNested.append (hp : p.WellNested) (hq : q.WellNested) : (p.append q).WellNested := by
  rw [wellNested_iff_resolved] at hp hq ⊢
  rw [toList_code_append]
  apply hp.append
  rw [Array.length_toList]
  exact hq.raise p.size

/-- Canonical programs make a canonical program, if nothing is to be joined at the seam. -/
theorem Canonical.append {fold : Bool} (hp : p.Canonical fold) (hq : q.Canonical fold)
    (hseam : fold = true → p.Apart q) : (p.append q).Canonical fold := by
  refine ⟨hp.wellNested.append hq.wellNested, ?_, ?_⟩
  · intro hfold
    rw [toList_code_append, List.isChain_append]
    refine ⟨hp.runs hfold, ?_, ?_⟩
    · rw [List.isChain_map]
      simp only [Instruction.raise_unlike_iff, Instruction.unlike_raise_iff]
      exact hq.runs hfold
    · intro x hx y hy
      rw [List.head?_map, Option.mem_def, Option.map_eq_some_iff] at hy
      obtain ⟨z, hz, rfl⟩ := hy
      rw [Instruction.unlike_raise_iff]
      rintro k m n rfl rfl
      refine hseam hfold k m n ?_ ?_
      · rw [← Array.getLast?_toList]
        exact hx
      · rw [← Array.getElem?_toList, ← List.head?_eq_getElem?]
        exact hz
  · intro hfold k n hmem
    rw [← Array.mem_toList_iff, toList_code_append, List.mem_append, List.mem_map] at hmem
    rcases hmem with hmem | ⟨x, hx, hop⟩
    · exact hp.ones hfold k n (Array.mem_toList_iff.1 hmem)
    · rw [Instruction.raise_eq_op_iff] at hop
      exact hq.ones hfold k n (Array.mem_toList_iff.1 (hop ▸ hx))

/-- A canonical program stays canonical if a last command is left out. -/
theorem Canonical.of_push {k : Token} {n : Int} {front : Array Instruction}
    (h : Canonical true ⟨front.push (.op k n)⟩) : Canonical true ⟨front⟩ := by
  refine ⟨?_, ?_, nofun⟩
  · have hrow := wellNested_iff_resolved.1 h.wellNested
    rw [Array.toList_push] at hrow
    exact wellNested_iff_resolved.2 hrow.of_append_op
  · intro hfold
    have hruns := h.runs hfold
    rw [Array.toList_push, List.isChain_append] at hruns
    exact hruns.1

/-- A canonical program stays canonical if a first command is carried out more often. -/
theorem Canonical.recount {k : Token} {m n : Int} {rest : Array Instruction}
    (h : Canonical true ⟨#[.op k m] ++ rest⟩) (hmn : m ≤ n) :
    Canonical true ⟨#[.op k n] ++ rest⟩ := by
  have hlist (i : Int) : (#[Instruction.op k i] ++ rest).toList = .op k i :: rest.toList := by
    rw [Array.toList_append]
    rfl
  refine ⟨?_, ?_, nofun⟩
  · have hrow := wellNested_iff_resolved.1 h.wellNested
    rw [hlist] at hrow
    rw [wellNested_iff_resolved, hlist]
    exact hrow.recount hmn
  · intro hfold
    have hruns := h.runs hfold
    rw [hlist, List.isChain_cons] at hruns
    rw [hlist, List.isChain_cons]
    refine ⟨?_, hruns.2⟩
    intro y hy _ _ _ hop
    cases hop
    exact hruns.1 y hy _ _ _ rfl

/-- Commands of a built program are carried out at least once. -/
theorem WellNested.one_le {k : Token} {n : Int} (h : p.WellNested) (hmem : .op k n ∈ p.code) :
    1 ≤ n := by
  rcases h.kinds _ hmem with ⟨c, i, hop, hi⟩ | ⟨t, hjump⟩ | ⟨t, hjump⟩
  · cases hop
    exact hi
  · cases hjump
  · cases hjump

section Seams

variable {k : Token} {m n : Int} {front rest : Array Instruction}

/-- A last command that goes on in a first one makes one instruction with that. -/
theorem Canonical.join (hp : Canonical true ⟨front.push (.op k m)⟩)
    (hq : Canonical true ⟨#[.op k n] ++ rest⟩) :
    Canonical true (Program.append ⟨front⟩ ⟨#[.op k (m + n)] ++ rest⟩) := by
  have hm : 1 ≤ m := hp.wellNested.one_le Array.mem_push_self
  refine hp.of_push.append (hq.recount (by omega)) ?_
  intro hfold k' m' n' hlast hfirst
  obtain rfl : k = k' := by
    rw [Array.getElem?_append_left Nat.zero_lt_one] at hfirst
    cases hfirst
    rfl
  -- The last command of `front` would have been joined with the one behind it before.
  have hruns := hp.runs hfold
  rw [Array.toList_push, List.isChain_append] at hruns
  rw [← Array.getLast?_toList] at hlast
  exact hruns.2.2 _ hlast _ List.head?_singleton k m' m rfl rfl

/-- One instruction is written as the two that it has been made of. -/
theorem source_join (hm : 1 ≤ m) (hn : 1 ≤ n) :
    (append ⟨front⟩ ⟨#[.op k (m + n)] ++ rest⟩).source =
      source ⟨front.push (.op k m)⟩ ++ source ⟨#[.op k n] ++ rest⟩ := by
  have hcount : (m + n).toNat = m.toNat + n.toNat := by omega
  have hop : (Instruction.op k (m + n)).source =
      (Instruction.op k m).source ++ (Instruction.op k n).source := by
    cases hk : k.char? with
    | none => simp only [Instruction.source, hk, List.append_nil]
    | some c => simp only [Instruction.source, hk, hcount, List.replicate_append_replicate]
  rw [source_append]
  simp [source, hop]

end Seams

/-- What a text builds is the canonical program that is written with its symbols. -/
theorem ofText_eq_ok_iff {text : List Char} {fold : Bool} {p : Program} :
    ofText text fold = .ok p ↔ p.Canonical fold ∧ p.source = text.filter Text.isSymbol := by
  constructor
  · intro h
    exact ⟨canonical_of_ofText h, source_of_ofText h⟩
  · rintro ⟨hcanonical, hsource⟩
    have htokens : Token.ofText text = Token.ofText p.source := by
      rw [hsource, Token.ofText_filter]
    exact ((ofText_alike htokens fold).ok_iff p).2 ((ofText_source_iff p fold).2 hcanonical)

/-- Programs that are not apart have the same command on both sides of the seam. -/
theorem exists_seam_of_not_apart (h : ¬ p.Apart q) :
    ∃ (k : Token) (m n : Int) (front rest : Array Instruction),
      p.code = front.push (.op k m) ∧ q.code = #[.op k n] ++ rest := by
  unfold Apart at h
  push Not at h
  obtain ⟨k, m, n, hlast, hfirst⟩ := h
  obtain ⟨front, hfront⟩ := Array.back?_eq_some_iff.1 hlast
  rw [← Array.getElem?_toList, ← List.head?_eq_getElem?, List.head?_eq_some_iff] at hfirst
  obtain ⟨rest, hrest⟩ := hfirst
  refine ⟨k, m, n, front, rest.toArray, hfront, ?_⟩
  rw [← Array.toList_inj, hrest, Array.toList_append]
  rfl

end Program

/-! ## The result -/

/-- Texts that are programs are a program together.  Without joining it has the
instructions of the first text and behind them those of the second, whose targets
are raised by the number of instructions before them.  With joining it is the same
unless both texts have the same command at the seam.  This becomes one
instruction then, with both counts together, and targets are raised by one less. -/
theorem builds_concatenation {s t : List Char} {fold : Bool} {p q : Program}
    (hp : Program.ofText s fold = .ok p) (hq : Program.ofText t fold = .ok q) :
    (fold = false ∨ p.Apart q → Program.ofText (s ++ t) fold = .ok (p.append q)) ∧
    (fold = true → ¬ p.Apart q →
      ∃ (k : Token) (m n : Int) (front rest : Array Instruction),
        p.code = front.push (.op k m) ∧ q.code = #[.op k n] ++ rest ∧
        Program.ofText (s ++ t) fold =
          .ok ⟨front.push (.op k (m + n)) ++ rest.map (.raise (p.size - 1))⟩) := by
  have hcanonical := Program.canonical_of_ofText hp
  have hcanonical' := Program.canonical_of_ofText hq
  have hsource : p.source ++ q.source = (s ++ t).filter Text.isSymbol := by
    rw [List.filter_append, (Program.ofText_eq_ok_iff.1 hp).2, (Program.ofText_eq_ok_iff.1 hq).2]
  constructor
  · intro hseam
    rw [Program.ofText_eq_ok_iff, Program.source_append]
    refine ⟨hcanonical.append hcanonical' ?_, hsource⟩
    rintro rfl
    exact hseam.resolve_left nofun
  · rintro rfl hseam
    obtain ⟨k, m, n, front, rest, hfront, hrest⟩ := Program.exists_seam_of_not_apart hseam
    refine ⟨k, m, n, front, rest, hfront, hrest, ?_⟩
    obtain rfl : p = ⟨front.push (.op k m)⟩ := congrArg Program.mk hfront
    obtain rfl : q = ⟨#[.op k n] ++ rest⟩ := congrArg Program.mk hrest
    have hm : 1 ≤ m := hcanonical.wellNested.one_le Array.mem_push_self
    have hn : 1 ≤ n := hcanonical'.wellNested.one_le (k := k) (by simp)
    have hjoin : (⟨front.push (.op k (m + n)) ++
        rest.map (.raise (Program.size ⟨front.push (.op k m)⟩ - 1))⟩ : Program) =
          .append ⟨front⟩ ⟨#[.op k (m + n)] ++ rest⟩ := by
      simp [Program.append, Program.size, Instruction.raise]
    rw [hjoin, Program.ofText_eq_ok_iff, Program.source_join hm hn]
    exact ⟨hcanonical.join hcanonical', hsource⟩

/-- A comment stands at the seam, and the command before it goes on behind it if
commands are joined.  Behind a loop nothing goes on. -/
theorem builds_concatenation_of_comment :
    let p : Program := ⟨#[.jump .loopOpen 2, .op (.command .decrement) 1, .jump .loopClose 0,
      .op (.command .increment) 1]⟩
    let q : Program := ⟨#[.op (.command .increment) 1, .jump .loopOpen 3,
      .op (.command .write) 1, .jump .loopClose 1]⟩
    (∀ fold, Program.ofText "[-]+ one".toList fold = .ok p ∧
      Program.ofText " more\n+[.]".toList fold = .ok q) ∧
    Program.ofText ("[-]+ one".toList ++ " more\n+[.]".toList) false = .ok (p.append q) ∧
    (¬ p.Apart q ∧ ∃ (k : Token) (m n : Int) (front rest : Array Instruction),
      p.code = front.push (.op k m) ∧ q.code = #[.op k n] ++ rest ∧
      Program.ofText ("[-]+ one".toList ++ " more\n+[.]".toList) true =
        .ok ⟨front.push (.op k (m + n)) ++ rest.map (.raise (p.size - 1))⟩) ∧
    (q.Apart p ∧
      Program.ofText (" more\n+[.]".toList ++ "[-]+ one".toList) true = .ok (q.append p)) := by
  intro p q
  have hp (fold : Bool) : Program.ofText "[-]+ one".toList fold = .ok p := by cases fold <;> rfl
  have hq (fold : Bool) : Program.ofText " more\n+[.]".toList fold = .ok q := by
    cases fold <;> rfl
  have hseam : ¬ p.Apart q := fun h => h (.command .increment) 1 1 rfl rfl
  have hapart : q.Apart p := by
    intro k m n hlast
    cases hlast
  exact ⟨fun fold => ⟨hp fold, hq fold⟩,
    (builds_concatenation (hp false) (hq false)).1 (Or.inl rfl),
    ⟨hseam, (builds_concatenation (hp true) (hq true)).2 rfl hseam⟩,
    ⟨hapart, (builds_concatenation (hq true) (hp true)).1 (Or.inr hapart)⟩⟩

end Brainfuck
