import Brainfuck.Proofs.Resolution

/-!
# Rows that are layouts

`resolved_code` says that the layout of a block is resolved.  Here is the other
direction: a row of instructions that is resolved is the layout of a block, so
that there are no other programs with resolved loops than those a block gives.

* `Resolved.part` cuts a row out of a longer one.  It takes that no loop leaves it.
* `Resolved.exists_block` recovers the block.  The induction is on the length of
  the row, since behind a loop comes the rest of the row and not its tail.
* `Program.exists_block_of_wellNested` says it of a program.  Its loops are resolved if
  they are in the row of its instructions (`Program.wellNested_iff_resolved`).
-/

namespace Brainfuck

namespace Resolved

/-- Every loop of the row lies inside the part from `low` up to `high`, or outside. -/
def Respects (start : Nat) (code : List Instruction) (low high : Nat) : Prop :=
  ∀ i j : Nat, code[i]? = some (.jump .loopOpen (start + j : Nat)) →
    ((low ≤ i ∧ i < high) ↔ (low ≤ j ∧ j < high))

/-- A part that no loop leaves is resolved. -/
theorem part {start : Nat} {xs ys zs : List Instruction} (h : Resolved start (xs ++ ys ++ zs))
    (hpart : Respects start (xs ++ ys ++ zs) xs.length (xs.length + ys.length)) :
    Resolved (start + xs.length) ys := by
  have hget {k : Nat} {x : Instruction} (hk : ys[k]? = some x) :
      (xs ++ ys ++ zs)[xs.length + k]? = some x := by
    have hlt := (List.getElem?_eq_some_iff.1 hk).1
    rw [List.append_assoc, List.getElem?_append_right (Nat.le_add_right _ _),
      Nat.add_sub_cancel_left, List.getElem?_append_left hlt, hk]
  have hback {k : Nat} {x : Instruction} (hk : (xs ++ ys ++ zs)[xs.length + k]? = some x)
      (hlt : k < ys.length) : ys[k]? = some x := by
    rwa [List.append_assoc, List.getElem?_append_right (Nat.le_add_right _ _),
      Nat.add_sub_cancel_left, List.getElem?_append_left hlt] at hk
  refine ⟨?_, ?_, ?_, ?_⟩
  · intro x hx
    exact h.kinds x (List.mem_append_left _ (List.mem_append_right _ hx))
  · intro i t hi
    have hlt := (List.getElem?_eq_some_iff.1 hi).1
    obtain ⟨j, rfl, hij, hj⟩ := h.opens (hget hi)
    obtain ⟨hlow, hhigh⟩ := (hpart _ j (hget hi)).1 (by omega)
    obtain ⟨k, rfl⟩ := Nat.exists_eq_add_of_le hlow
    rw [← Nat.add_assoc] at hj
    exact ⟨k, by rw [Nat.add_assoc], by omega, hback hj (by omega)⟩
  · intro j t hj
    have hlt := (List.getElem?_eq_some_iff.1 hj).1
    obtain ⟨i, rfl, hij, hi⟩ := h.closes (hget hj)
    obtain ⟨hlow, hhigh⟩ := (hpart i _ hi).2 (by omega)
    obtain ⟨k, rfl⟩ := Nat.exists_eq_add_of_le hlow
    rw [← Nat.add_assoc] at hi
    exact ⟨k, by rw [Nat.add_assoc], by omega, hback hi (by omega)⟩
  · intro i j i' j' hi hi' hlt
    rw [Nat.add_assoc] at hi hi'
    have hapart := h.nested (hget hi) (hget hi') (by omega)
    omega

/-- Behind a command the row goes on. -/
theorem of_cons_op {start : Nat} {k : Token} {n : Int} {code : List Instruction}
    (h : Resolved start (.op k n :: code)) : Resolved (start + 1) code := by
  have hsplit : .op k n :: code = [.op k n] ++ code ++ [] := by simp
  rw [hsplit] at h
  apply h.part
  intro i j hi
  obtain ⟨m, hm, him, hclose⟩ := h.opens hi
  obtain rfl : j = m := by omega
  rw [← hsplit] at hi hclose
  have hlt := (List.getElem?_eq_some_iff.1 hclose).1
  rw [List.length_cons] at hlt
  -- There is no bracket at the front.
  have hfront : i ≠ 0 := by
    rintro rfl
    cases hi
  rw [List.length_singleton]
  omega

/-- Before a command the row ends. -/
theorem of_append_op {start : Nat} {k : Token} {n : Int} {code : List Instruction}
    (h : Resolved start (code ++ [.op k n])) : Resolved start code := by
  have hpart : Respects start ([] ++ code ++ [.op k n]) 0 (0 + code.length) := by
    intro i j hi
    rw [List.nil_append] at hi
    obtain ⟨m, hm, him, hclose⟩ := h.opens hi
    obtain rfl : j = m := by omega
    have hlt := (List.getElem?_eq_some_iff.1 hclose).1
    rw [List.length_append, List.length_singleton] at hlt
    -- There is no bracket at the end.
    have hend : j ≠ code.length := by
      rintro rfl
      rw [List.getElem?_concat_length] at hclose
      cases hclose
    omega
  have hcode : Resolved start ([] ++ code ++ [.op k n]) := h
  exact hcode.part hpart

section Loops

variable {start : Nat} {body rest : List Instruction} {a b : Instruction}
  (h : Resolved start (a :: (body ++ b :: rest)))
  (hloop : (a :: (body ++ b :: rest))[0]? =
    some (.jump .loopOpen (start + (body.length + 1) : Nat)))

include h hloop

/-- What follows a first loop lies inside it or behind it. -/
theorem inside_or_behind {i j : Nat}
    (hi : (a :: (body ++ b :: rest))[i]? = some (.jump .loopOpen (start + j : Nat))) :
    (i = 0 ∧ j = body.length + 1) ∨ (0 < i ∧ i < j ∧ j < body.length + 1) ∨
      (body.length + 1 < i ∧ i < j ∧ j < body.length + rest.length + 2) := by
  obtain ⟨m, hm, him, hclose⟩ := h.opens hi
  obtain rfl : j = m := by omega
  have hlt := (List.getElem?_eq_some_iff.1 hclose).1
  rw [List.length_cons, List.length_append, List.length_cons] at hlt
  rcases Nat.eq_zero_or_pos i with rfl | hpos
  · rw [hloop, Option.some.injEq, Instruction.jump.injEq] at hi
    omega
  · rcases h.nested hloop hi hpos with hbehind | hinside
    · omega
    · omega

theorem of_loop_body : Resolved (start + 1) body := by
  have hsplit : a :: (body ++ b :: rest) = [a] ++ body ++ (b :: rest) := by simp
  have hpart : Respects start (a :: (body ++ b :: rest)) 1 (1 + body.length) := by
    intro i j hi
    rcases inside_or_behind h hloop hi with ⟨rfl, rfl⟩ | hinside | hbehind <;> omega
  rw [hsplit] at h hpart
  exact h.part hpart

theorem of_loop_rest : Resolved (start + body.length + 2) rest := by
  have hsplit : a :: (body ++ b :: rest) = (a :: (body ++ [b])) ++ rest ++ [] := by simp
  have hlength : (a :: (body ++ [b])).length = body.length + 2 := by simp
  have hpart : Respects start (a :: (body ++ b :: rest)) (body.length + 2)
      (body.length + 2 + rest.length) := by
    intro i j hi
    rcases inside_or_behind h hloop hi with ⟨rfl, rfl⟩ | hinside | hbehind <;> omega
  rw [hsplit] at h hpart
  rw [← hlength] at hpart
  have hrest := h.part hpart
  rwa [hlength] at hrest

end Loops

/-- A first loop ends with the closing bracket that jumps back to it. -/
theorem exists_loop {start : Nat} {t : Int} {code : List Instruction}
    (h : Resolved start (.jump .loopOpen t :: code)) :
    ∃ body rest, code = body ++ .jump .loopClose start :: rest ∧
      t = (start + (body.length + 1) : Nat) := by
  obtain ⟨j, rfl, hj, hclose⟩ := h.opens (i := 0) rfl
  obtain ⟨k, rfl⟩ : ∃ k, j = k + 1 := ⟨j - 1, by omega⟩
  rw [List.getElem?_cons_succ] at hclose
  obtain ⟨hk, hget⟩ := List.getElem?_eq_some_iff.1 hclose
  refine ⟨code.take k, code.drop (k + 1), ?_, ?_⟩
  · rw [Nat.add_zero] at hget
    rw [← hget, List.getElem_cons_drop, List.take_append_drop]
  · rw [List.length_take_of_le (Nat.le_of_lt hk)]

/-- A row that is resolved is the layout of a block. -/
theorem exists_block {start : Nat} {code : List Instruction} (h : Resolved start code) :
    ∃ b : Block, code = b.code start ∧ b.All (1 ≤ ·) := by
  induction hn : code.length using Nat.strongRecOn generalizing start code with
  | ind n ih =>
  cases code with
  | nil => exact ⟨.nil, rfl, trivial⟩
  | cons x code =>
    rw [List.length_cons] at hn
    rcases h.kinds x List.mem_cons_self with ⟨c, m, rfl, hm⟩ | ⟨t, rfl⟩ | ⟨t, rfl⟩
    · obtain ⟨rest, rfl, hrest⟩ := ih code.length (by omega) h.of_cons_op rfl
      obtain ⟨k, rfl⟩ := Int.eq_ofNat_of_zero_le (show 0 ≤ m by omega)
      exact ⟨.op c k rest, rfl, by omega, hrest⟩
    · obtain ⟨body, rest, rfl, rfl⟩ := h.exists_loop
      rw [List.length_append, List.length_cons] at hn
      obtain ⟨inner, rfl, hinner⟩ := ih body.length (by omega) (h.of_loop_body rfl) rfl
      obtain ⟨outer, houter, hrest⟩ := ih rest.length (by omega) (h.of_loop_rest rfl) rfl
      refine ⟨.loop inner outer, ?_, hinner, hrest⟩
      rw [Block.length_code] at houter
      rw [Block.code, houter, Block.length_code, ← Nat.add_assoc start]
    · obtain ⟨i, -, hi, -⟩ := h.closes (j := 0) rfl
      omega

end Resolved

namespace Program

variable {p : Program}

theorem WellNested.resolved_row (h : p.WellNested) : Resolved 0 p.code.toList := by
  have hget (i : Nat) : p.code.toList[i]? = p.code[i]? := Array.getElem?_toList
  refine ⟨fun x hx => h.kinds x (Array.mem_toList_iff.1 hx), ?_, ?_, ?_⟩
  · intro i t hi
    rw [hget] at hi
    obtain ⟨j, rfl, hij, -, hj⟩ := h.opens hi
    exact ⟨j, by rw [Nat.zero_add], hij, by rw [hget, Nat.zero_add, hj]⟩
  · intro j t hj
    rw [hget] at hj
    obtain ⟨i, rfl, hij, hi⟩ := h.closes hj
    exact ⟨i, by rw [Nat.zero_add], hij, by rw [hget, Nat.zero_add, hi]⟩
  · intro i j i' j' hi hi' hlt
    rw [hget, Nat.zero_add] at hi hi'
    exact h.nested hi hi' hlt

theorem exists_block_of_resolved (h : Resolved 0 p.code.toList) :
    ∃ b : Block, p = .ofBlock b ∧ b.All (1 ≤ ·) := by
  obtain ⟨b, hb, hall⟩ := h.exists_block
  refine ⟨b, ?_, hall⟩
  rw [← toList_code_ofBlock] at hb
  exact congrArg Program.mk (Array.toList_inj.1 hb)

/-- A program with resolved loops is the layout of a block. -/
theorem exists_block_of_wellNested (h : p.WellNested) :
    ∃ b : Block, p = .ofBlock b ∧ b.All (1 ≤ ·) :=
  exists_block_of_resolved h.resolved_row

/-- The loops of a program are resolved if they are in the row of its instructions. -/
theorem wellNested_iff_resolved : p.WellNested ↔ Resolved 0 p.code.toList := by
  refine ⟨WellNested.resolved_row, ?_⟩
  intro h
  obtain ⟨b, rfl, hpos⟩ := exists_block_of_resolved h
  exact wellNested_ofBlock hpos

end Program

end Brainfuck
