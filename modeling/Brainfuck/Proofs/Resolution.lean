import Brainfuck.Proofs.Building

/-!
# How loops are resolved

In a program that was built each bracket jumps to its partner, and two loops
are either one inside the other or apart.  A block is laid out from its front,
so the statement is about a row of instructions that begins at any index.

* `Resolved` says it of such a row.  `Resolved.append` and `Resolved.loop` put
  rows together, the second one by a pair of brackets around a body.
* `resolved_code` is the induction on a block.
* `Program.WellNested` says it of a program by its own indices, and
  `wellNested_of_mem_builds` is the result for every program of every build.
-/

namespace Brainfuck

/-- A command that is carried out at least once, or a jump of a bracket. -/
def Instruction.IsBuilt (x : Instruction) : Prop :=
  (∃ c n, x = .op (.command c) n ∧ 1 ≤ n) ∨ (∃ t, x = .jump .loopOpen t) ∨
    ∃ t, x = .jump .loopClose t

/-- The row of instructions, the first of which has index `start`, has nothing
but commands and brackets.  Each bracket jumps to one of the other kind that
jumps back, the opening one being the first, and two loops do not overlap. -/
structure Resolved (start : Nat) (code : List Instruction) : Prop where
  kinds : ∀ x ∈ code, x.IsBuilt
  opens : ∀ {i : Nat} {t : Int}, code[i]? = some (.jump .loopOpen t) →
    ∃ j, t = (start + j : Nat) ∧ i < j ∧ code[j]? = some (.jump .loopClose (start + i : Nat))
  closes : ∀ {j : Nat} {t : Int}, code[j]? = some (.jump .loopClose t) →
    ∃ i, t = (start + i : Nat) ∧ i < j ∧ code[i]? = some (.jump .loopOpen (start + j : Nat))
  nested : ∀ {i j i' j' : Nat}, code[i]? = some (.jump .loopOpen (start + j : Nat)) →
    code[i']? = some (.jump .loopOpen (start + j' : Nat)) → i < i' → j < i' ∨ j' < j

namespace Resolved

/-! ## Rows put together -/

private theorem getElem?_append_cases {xs ys : List Instruction} {i : Nat} {x : Instruction}
    (h : (xs ++ ys)[i]? = some x) :
    xs[i]? = some x ∨ ∃ k, i = xs.length + k ∧ ys[k]? = some x := by
  by_cases hi : i < xs.length
  · rw [List.getElem?_append_left hi] at h
    exact Or.inl h
  · rw [List.getElem?_append_right (by omega)] at h
    exact Or.inr ⟨i - xs.length, by omega, h⟩

private theorem getElem?_left {xs : List Instruction} {i : Nat} {x : Instruction}
    (h : xs[i]? = some x) (ys : List Instruction) : (xs ++ ys)[i]? = some x := by
  rw [List.getElem?_append_left (List.getElem?_eq_some_iff.1 h).1]
  exact h

private theorem getElem?_right (xs : List Instruction) {ys : List Instruction} {i : Nat}
    {x : Instruction} (h : ys[i]? = some x) : (xs ++ ys)[xs.length + i]? = some x := by
  rw [List.getElem?_append_right (Nat.le_add_right _ _), Nat.add_sub_cancel_left]
  exact h

private theorem lt_length {xs : List Instruction} {i : Nat} {x : Instruction}
    (h : xs[i]? = some x) : i < xs.length :=
  (List.getElem?_eq_some_iff.1 h).1

theorem nil (start : Nat) : Resolved start [] where
  kinds _ h := absurd h List.not_mem_nil
  opens h := by cases h
  closes h := by cases h
  nested h := by cases h

theorem op (start : Nat) (c : Command) {n : Int} (hn : 1 ≤ n) :
    Resolved start [.op (.command c) n] where
  kinds x hx := Or.inl ⟨c, n, List.mem_singleton.1 hx, hn⟩
  opens {i t} h := by cases i <;> simp at h
  closes {j t} h := by cases j <;> simp at h
  nested {i j i' j'} h := by cases i <;> simp at h

/-- A row behind another one keeps its loops to itself. -/
theorem append {start : Nat} {xs ys : List Instruction} (hx : Resolved start xs)
    (hy : Resolved (start + xs.length) ys) : Resolved start (xs ++ ys) where
  kinds x h := by
    rcases List.mem_append.1 h with h | h
    · exact hx.kinds x h
    · exact hy.kinds x h
  opens {i t} h := by
    rcases getElem?_append_cases h with hi | ⟨k, rfl, hk⟩
    · rcases hx.opens hi with ⟨j, rfl, hij, hj⟩
      exact ⟨j, rfl, hij, getElem?_left hj ys⟩
    · rcases hy.opens hk with ⟨j, rfl, hij, hj⟩
      rw [Nat.add_assoc start] at hj
      exact ⟨xs.length + j, by rw [Nat.add_assoc], by omega, getElem?_right xs hj⟩
  closes {j t} h := by
    rcases getElem?_append_cases h with hj | ⟨k, rfl, hk⟩
    · rcases hx.closes hj with ⟨i, rfl, hij, hi⟩
      exact ⟨i, rfl, hij, getElem?_left hi ys⟩
    · rcases hy.closes hk with ⟨i, rfl, hij, hi⟩
      rw [Nat.add_assoc start] at hi
      exact ⟨xs.length + i, by rw [Nat.add_assoc], by omega, getElem?_right xs hi⟩
  nested {i j i' j'} h h' hlt := by
    rcases getElem?_append_cases h with hi | ⟨k, rfl, hk⟩
    · rcases hx.opens hi with ⟨m, hm, -, hclose⟩
      rcases getElem?_append_cases h' with hi' | ⟨k', rfl, -⟩
      · exact hx.nested hi hi' hlt
      · have := lt_length hclose
        exact Or.inl (by omega)
    · rcases hy.opens hk with ⟨m, hm, -, -⟩
      rcases getElem?_append_cases h' with hi' | ⟨k', rfl, hk'⟩
      · have := lt_length hi'
        omega
      · rcases hy.opens hk' with ⟨m', hm', -, -⟩
        rw [hm] at hk
        rw [hm'] at hk'
        rcases hy.nested hk hk' (by omega) with hapart | hinside
        · exact Or.inl (by omega)
        · exact Or.inr (by omega)

private theorem getElem?_loop_cases {a b : Instruction} {body : List Instruction} {i : Nat}
    {x : Instruction} (h : (a :: (body ++ [b]))[i]? = some x) :
    (i = 0 ∧ x = a) ∨ (∃ k, i = k + 1 ∧ body[k]? = some x) ∨ (i = body.length + 1 ∧ x = b) := by
  cases i with
  | zero =>
    simp only [List.getElem?_cons_zero, Option.some.injEq] at h
    exact Or.inl ⟨rfl, h.symm⟩
  | succ i =>
    rw [List.getElem?_cons_succ] at h
    rcases getElem?_append_cases h with hi | ⟨k, rfl, hk⟩
    · exact Or.inr (Or.inl ⟨i, rfl, hi⟩)
    · obtain ⟨rfl, rfl⟩ : k = 0 ∧ b = x := by
        cases k with
        | zero => simpa using hk
        | succ k => simp at hk
      exact Or.inr (Or.inr ⟨rfl, rfl⟩)

private theorem getElem?_loop_body {body : List Instruction} {k : Nat} {x : Instruction}
    (h : body[k]? = some x) (a b : Instruction) : (a :: (body ++ [b]))[k + 1]? = some x := by
  rw [List.getElem?_cons_succ]
  exact getElem?_left h [b]

private theorem getElem?_loop_close (a b : Instruction) (body : List Instruction) :
    (a :: (body ++ [b]))[body.length + 1]? = some b := by
  simp

/-- A pair of brackets around a row. -/
theorem loop {start : Nat} {body : List Instruction} (h : Resolved (start + 1) body) :
    Resolved start (.jump .loopOpen (start + body.length + 1 : Nat) ::
      (body ++ [.jump .loopClose start])) where
  kinds x hx := by
    simp only [List.mem_cons, List.mem_append, List.not_mem_nil, or_false] at hx
    rcases hx with rfl | hx | rfl
    · exact Or.inr (Or.inl ⟨_, rfl⟩)
    · exact h.kinds x hx
    · exact Or.inr (Or.inr ⟨_, rfl⟩)
  opens {i t} hi := by
    rcases getElem?_loop_cases hi with ⟨rfl, heq⟩ | ⟨k, rfl, hk⟩ | ⟨-, heq⟩
    · cases heq
      exact ⟨body.length + 1, by rw [Nat.add_assoc], by omega, getElem?_loop_close _ _ _⟩
    · rcases h.opens hk with ⟨j, rfl, hij, hj⟩
      rw [Nat.add_assoc, Nat.add_comm 1 k] at hj
      exact ⟨j + 1, by rw [Nat.add_assoc, Nat.add_comm 1 j], by omega, getElem?_loop_body hj _ _⟩
    · cases heq
  closes {j t} hj := by
    rcases getElem?_loop_cases hj with ⟨-, heq⟩ | ⟨k, rfl, hk⟩ | ⟨rfl, heq⟩
    · cases heq
    · rcases h.closes hk with ⟨i, rfl, hij, hi⟩
      rw [Nat.add_assoc, Nat.add_comm 1 k] at hi
      exact ⟨i + 1, by rw [Nat.add_assoc, Nat.add_comm 1 i], by omega, getElem?_loop_body hi _ _⟩
    · cases heq
      exact ⟨0, rfl, by omega, by rw [Nat.add_assoc]; rfl⟩
  nested {i j i' j'} hi hi' hlt := by
    rcases getElem?_loop_cases hi' with ⟨rfl, -⟩ | ⟨k', rfl, hk'⟩ | ⟨-, heq⟩
    · omega
    · rcases h.opens hk' with ⟨m', hm', -, hclose'⟩
      have hbound := lt_length hclose'
      rcases getElem?_loop_cases hi with ⟨rfl, heq⟩ | ⟨k, rfl, hk⟩ | ⟨-, heq⟩
      · -- The outer loop ends behind the whole body.
        simp only [Instruction.jump.injEq, true_and] at heq
        exact Or.inr (by omega)
      · rcases h.opens hk with ⟨m, hm, -, -⟩
        rw [hm] at hk
        rw [hm'] at hk'
        rcases h.nested hk hk' (by omega) with hapart | hinside
        · exact Or.inl (by omega)
        · exact Or.inr (by omega)
      · cases heq
    · cases heq

end Resolved

/-- A block is resolved wherever it is laid out. -/
theorem resolved_code (start : Nat) {b : Block} (h : b.All (1 ≤ ·)) :
    Resolved start (b.code start) := by
  induction b generalizing start with
  | nil => exact Resolved.nil start
  | op c n rest ih =>
    have hcount : (1 : Int) ≤ n := by
      have := h.1
      omega
    exact (Resolved.op start c hcount).append (ih (start + 1) h.2)
  | loop body rest ihb ihr =>
    have hloop := (ihb (start + 1) h.1).loop
    have hrest := ihr (start + body.length + 2) h.2
    have hsplit : (Block.loop body rest).code start =
        (.jump .loopOpen (start + body.length + 1 : Nat) ::
          (body.code (start + 1) ++ [.jump .loopClose start])) ++
            rest.code (start + body.length + 2) := by
      simp [Block.code]
    rw [hsplit]
    rw [Block.length_code] at hloop
    apply hloop.append
    have hlength : start + (Instruction.jump .loopOpen (start + body.length + 1 : Nat) ::
        (body.code (start + 1) ++ [.jump .loopClose start])).length = start + body.length + 2 := by
      simp
      omega
    rw [hlength]
    exact hrest

/-! ## Programs -/

/-- The loops of a program are resolved.  An interval of a loop is that from
its opening to its closing bracket. -/
structure Program.WellNested (p : Program) : Prop where
  /-- There are only commands, carried out at least once, and bracket jumps. -/
  kinds : ∀ x ∈ p.code, x.IsBuilt
  /-- An opening bracket jumps to a later closing one that jumps back. -/
  opens : ∀ {i : Nat} {t : Int}, p.code[i]? = some (.jump .loopOpen t) →
    ∃ j : Nat, t = j ∧ i < j ∧ j < p.size ∧ p.code[j]? = some (.jump .loopClose i)
  /-- A closing bracket jumps to an earlier opening one that jumps back. -/
  closes : ∀ {j : Nat} {t : Int}, p.code[j]? = some (.jump .loopClose t) →
    ∃ i : Nat, t = i ∧ i < j ∧ p.code[i]? = some (.jump .loopOpen j)
  /-- The intervals of two loops are apart, or the later one is inside. -/
  nested : ∀ {i j i' j' : Nat}, p.code[i]? = some (.jump .loopOpen j) →
    p.code[i']? = some (.jump .loopOpen j') → i < i' → j < i' ∨ j' < j
  /-- No jump leads nowhere. -/
  resolved : ∀ x ∈ p.code, x.target? ≠ some (-1)

theorem Program.wellNested_ofBlock {b : Block} (h : b.All (1 ≤ ·)) : (ofBlock b).WellNested := by
  have hcode := resolved_code 0 h
  have hget (i : Nat) : (ofBlock b).code[i]? = (b.code 0)[i]? := by
    rw [← toList_code_ofBlock, Array.getElem?_toList]
  have hopens {i : Nat} {t : Int} (hi : (ofBlock b).code[i]? = some (.jump .loopOpen t)) :
      ∃ j : Nat, t = j ∧ i < j ∧ j < (ofBlock b).size ∧
        (ofBlock b).code[j]? = some (.jump .loopClose i) := by
    rw [hget] at hi
    rcases hcode.opens hi with ⟨j, rfl, hij, hj⟩
    rw [Nat.zero_add, ← hget] at hj
    exact ⟨j, by rw [Nat.zero_add], hij, (Array.getElem?_eq_some_iff.1 hj).1, hj⟩
  have hcloses {j : Nat} {t : Int} (hj : (ofBlock b).code[j]? = some (.jump .loopClose t)) :
      ∃ i : Nat, t = i ∧ i < j ∧ (ofBlock b).code[i]? = some (.jump .loopOpen j) := by
    rw [hget] at hj
    rcases hcode.closes hj with ⟨i, rfl, hij, hi⟩
    rw [Nat.zero_add, ← hget] at hi
    exact ⟨i, by rw [Nat.zero_add], hij, hi⟩
  have hkinds : ∀ x ∈ (ofBlock b).code, x.IsBuilt := by
    intro x hx
    rw [← Array.mem_toList_iff, toList_code_ofBlock] at hx
    exact hcode.kinds x hx
  refine ⟨hkinds, hopens, hcloses, ?_, ?_⟩
  · intro i j i' j' hi hi' hlt
    rw [hget] at hi hi'
    exact hcode.nested (by rwa [Nat.zero_add]) (by rwa [Nat.zero_add]) hlt
  · -- A target is the index of the partner, and an index is not negative.
    intro x hx hneg
    rcases Array.getElem?_of_mem hx with ⟨i, hi⟩
    rcases hkinds x hx with ⟨c, n, rfl, -⟩ | ⟨t, rfl⟩ | ⟨t, rfl⟩
    · cases hneg
    · rcases hopens hi with ⟨j, rfl, -⟩
      simp only [Instruction.target?, Option.some.injEq] at hneg
      omega
    · rcases hcloses hi with ⟨j, rfl, -⟩
      simp only [Instruction.target?, Option.some.injEq] at hneg
      omega

/-- Every program that any of any number of builds gives has resolved loops,
whatever the tokens come from and whether or not commands are joined. -/
theorem wellNested_of_mem_builds (s : Source) (fold : Bool) (n : Nat) (p : Program)
    (h : .ok p ∈ ({ source := s, fold } : Assembly).builds n) : p.WellNested := by
  obtain ⟨b, rfl, hb⟩ := Assembly.exists_block_of_mem_builds (q := (1 ≤ ·)) (Nat.le_refl 1)
    (fun _ m hm => Nat.le_succ_of_le hm) (Draft.all_empty _) h
  exact Program.wellNested_ofBlock hb

/-- The third build of a list gives a program although the first two met a
stray bracket and the end of a loop that was still open. -/
theorem wellNested_of_mem_builds_third :
    let s : Source := .tokens [.loopClose, .command .increment, .loopOpen, .command .left,
      .endOfText, .command .left, .loopClose]
    let p : Program := ⟨#[.op (.command .increment) 1, .jump .loopOpen 4, .op (.command .left) 1,
      .op (.command .left) 1, .jump .loopClose 1]⟩
    .ok p ∈ ({ source := s } : Assembly).builds 3 ∧ p.WellNested := by
  have h : .ok (⟨#[.op (.command .increment) 1, .jump .loopOpen 4, .op (.command .left) 1,
      .op (.command .left) 1, .jump .loopClose 1]⟩ : Program) ∈
      ({ source := .tokens [.loopClose, .command .increment, .loopOpen, .command .left,
        .endOfText, .command .left, .loopClose] } : Assembly).builds 3 :=
    List.mem_cons_of_mem _ (List.mem_cons_of_mem _ List.mem_cons_self)
  exact ⟨h, wellNested_of_mem_builds _ true 3 _ h⟩

end Brainfuck
