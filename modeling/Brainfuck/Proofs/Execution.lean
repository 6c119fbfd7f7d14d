import Brainfuck.Program.Block
import Brainfuck.Run.Machine

/-!
# Runs and laid out blocks

What is needed to follow a run through a program.

* `run_add` splits a run, `run_of_ended` and `ended_unique` say that an ending
  is final, and `exists_of_ended` that a run that ends does so behind every
  state on its way.
* `Program.Holds` says that a program has certain instructions from an index on.
  `Program.Holds.op` and `Program.Holds.loop` take apart the layout of a block.
* `step_at` carries out the instruction at an index.  `step_close` says that a
  closing bracket does what the opening one does, so that a run which comes to
  the end of the body of a loop may be taken to begin the loop again.
* `Leads` says of a run that it comes to a state of some kind or else ends in
  some way.  `Leads.bind` puts two such runs together.
-/

namespace Brainfuck

namespace State

variable {p : Program} {io : Streams} {limit : Option Int} {s s₁ s' : State}

/-! ## Splitting a run -/

theorem run_of_next (h : s.step p io limit = .next s₁) (n : Nat) :
    run p io limit (n + 1) s = run p io limit n s₁ := by
  rw [run, h]

theorem run_of_stop {e : Ending} (h : s.step p io limit = .stop s' e) (n : Nat) :
    run p io limit (n + 1) s = (s', some e) := by
  unfold run
  rw [h]

theorem run_add {n : Nat} (h : run p io limit n s = (s₁, none)) (k : Nat) :
    run p io limit (n + k) s = run p io limit k s₁ := by
  induction n generalizing s with
  | zero =>
    cases h
    rw [Nat.zero_add]
  | succ n ih =>
    rw [show n + 1 + k = n + k + 1 by omega]
    cases hstep : s.step p io limit with
    | next s₂ =>
      rw [run_of_next hstep] at h ⊢
      exact ih h
    | stop s₂ e =>
      rw [run_of_stop hstep] at h
      cases h

theorem run_of_ended {n : Nat} {e : Ending} (h : run p io limit n s = (s', some e)) (k : Nat) :
    run p io limit (n + k) s = (s', some e) := by
  induction n generalizing s with
  | zero => cases h
  | succ n ih =>
    rw [show n + 1 + k = n + k + 1 by omega]
    cases hstep : s.step p io limit with
    | next s₂ =>
      rw [run_of_next hstep] at h ⊢
      exact ih h
    | stop s₂ e =>
      rw [run_of_stop hstep] at h ⊢
      exact h

/-- A run ends in one way only, however many rounds it is given. -/
theorem ended_unique {n n' : Nat} {s'' : State} {e e' : Ending}
    (h : run p io limit n s = (s', some e)) (h' : run p io limit n' s = (s'', some e')) :
    s' = s'' ∧ e = e' := by
  have hsum := run_of_ended h n'
  rw [show n + n' = n' + n by omega, run_of_ended h' n] at hsum
  cases hsum
  exact ⟨rfl, rfl⟩

/-- A run that ends passes through every state that it comes to. -/
theorem exists_of_ended {n n' : Nat} {e : Ending} (h : run p io limit n s = (s₁, none))
    (h' : run p io limit n' s = (s', some e)) :
    ∃ k, n' = n + (k + 1) ∧ run p io limit (k + 1) s₁ = (s', some e) := by
  have hlt : n < n' := by
    apply Nat.lt_of_not_le
    intro hle
    have hended := run_of_ended h' (n - n')
    rw [show n' + (n - n') = n by omega, h] at hended
    cases hended
  refine ⟨n' - n - 1, by omega, ?_⟩
  rw [← run_add h, show n + (n' - n - 1 + 1) = n' by omega, h']

end State

/-! ## Instructions of a program -/

namespace Program

/-- The program has these instructions from the index on. -/
def Holds (p : Program) (start : Nat) (code : List Instruction) : Prop :=
  ∀ i x, code[i]? = some x → p.code[start + i]? = some x

variable {p : Program} {start : Nat}

theorem Holds.head {x : Instruction} {code : List Instruction} (h : p.Holds start (x :: code)) :
    p.code[start]? = some x :=
  h 0 x rfl

theorem Holds.tail {x : Instruction} {code : List Instruction} (h : p.Holds start (x :: code)) :
    p.Holds (start + 1) code := by
  intro i y hy
  rw [show start + 1 + i = start + (i + 1) by omega]
  exact h (i + 1) y hy

theorem Holds.left {xs ys : List Instruction} (h : p.Holds start (xs ++ ys)) :
    p.Holds start xs := by
  intro i x hx
  have hi := (List.getElem?_eq_some_iff.1 hx).1
  exact h i x (by rw [List.getElem?_append_left hi, hx])

theorem Holds.right {xs ys : List Instruction} (h : p.Holds start (xs ++ ys)) :
    p.Holds (start + xs.length) ys := by
  intro i y hy
  rw [show start + xs.length + i = start + (xs.length + i) by omega]
  apply h (xs.length + i) y
  rw [List.getElem?_append_right (by omega), show xs.length + i - xs.length = i by omega, hy]

theorem Holds.op {c : Command} {n : Nat} {rest : Block}
    (h : p.Holds start ((Block.op c n rest).code start)) :
    p.code[start]? = some (.op (.command c) n) ∧ p.Holds (start + 1) (rest.code (start + 1)) :=
  ⟨h.head, h.tail⟩

theorem Holds.loop {body rest : Block} (h : p.Holds start ((Block.loop body rest).code start)) :
    p.code[start]? = some (.jump .loopOpen (start + body.length + 1 : Nat)) ∧
      p.Holds (start + 1) (body.code (start + 1)) ∧
      p.code[start + body.length + 1]? = some (.jump .loopClose start) ∧
      p.Holds (start + body.length + 2) (rest.code (start + body.length + 2)) := by
  have hinner := h.tail
  have hclose := hinner.right
  rw [Block.length_code, show start + 1 + body.length = start + body.length + 1 by omega] at hclose
  exact ⟨h.head, hinner.left, hclose.head, hclose.tail⟩

theorem holds_ofBlock (b : Block) : (ofBlock b).Holds 0 (b.code 0) := by
  intro i x hx
  rw [← toList_code_ofBlock, Array.getElem?_toList] at hx
  rw [Nat.zero_add, hx]

theorem size_ofBlock (b : Block) : (ofBlock b).size = b.length := by
  have hlength := congrArg List.length (toList_code_ofBlock b)
  rw [Block.length_code, Array.length_toList] at hlength
  exact hlength

end Program

/-! ## Single steps -/

namespace State

variable {p : Program} {io : Streams} {s : State}

/-- Without a limit, a step at an instruction carries it out. -/
theorem step_at {i : Nat} {x : Instruction} (hx : p.code[i]? = some x) (hip : s.ip = i) :
    s.step p io none = { s with steps := s.steps + 1 }.execute io x := by
  have hi : i < p.size := (Array.getElem?_eq_some_iff.1 hx).1
  have hget : p.get? s.ip = some x := by
    unfold Program.get?
    rw [hip, if_pos (by omega), Int.toNat_natCast, hx]
  unfold step
  rw [if_neg (by omega), Option.filter_none]
  simp only [hget]

theorem step_at_end {limit : Option Int} (h : p.size ≤ s.ip) :
    s.step p io limit = .stop s .finished := by
  unfold step
  rw [if_pos h]

section Loop

variable {i j : Nat} {b : UInt8}

theorem step_open_zero (hopen : p.code[i]? = some (.jump .loopOpen j)) (hip : s.ip = i)
    (hb : s.tape.current? = some 0) :
    s.step p io none = .next { s with ip := j + 1, steps := s.steps + 1 } := by
  rw [step_at hopen hip]
  simp [execute, Instruction.kind, Instruction.target?, branch, hb]

theorem step_open_nonzero (hopen : p.code[i]? = some (.jump .loopOpen j)) (hip : s.ip = i)
    (hb : s.tape.current? = some b) (hne : b ≠ 0) :
    s.step p io none = .next { s with ip := i + 1, steps := s.steps + 1 } := by
  rw [step_at hopen hip]
  simp [execute, Instruction.kind, branch, advance, hb, hne, hip]

/-- At the closing bracket of a loop a run goes on as it does at the opening one. -/
theorem step_close (hopen : p.code[i]? = some (.jump .loopOpen j))
    (hclose : p.code[j]? = some (.jump .loopClose i)) (hip : s.ip = j)
    (hb : s.tape.current? = some b) :
    s.step p io none = { s with ip := i }.step p io none := by
  rw [step_at hclose hip]
  by_cases hzero : b = 0
  · rw [step_open_zero hopen rfl (by rw [hb, hzero])]
    simp [execute, Instruction.kind, branch, advance, hb, hzero, hip]
  · have hopened : { s with ip := i }.step p io none = _ := step_open_nonzero hopen rfl hb hzero
    rw [hopened]
    simp [execute, Instruction.kind, Instruction.target?, branch, hb, hzero]

end Loop

/-! ## Where a run leads -/

/-- The run from a state comes to one that `Q` holds of, or it ends as `X` says. -/
inductive Leads (p : Program) (io : Streams) (Q : State → Prop) (X : State → Ending → Prop) :
    State → Prop
  | here {s : State} : Q s → Leads p io Q X s
  | next {s s₁ : State} : s.step p io none = .next s₁ → Leads p io Q X s₁ → Leads p io Q X s
  | stop {s s' : State} {e : Ending} : s.step p io none = .stop s' e → X s' e → Leads p io Q X s

namespace Leads

variable {Q Q' : State → Prop} {X X' : State → Ending → Prop}

theorem mono (h : Leads p io Q X s) (hQ : ∀ s', Q s' → Q' s') (hX : ∀ s' e, X s' e → X' s' e) :
    Leads p io Q' X' s := by
  induction h with
  | here hs => exact here (hQ _ hs)
  | next hstep _ ih => exact next hstep ih
  | stop hstep hs => exact stop hstep (hX _ _ hs)

theorem bind (h : Leads p io Q X s) (hQ : ∀ s', Q s' → Leads p io Q' X s') :
    Leads p io Q' X s := by
  induction h with
  | here hs => exact hQ _ hs
  | next hstep _ ih => exact next hstep ih
  | stop hstep hs => exact stop hstep hs

/-- Two states that take the same step lead to the same, unless one of them is
there already. -/
theorem of_step_eq {s₁ : State} (h : Leads p io Q X s₁) (hQ : ¬ Q s₁)
    (hstep : s.step p io none = s₁.step p io none) : Leads p io Q X s := by
  cases h with
  | here hs => exact absurd hs hQ
  | next hnext hrest => exact next (hstep.trans hnext) hrest
  | stop hstop hs => exact stop (hstep.trans hstop) hs

theorem exists_run (h : Leads p io Q X s) :
    (∃ n s', run p io none n s = (s', none) ∧ Q s') ∨
      ∃ n s' e, run p io none n s = (s', some e) ∧ X s' e := by
  induction h with
  | here hs => exact Or.inl ⟨0, _, rfl, hs⟩
  | stop hstep hs => exact Or.inr ⟨1, _, _, run_of_stop hstep 0, hs⟩
  | next hstep _ ih =>
    rcases ih with ⟨n, s', hrun, hs'⟩ | ⟨n, s', e, hrun, hs'⟩
    · exact Or.inl ⟨n + 1, s', by rw [run_of_next hstep, hrun], hs'⟩
    · exact Or.inr ⟨n + 1, s', e, by rw [run_of_next hstep, hrun], hs'⟩

end Leads

end State

end Brainfuck
