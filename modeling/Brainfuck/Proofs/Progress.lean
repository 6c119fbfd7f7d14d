import Brainfuck.Proofs.Safety

/-!
# What every step keeps

A program need not have been built from a text: its counts, kinds and targets
may be anything, and so may what its streams do.  Still there are things that a
run cannot do.  It does not change the number of cells, it does not take the
cursor off the tape, it takes back nothing that was written, and it counts every
instruction that it begins.

* `State.Progress` says this of two states, one of which comes after the other.
* `Ending.TrueOf` says that an ending fits the state in which the run ends.
* `State.execute_progresses` is one instruction, put together from a lemma for
  each thing that an instruction may do.  The proofs on whole runs do not look
  into instructions any more.
* `State.step_cases` says that a step ends the run where it stands, or begins an
  instruction.  `State.step_at_limit` and `State.step_below_limit` say which of the two
  it is if there is a limit.
* `State.run_progress` and `State.steps_run_le` are whole runs, by induction on
  their rounds.
-/

namespace Brainfuck

/-- `s'` may come after `s` when `n` more instructions have been begun. -/
structure State.Progress (n : Nat) (s s' : State) : Prop where
  steps : s'.steps = s.steps + n
  size : s'.tape.size = s.tape.size
  within : s.tape.Within → s'.tape.Within
  written : s.written.toList <+: s'.written.toList

/-- What the ending says of the run is true of the state in which it ends. -/
def Ending.TrueOf (s : State) : Ending → Prop
  | .failed e => e.ip = s.ip ∧ e.cursor = s.tape.cursor
  | .broken (.tape _) => ¬ s.tape.Within
  | _ => True

/-- The step makes progress, and stops only with what is true. -/
def Step.Progresses (n : Nat) (s : State) : Step → Prop
  | .next s' => s.Progress n s'
  | .stop s' e => s.Progress n s' ∧ e.TrueOf s'

namespace State.Progress

variable {n k : Nat} {s s₁ s' : State}

theorem refl (s : State) : s.Progress 0 s :=
  ⟨rfl, rfl, id, List.prefix_rfl⟩

theorem trans (h : s.Progress n s₁) (h' : s₁.Progress k s') : s.Progress (n + k) s' where
  steps := by
    rw [h'.steps, h.steps]
    omega
  size := h'.size.trans h.size
  within hs := h'.within (h.within hs)
  written := h.written.trans h'.written

theorem trans_step {st : Step} (h : s.Progress n s₁) (hst : st.Progresses k s₁) :
    st.Progresses (n + k) s := by
  cases st with
  | next s' => exact h.trans hst
  | stop s' e => exact ⟨h.trans hst.1, hst.2⟩

/-- The next instruction is begun. -/
theorem begin (s : State) : s.Progress 1 { s with steps := s.steps + 1 } :=
  ⟨rfl, rfl, id, List.prefix_rfl⟩

/-- The tape changes, but neither its size nor the place of its cursor. -/
theorem put (s : State) (b : UInt8) (ip : Int) (reads : Nat) :
    s.Progress 0 { s with tape := s.tape.put b, ip, reads } :=
  ⟨rfl, Tape.size_put s.tape b, fun h => h.put b, List.prefix_rfl⟩

end State.Progress

namespace State

variable {p : Program} {io : Streams} {limit : Option Int} {s : State}

/-! ## Instructions -/

theorem advance_progresses (s : State) : s.advance.Progresses 0 s :=
  ⟨rfl, rfl, id, List.prefix_rfl⟩

/-- The report of a failure is true, and so is the defect that comes in its place. -/
theorem trueOf_report (s : State) (cause : Failure.Cause) :
    (Failure.ending ⟨cause, s.ip, s.tape.cursor⟩).TrueOf s := by
  unfold Failure.ending
  split
  · exact ⟨rfl, rfl⟩
  · exact trivial

theorem fail_progresses (s : State) (cause : Failure.Cause) : (s.fail cause).Progresses 0 s :=
  ⟨.refl s, s.trueOf_report cause⟩

/-- A defect other than a tape without a cell at its cursor is always true. -/
theorem breakDown_progresses (s : State) {d : Defect} (hd : ∀ e, d ≠ .tape e) :
    (s.breakDown d).Progresses 0 s := by
  refine ⟨.refl s, ?_⟩
  cases d with
  | tape e => exact absurd rfl (hd e)
  | _ => exact trivial

theorem offTape_progresses (h : s.tape.current? = none) : s.offTape.Progresses 0 s := by
  refine ⟨.refl s, ?_⟩
  intro hwithin
  obtain ⟨b, hb⟩ := hwithin.exists_current
  rw [h] at hb
  cases hb

theorem move_progresses (s : State) (delta : Int) : (s.move delta).Progresses 0 s := by
  unfold move
  cases htape : s.tape.move? delta with
  | none => exact fail_progresses s _
  | some tape =>
    refine ⟨rfl, ?_, fun _ => .of_move htape, List.prefix_rfl⟩
    unfold Tape.move? at htape
    split at htape <;> cases htape
    rfl

theorem add_progresses (s : State) (n : Int) : (s.add n).Progresses 0 s := by
  unfold add
  cases hb : s.tape.current? with
  | none => exact offTape_progresses hb
  | some b => exact .put s _ _ s.reads

theorem write_progresses (s : State) (io : Streams) (count : Int) :
    (s.write io count).Progresses 0 s := by
  unfold write
  split
  · exact offTape_progresses ‹_›
  · split
    · exact breakDown_progresses s (by simp)
    · split
      · refine ⟨rfl, rfl, id, ?_⟩
        rw [Array.toList_push]
        exact List.prefix_append _ _
      · split
        · exact fail_progresses s _
        · exact breakDown_progresses s (by simp)

theorem refuse_progresses (s : State) (problem : Reading.Problem) :
    (s.refuse problem).Progresses 0 s := by
  cases problem with
  | exhausted => exact fail_progresses s _
  | longText length => exact breakDown_progresses s (by simp)
  | fault f =>
    rw [refuse]
    split
    · exact fail_progresses s _
    · exact breakDown_progresses s (by simp)

/-- Reads in a row.  The induction is on how many are left; each of them begins
with the byte that the one before has stored. -/
theorem read_progresses (io : Streams) (count : Nat) (s : State) :
    (read io count s).Progresses 0 s := by
  induction count generalizing s with
  | zero => exact advance_progresses s
  | succ count ih =>
    have hread : s.Progress 0 { s with reads := s.reads + 1 } :=
      ⟨rfl, rfl, id, List.prefix_rfl⟩
    rw [read]
    cases hbyte : (io.read s.reads).byte with
    | error problem => exact hread.trans_step (refuse_progresses _ problem)
    | ok b =>
      cases hc : s.tape.current? with
      | none => exact hread.trans_step (offTape_progresses hc)
      | some c => exact (Progress.put s b s.ip (s.reads + 1)).trans_step (ih _)

theorem branch_progresses (s : State) (test : UInt8 → Bool) (target? : Option Int) :
    (s.branch test target?).Progresses 0 s := by
  unfold branch
  split
  · split
    · split
      · exact ⟨rfl, rfl, id, List.prefix_rfl⟩
      · exact breakDown_progresses s (by simp)
    · exact advance_progresses s
  · exact offTape_progresses ‹_›

theorem perform_progresses (s : State) (io : Streams) (count : Int) (c : Command) :
    (s.perform io count c).Progresses 0 s := by
  cases c with
  | right => exact move_progresses s count
  | left => exact move_progresses s (-count)
  | increment => exact add_progresses s count
  | decrement => exact add_progresses s (-count)
  | write => exact write_progresses s io count
  | read => exact read_progresses io count.toNat s

theorem execute_progresses (s : State) (io : Streams) (x : Instruction) :
    (s.execute io x).Progresses 0 s := by
  unfold execute
  cases x.kind with
  | command c =>
    cases x.count? with
    | some count => exact perform_progresses s io count c
    | none => exact breakDown_progresses s (by simp)
  | loopOpen => exact branch_progresses s _ _
  | loopClose => exact branch_progresses s _ _
  | endOfText => exact advance_progresses s

/-! ## Steps -/

theorem step_at_limit {k : Int} (hip : s.ip < p.size) (hk : k ≤ (s.steps : Int)) :
    s.step p io (some k) = s.fail (.stepLimit k) := by
  unfold step
  rw [if_neg (by omega), Option.filter_some, if_pos (by simpa using hk)]

/-- Below the limit, a step is what it is without one. -/
theorem step_below_limit (h : ∀ k, limit = some k → (s.steps : Int) < k) :
    s.step p io limit = s.step p io none := by
  have hfilter : limit.filter (fun k => k ≤ (s.steps : Int)) = none := by
    apply Option.filter_eq_none_iff.2
    intro k hk
    have hlt := h k hk
    simpa using hlt
  unfold step
  rw [hfilter, Option.filter_none]

/-- Without a limit, a step inside the program begins one instruction. -/
theorem step_progresses (hip : s.ip < p.size) (io : Streams) :
    (s.step p io none).Progresses 1 s := by
  unfold step
  rw [if_neg (by omega), Option.filter_none]
  cases hget : p.get? s.ip with
  | some x => exact (Progress.begin s).trans_step (execute_progresses _ io x)
  | none => exact (Progress.begin s).trans_step (breakDown_progresses _ (by simp))

/-- A step ends the run where it stands, or it begins an instruction and the limit
allows for that. -/
theorem step_cases (p : Program) (io : Streams) (limit : Option Int) (s : State) :
    (∃ e, s.step p io limit = .stop s e ∧ e.TrueOf s) ∨
      (∀ k, limit = some k → (s.steps : Int) < k) ∧ (s.step p io limit).Progresses 1 s := by
  by_cases hip : p.size ≤ s.ip
  · exact Or.inl ⟨.finished, step_at_end hip, trivial⟩
  · have hlt : s.ip < p.size := by omega
    by_cases hlimit : ∀ k, limit = some k → (s.steps : Int) < k
    · refine Or.inr ⟨hlimit, ?_⟩
      rw [step_below_limit hlimit]
      exact step_progresses hlt io
    · simp only [not_forall, Int.not_lt] at hlimit
      obtain ⟨k, rfl, hk⟩ := hlimit
      exact Or.inl ⟨_, step_at_limit hlt hk, s.trueOf_report (.stepLimit k)⟩

/-- A step that goes on leaves the cursor on the tape. -/
theorem within_of_next {s' : State} (hstep : s.step p io limit = .next s') (h : s.tape.Within) :
    s'.tape.Within := by
  rcases step_cases p io limit s with ⟨e, hstop, -⟩ | ⟨-, hbegun⟩
  · rw [hstep] at hstop
    cases hstop
  · rw [hstep] at hbegun
    exact hbegun.within h

/-! ## Runs -/

/-- A run makes progress.  As long as it has not ended, it has begun one
instruction in every round. -/
theorem run_progress (p : Program) (io : Streams) (limit : Option Int) (rounds : Nat) (s : State) :
    ∃ n, n ≤ rounds ∧ s.Progress n (run p io limit rounds s).1 ∧
      ((run p io limit rounds s).2 = none → n = rounds) ∧
      ∀ e, (run p io limit rounds s).2 = some e → e.TrueOf (run p io limit rounds s).1 := by
  induction rounds generalizing s with
  | zero => exact ⟨0, Nat.le_refl 0, .refl s, fun _ => rfl, nofun⟩
  | succ rounds ih =>
    rcases step_cases p io limit s with ⟨e, hstep, htrue⟩ | ⟨-, hbegun⟩
    · rw [run_of_stop hstep]
      refine ⟨0, Nat.zero_le _, .refl s, nofun, ?_⟩
      intro e' he'
      cases he'
      exact htrue
    · cases hstep : s.step p io limit with
      | next s₁ =>
        rw [hstep] at hbegun
        rw [run_of_next hstep]
        obtain ⟨n, hn, hprogress, hnone, htrue⟩ := ih s₁
        refine ⟨1 + n, by omega, hbegun.trans hprogress, ?_, htrue⟩
        intro hgoesOn
        rw [hnone hgoesOn]
        omega
      | stop s₁ e =>
        rw [hstep] at hbegun
        rw [run_of_stop hstep]
        refine ⟨1, by omega, hbegun.1, nofun, ?_⟩
        intro e' he'
        cases he'
        exact hbegun.2

/-- A run that has not ended has begun one instruction in every round. -/
theorem steps_run {rounds : Nat} (h : (run p io limit rounds s).2 = none) :
    (run p io limit rounds s).1.steps = s.steps + rounds := by
  obtain ⟨n, -, hprogress, hnone, -⟩ := run_progress p io limit rounds s
  rw [hprogress.steps, hnone h]

/-- No run begins more instructions than the limit allows. -/
theorem steps_run_le (p : Program) (io : Streams) {k : Int} (rounds : Nat)
    (h : (s.steps : Int) ≤ max k 0) : ((run p io (some k) rounds s).1.steps : Int) ≤ max k 0 := by
  induction rounds generalizing s with
  | zero => exact h
  | succ rounds ih =>
    rcases step_cases p io (some k) s with ⟨e, hstep, -⟩ | ⟨hlt, hbegun⟩
    · rw [run_of_stop hstep]
      exact h
    · have hroom := hlt k rfl
      cases hstep : s.step p io (some k) with
      | next s₁ =>
        rw [hstep] at hbegun
        rw [run_of_next hstep]
        apply ih
        rw [hbegun.steps]
        omega
      | stop s₁ e =>
        rw [hstep] at hbegun
        rw [run_of_stop hstep, hbegun.1.steps]
        omega

end State

/-- The run of a machine is the run from the state in which it starts. -/
theorem Machine.run_of_state {m : Machine} {p : Program} {io : Streams} {rounds : Nat} {s : State}
    {ending : Option Ending} (h : State.run p io m.limit rounds m.start = (s, ending)) :
    m.run p io rounds =
      ⟨{ m with tape := s.tape, ip := s.ip, steps := s.steps }, s.reads, s.written, ending⟩ := by
  rw [run, h]

/-! ## The result -/

/-- A run of any program guards the tape, and reports its state truthfully.
Wherever it has come to, ended or not, the tape has its size, the cursor is on the
tape and the cells are bytes, so that no cell is ever looked for in vain.  (Between two
reads of one instruction it stands where a run ends whose second read fails.)  It never
begins more instructions than the limit allows, so that it ends if there is one.
And if the machine reports a failure, it reports the place where it stands. -/
theorem run_guards_tape (m : Machine) (p : Program) (io : Streams) (rounds : Nat) :
    let r := m.run p io rounds
    (r.machine.tape.size = m.tape.size ∧
      0 ≤ r.machine.tape.cursor ∧ r.machine.tape.cursor < m.tape.size ∧
      (∀ b ∈ r.machine.tape.cells, b.toNat ≤ 255) ∧
      ∀ e, r.ending ≠ some (.broken (.tape e))) ∧
    (∀ k, m.limit = some k →
      (r.machine.steps : Int) ≤ max k 0 ∧ (max k 0 < rounds → r.ending ≠ none)) ∧
    ∀ e, r.ending = some (.failed e) →
      e.ip = r.machine.ip ∧ e.cursor = r.machine.tape.cursor := by
  intro r
  obtain ⟨n, -, hprogress, hnone, htrue⟩ := State.run_progress p io m.limit rounds m.start
  have hwithin : r.machine.tape.Within := hprogress.within (.reset m.tape)
  have hsize : r.machine.tape.size = m.tape.size :=
    hprogress.size.trans (Tape.size_reset m.tape)
  have hsteps (k : Int) (hk : m.limit = some k) : (r.machine.steps : Int) ≤ max k 0 := by
    have hstart : (m.start.steps : Int) ≤ max k 0 := Int.le_max_right k 0
    have hle := State.steps_run_le p io rounds hstart
    rwa [← hk] at hle
  refine ⟨⟨hsize, hwithin.nonneg, hsize ▸ hwithin.lt, ?_, ?_⟩, ?_, fun e he => htrue _ he⟩
  · intro b _
    exact Nat.le_of_lt_succ b.toNat_lt
  · intro e he
    exact htrue _ he hwithin
  · intro k hk
    refine ⟨hsteps k hk, ?_⟩
    intro hrounds hending
    have hle := hsteps k hk
    have hcount : r.machine.steps = 0 + rounds := State.steps_run hending
    omega

/-- A jump goes back behind the beginning of the program, where the instructions
are counted from its end, and round and round until the limit is reached. -/
theorem run_guards_tape_of_wild_jump :
    let m : Machine := { tape := .blank 1 (by decide), limit := some 5 }
    let p : Program := ⟨#[.op (.command .increment) (-300), .jump .loopClose (-3)]⟩
    let io := Streams.ofLists #[] #[]
    let e : Failure := ⟨.stepLimit 5, -1, 0⟩
    (m.limit = some 5 ∧ (max 5 0 : Int) < (6 : Nat) ∧ (m.run p io 6).ending = some (.failed e)) ∧
    ((m.run p io 6).machine.steps : Int) ≤ max 5 0 ∧ (m.run p io 6).ending ≠ none ∧
      e.ip = (m.run p io 6).machine.ip ∧ e.cursor = (m.run p io 6).machine.tape.cursor := by
  intro m p io e
  have hlimit : m.limit = some 5 := rfl
  have hrounds : (max 5 0 : Int) < (6 : Nat) := by decide
  have hending : (m.run p io 6).ending = some (.failed e) := by decide +kernel
  obtain ⟨-, hguarded, hreport⟩ := run_guards_tape m p io 6
  obtain ⟨hsteps, hends⟩ := hguarded 5 hlimit
  exact ⟨⟨hlimit, hrounds, hending⟩, hsteps, hends hrounds, hreport e hending⟩

end Brainfuck
