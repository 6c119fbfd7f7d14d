import Mathlib.Data.ENat.Lattice
import Mathlib.Order.CompletePartialOrder
import Brainfuck.Proofs.Progress

/-!
# The limit on steps

A limit cuts a run off in front of the first instruction that it does not allow,
and changes nothing else.  So a run under a limit is the run without one, if that
begins no more instructions than allowed; and otherwise it fails where the other
one stands when it has begun just as many.

* `Machine.begun` is how many instructions a run begins if nothing stops it.  It tells
  whether the run ends (`Machine.begun_of_endless`, `Machine.exists_ended_of_begun_le`).
* `State.run_limit_of_le`: if the unlimited run never begins more than the limit
  allows, the limited run is the same, round by round.
* `State.exists_run_of_limit_lt`: if the unlimited run goes beyond the limit, both
  runs come to one state inside the program where the limit is just reached.

A limit below zero allows as much as zero does, which is `Int.toNat`.
-/

namespace Brainfuck

/-! ## Instructions begun -/

namespace State

variable {p : Program} {io : Streams} {limit : Option Int} {s s' : State}

/-- The count of steps never goes back. -/
theorem steps_run_mono {n n' : Nat} (h : n ≤ n') :
    (run p io limit n s).1.steps ≤ (run p io limit n' s).1.steps := by
  obtain ⟨k, rfl⟩ := Nat.exists_eq_add_of_le h
  rcases hrun : run p io limit n s with ⟨s₁, ending⟩
  cases ending with
  | some e =>
    rw [run_of_ended hrun]
  | none =>
    obtain ⟨i, -, hprogress, -⟩ := run_progress p io limit k s₁
    rw [run_add hrun, hprogress.steps]
    exact Nat.le_add_right s₁.steps i

end State

namespace Machine

/-- How many instructions a run begins if there is no limit.  They are infinitely
many if the run never ends. -/
noncomputable def begun (m : Machine) (p : Program) (io : Streams) : ℕ∞ :=
  ⨆ rounds, ((({ m with limit := none } : Machine).run p io rounds).machine.steps : ℕ∞)

variable {m : Machine} {p : Program} {io : Streams}

theorem begun_le_iff {n : Nat} :
    m.begun p io ≤ n ↔ ∀ rounds, (State.run p io none rounds m.start).1.steps ≤ n := by
  simp only [begun, iSup_le_iff, Nat.cast_le]
  exact Iff.rfl

theorem lt_begun_iff {n : Nat} :
    n < m.begun p io ↔ ∃ rounds, n < (State.run p io none rounds m.start).1.steps := by
  simp only [begun, lt_iSup_iff, Nat.cast_lt]
  exact Iff.rfl

/-- A run that ends has begun as many instructions as it has counted. -/
theorem begun_of_ended {n : Nat} (h : (State.run p io none n m.start).2 ≠ none) :
    m.begun p io = (State.run p io none n m.start).1.steps := by
  apply le_antisymm
  · rw [begun_le_iff]
    intro rounds
    have hlater : State.run p io none (n + rounds) m.start = State.run p io none n m.start := by
      rcases hrun : State.run p io none n m.start with ⟨s, ending⟩
      rw [hrun] at h
      obtain ⟨e, rfl⟩ := Option.ne_none_iff_exists'.1 h
      exact State.run_of_ended hrun rounds
    rw [← hlater]
    exact State.steps_run_mono (Nat.le_add_left rounds n)
  · exact le_iSup (fun rounds => ((State.run p io none rounds m.start).1.steps : ℕ∞)) n

/-- A run that never ends begins infinitely many instructions. -/
theorem begun_of_endless (h : ∀ n, (State.run p io none n m.start).2 = none) :
    m.begun p io = ⊤ := by
  rw [ENat.eq_top_iff_forall_gt]
  intro n
  rw [lt_begun_iff]
  refine ⟨n + 1, ?_⟩
  rw [State.steps_run (h (n + 1))]
  exact Nat.lt_add_left _ (Nat.lt_succ_self n)

/-- A run that begins only so many instructions ends. -/
theorem exists_ended_of_begun_le {n : Nat} (h : m.begun p io ≤ n) :
    ∃ rounds, (State.run p io none rounds m.start).2 ≠ none := by
  by_contra hnever
  have hendless (rounds : Nat) : (State.run p io none rounds m.start).2 = none := by
    by_contra hending
    exact hnever ⟨rounds, hending⟩
  rw [begun_of_endless hendless] at h
  exact not_lt_of_ge h (ENat.natCast_lt_top n)

end Machine

/-! ## Two runs -/

namespace State

variable {p : Program} {io : Streams} {s : State} {k : Int}

/-- At the end of the program a run does not move. -/
theorem run_at_end (hip : p.size ≤ s.ip) (limit : Option Int) (rounds : Nat) :
    (run p io limit rounds s).1 = s := by
  cases rounds with
  | zero => rfl
  | succ rounds => rw [run_of_stop (step_at_end hip)]

/-- Inside the program, a step begins one instruction. -/
theorem step_counts (hip : s.ip < p.size) (io : Streams) :
    (∃ s', s.step p io none = .next s' ∧ s'.steps = s.steps + 1) ∨
      ∃ s' e, s.step p io none = .stop s' e ∧ s'.steps = s.steps + 1 := by
  have hbegun := step_progresses hip io
  cases hstep : s.step p io none with
  | next s' =>
    rw [hstep] at hbegun
    exact Or.inl ⟨s', rfl, hbegun.steps⟩
  | stop s' e =>
    rw [hstep] at hbegun
    exact Or.inr ⟨s', e, rfl, hbegun.1.steps⟩

theorem step_limit_of_lt (h : s.steps < k.toNat) :
    s.step p io (some k) = s.step p io none := by
  apply step_below_limit
  intro k' hk'
  cases hk'
  omega

/-- A run that keeps to the limit by itself is not changed by it. -/
theorem run_limit_of_le (h : ∀ n, (run p io none n s).1.steps ≤ k.toNat) (rounds : Nat) :
    run p io (some k) rounds s = run p io none rounds s := by
  induction rounds generalizing s with
  | zero => rfl
  | succ rounds ih =>
    have hone := h 1
    by_cases hip : p.size ≤ s.ip
    · rw [run_of_stop (step_at_end hip), run_of_stop (step_at_end hip)]
    · have hinside : s.ip < p.size := by omega
      rcases step_counts hinside io with ⟨s₁, hstep, hsteps⟩ | ⟨s₁, e, hstep, hsteps⟩
      · rw [run_of_next hstep] at hone
        have hkept : s₁.steps ≤ k.toNat := hone
        have hbelow : s.step p io (some k) = s.step p io none := step_limit_of_lt (by omega)
        rw [run_of_next hstep, run_of_next (hbelow.trans hstep)]
        apply ih
        intro n
        have hn := h (n + 1)
        rwa [run_of_next hstep] at hn
      · rw [run_of_stop hstep] at hone
        have hkept : s₁.steps ≤ k.toNat := hone
        have hbelow : s.step p io (some k) = s.step p io none := step_limit_of_lt (by omega)
        rw [run_of_stop hstep, run_of_stop (hbelow.trans hstep)]

/-- A run that goes beyond the limit comes to a state inside the program where the
limit is just reached, and it comes there under the limit too.  The induction is on
the number `n` of instructions that are left up to the limit. -/
theorem exists_run_of_limit_lt {n rounds : Nat} (hn : s.steps + n = k.toNat)
    (h : k.toNat < (run p io none rounds s).1.steps) :
    ∃ s', run p io none n s = (s', none) ∧ run p io (some k) n s = (s', none) ∧
      s'.steps = k.toNat ∧ s'.ip < p.size := by
  have hinside : s.ip < p.size := by
    by_contra hend
    rw [run_at_end (by omega)] at h
    omega
  induction n generalizing s rounds with
  | zero => exact ⟨s, rfl, rfl, hn, hinside⟩
  | succ n ih =>
    have hbelow : s.step p io (some k) = s.step p io none := step_limit_of_lt (by omega)
    cases rounds with
    | zero =>
      have hbeyond : k.toNat < s.steps := h
      omega
    | succ rounds =>
      rcases step_counts hinside io with ⟨s₁, hstep, hsteps⟩ | ⟨s₁, e, hstep, hsteps⟩
      · rw [run_of_next hstep] at h ⊢
        rw [run_of_next (hbelow.trans hstep)]
        have hinside₁ : s₁.ip < p.size := by
          by_contra hend
          rw [run_at_end (by omega)] at h
          omega
        exact ih (by omega) h hinside₁
      · rw [run_of_stop hstep] at h
        have hbeyond : k.toNat < s₁.steps := h
        omega

end State

/-! ## The result -/

/-- The same run of a machine that differs in its limit only. -/
def Run.withLimit (r : Run) (limit : Option Int) : Run :=
  { r with machine := { r.machine with limit } }

/-- A limit cuts a run at the right place, and changes nothing else.  If the unlimited
run begins no more instructions than allowed, it ends, and the limited run is the
same.  Else the limited run stops in front of the first instruction that is not
allowed: it has begun as many as allowed, and stands where the unlimited run stands
after that many.  It fails there with a report of the limit, provided that the limit
can be written.  The machine may be any that there is: of a size that no word can
count there is none. -/
theorem limit_cuts_run (p : Program) (io : Streams) (k : Int) :
    (∀ m : Machine,
      let free : Machine := { m with limit := none }
      let limited : Machine := { m with limit := some k }
      (m.begun p io ≤ k.toNat →
        (∃ rounds, (free.run p io rounds).ending ≠ none) ∧
        ∀ rounds, limited.run p io rounds = (free.run p io rounds).withLimit (some k)) ∧
      (k.toNat < m.begun p io →
        let cut := (free.run p io k.toNat).withLimit (some k)
        cut.ending = none ∧ cut.machine.steps = k.toNat ∧
        ∃ ending, (∀ rounds, k.toNat < rounds →
            limited.run p io rounds = { cut with ending := some ending }) ∧
          (FitsNumeral k →
            ending = .failed ⟨.stepLimit k, cut.machine.ip, cut.machine.tape.cursor⟩))) ∧
    ∀ size limit host, wordBound ≤ size →
      Machine.ofSize size limit host = .error (.tooLarge size) := by
  refine ⟨?_, fun size limit host hword => Machine.ofSize_of_tooLarge hword limit host⟩
  intro m free limited
  constructor
  · intro hle
    refine ⟨Machine.exists_ended_of_begun_le hle, ?_⟩
    intro rounds
    have hsame := State.run_limit_of_le (Machine.begun_le_iff.1 hle) rounds
    rw [Machine.run_of_state (m := limited) hsame, Machine.run_of_state (m := free) rfl]
    rfl
  · intro hlt
    obtain ⟨rounds, hbeyond⟩ := Machine.lt_begun_iff.1 hlt
    obtain ⟨s, hfree, hlimited, hsteps, hip⟩ :=
      State.exists_run_of_limit_lt (n := k.toNat) (Nat.zero_add _) hbeyond
    rw [Machine.run_of_state (m := free) hfree]
    let report : Failure := ⟨.stepLimit k, s.ip, s.tape.cursor⟩
    refine ⟨rfl, hsteps, report.ending, ?_, fun htext => Failure.ending_of_hasText htext⟩
    intro rounds hrounds
    obtain ⟨more, rfl⟩ := Nat.exists_eq_add_of_lt hrounds
    have hcut : s.step p io (some k) = .stop s report.ending :=
      State.step_at_limit hip (by omega)
    have hended : State.run p io (some k) (k.toNat + (more + 1)) m.start =
        (s, some report.ending) := by
      rw [State.run_add hlimited, State.run_of_stop hcut]
    rw [Nat.add_assoc, Machine.run_of_state (m := limited) hended]
    rfl

/-- The second instruction would leave the tape.  A limit of two allows for that, and
one below zero allows for nothing.  A tape of more cells than a word counts is refused
under any limit. -/
theorem limit_cuts_run_of_failure :
    let m : Machine := { tape := .blank 2 (by decide) }
    let p : Program := ⟨#[.op (.command .increment) 1, .op (.command .left) 1]⟩
    let io := Streams.ofLists #[] #[]
    (m.begun p io ≤ (2 : Int).toNat ∧
      ({ m with limit := some 2 } : Machine).run p io 3 =
        (({ m with limit := none } : Machine).run p io 3).withLimit (some 2)) ∧
    ((-1 : Int).toNat < m.begun p io ∧ (-1 : Int).toNat < 3 ∧ FitsNumeral (-1) ∧
      let cut := (({ m with limit := none } : Machine).run p io (-1 : Int).toNat).withLimit
        (some (-1))
      ({ m with limit := some (-1) } : Machine).run p io 3 =
        { cut with ending := some (.failed ⟨.stepLimit (-1), 0, 0⟩) }) ∧
    wordBound ≤ 0x8000000000000000 ∧
      Machine.ofSize 0x8000000000000000 (some 2) .standard =
        .error (.tooLarge 0x8000000000000000) := by
  intro m p io
  have hsteps : (State.run p io none 2 m.start).1.steps = 2 := by decide
  have hbegun : m.begun p io = (2 : Nat) := by
    rw [← hsteps]
    exact Machine.begun_of_ended (by decide)
  have hkept : m.begun p io ≤ (2 : Int).toNat := by
    rw [hbegun]
    exact le_refl _
  have hbeyond : (-1 : Int).toNat < m.begun p io := by
    rw [hbegun]
    exact Nat.cast_lt.2 (by decide)
  have htext : FitsNumeral (-1) := fitsNumeral_of_lt (by decide)
  have hword : wordBound ≤ 0x8000000000000000 := by decide
  obtain ⟨htwo, hrefused⟩ := limit_cuts_run p io 2
  obtain ⟨-, -, ending, hcut, hreport⟩ := ((limit_cuts_run p io (-1)).1 m).2 hbeyond
  obtain rfl := hreport htext
  exact ⟨⟨hkept, ((htwo m).1 hkept).2 3⟩, ⟨hbeyond, by decide, htext, hcut 3 (by decide)⟩,
    hword, hrefused _ (some 2) .standard hword⟩

/-- A number of cells that no word can count is refused on every host.  And a limit of
more digits than are written cuts a run without a report. -/
theorem not_cut_of_longLimit :
    let p : Program := ⟨#[.op (.command .increment) 1]⟩
    let io := Streams.ofLists #[] #[]
    let m : Machine := { tape := .blank 1 (by decide) }
    let k : Int := -numeralBound
    (∀ limit host, Machine.ofSize 0x8000000000000000 limit host =
      .error (.tooLarge 0x8000000000000000)) ∧
    k.toNat < m.begun p io ∧ k.toNat < 1 ∧
      ∀ e, (({ m with limit := some k } : Machine).run p io 1).ending ≠ some (.failed e) := by
  intro p io m k
  have hk : k.toNat = 0 := by decide +kernel
  have hsteps : (State.run p io none 2 m.start).1.steps = 1 := by decide
  have hbegun : m.begun p io = (1 : Nat) := by
    rw [← hsteps]
    exact Machine.begun_of_ended (by decide)
  have hending : (({ m with limit := some k } : Machine).run p io 1).ending =
      some (.broken (.capacity .numeral)) := by decide +kernel
  refine ⟨fun limit host => Machine.ofSize_of_tooLarge (by decide) limit host, ?_, ?_, ?_⟩
  · rw [hk, hbegun]
    exact Nat.cast_lt.2 (by decide)
  · rw [hk]
    decide
  · rw [hending]
    nofun

end Brainfuck
