import Brainfuck.Proofs.Concatenation
import Brainfuck.Proofs.Guards
import Brainfuck.Proofs.Structured

/-!
# Programs one behind the other

A program that is put behind another one runs as the other one does until that comes to its
end, and then as it does by itself, from the tape and the input that are left.

* `State.step_append` and `State.run_append`: inside the first program nothing is noticed of
  the second one.  No jump of the first program leads further than to its end, and none
  leads in front of it (`Program.Hop`).
* `State.exists_of_finished`: a run that comes to the end of the first program stands
  there before it ends.
* `State.followedBy` puts a run of the second program behind the place where one of the
  first program stands.  Everything is counted on: instructions, steps, reads and writes.
  `Streams.behind` are the streams that are left, and `Ending.behind` tells an ending as
  it is told from there.
* `State.execute_followedBy` is one instruction, from a lemma for each thing that an
  instruction may do, `State.step_followedBy` a step and `State.run_followedBy` a whole run.
* `Machine.Continues` says what becomes of a machine that has run the first program to its
  end, and `Machine.continues` that it is so.  A limit on steps is for both programs
  together, so the second one has what the first one has left of it; as long as it is not
  reached, it makes no difference (`State.run_unlimited`).
-/

namespace Brainfuck

/-! ## The first program -/

namespace Program

variable {p q : Program}

theorem size_append (p q : Program) : (p.append q).size = p.size + q.size := by
  simp [append, size]

theorem get?_append_left {i : Int} (hnonneg : 0 ≤ i) (hlt : i < p.size) :
    (p.append q).get? i = p.get? i := by
  have hi : i.toNat < p.code.size := by
    unfold size at hlt
    omega
  rw [get?, get?, if_pos hnonneg, if_pos hnonneg]
  exact Array.getElem?_append_left hi

theorem getElem?_code_append_right (p q : Program) (i : Nat) :
    (p.append q).code[p.size + i]? = q.code[i]?.map (.raise p.size) := by
  have hle : p.code.size ≤ p.size + i := Nat.le_add_right p.size i
  have hsub : p.size + i - p.code.size = i := Nat.add_sub_cancel_left p.size i
  rw [append, Array.getElem?_append_right hle, hsub, Array.getElem?_map]

/-- Texts that are programs are a program together, of both without any joining. -/
theorem ofText_append {s t : List Char} (hp : ofText s false = .ok p)
    (hq : ofText t false = .ok q) : ofText (s ++ t) false = .ok (p.append q) := by
  rw [ofText_eq_ok_iff] at hp hq ⊢
  refine ⟨hp.1.append hq.1 nofun, ?_⟩
  rw [source_append, hp.2, hq.2, List.filter_append]

end Program

namespace State

variable {p : Program} {io : Streams} {limit : Option Int} {s s' : State}

/-- Inside the first program a step is not changed by what stands behind. -/
theorem step_append (hnonneg : 0 ≤ s.ip) (hlt : s.ip < p.size) (q : Program) (io : Streams)
    (limit : Option Int) : s.step (p.append q) io limit = s.step p io limit := by
  have hinside : ¬ ((p.append q).size : Int) ≤ s.ip := by
    rw [Program.size_append]
    omega
  rw [step, step, if_neg hinside, if_neg (by omega), Program.get?_append_left hnonneg hlt]

/-- A run that does not come to the end of the first program is not changed by what stands
behind.  The induction is on the rounds; a run that goes on has not been at the end. -/
theorem run_append (hp : p.WellNested) (q : Program) {rounds : Nat} (hnonneg : 0 ≤ s.ip)
    (h : (run p io limit rounds s).2 ≠ some .finished) :
    run (p.append q) io limit rounds s = run p io limit rounds s := by
  induction rounds generalizing s with
  | zero => rfl
  | succ rounds ih =>
    have hlt : s.ip < p.size := by
      by_contra hend
      rw [run_of_stop (step_at_end (Int.not_lt.1 hend))] at h
      exact h rfl
    have hsame := step_append hnonneg hlt q io limit
    cases hstep : s.step p io limit with
    | next s₁ =>
      rw [run_of_next hstep] at h ⊢
      rw [run_of_next (hsame.trans hstep)]
      exact ih (hop_of_next hp hnonneg hstep).ip_nonneg h
    | stop s₁ e => rw [run_of_stop hstep, run_of_stop (hsame.trans hstep)]

/-- A run that comes to the end of a program stands directly behind its last instruction
before it ends, and nothing is changed by the end. -/
theorem exists_of_finished (hp : p.WellNested) {rounds : Nat} (hnonneg : 0 ≤ s.ip)
    (hle : s.ip ≤ p.size) (h : run p io limit rounds s = (s', some .finished)) :
    ∃ n, run p io limit n s = (s', none) ∧ s'.ip = p.size := by
  induction rounds generalizing s with
  | zero => cases h
  | succ rounds ih =>
    cases hstep : s.step p io limit with
    | next s₁ =>
      rw [run_of_next hstep] at h
      have hhop := hop_of_next hp hnonneg hstep
      obtain ⟨n, hrun, hip⟩ := ih hhop.ip_nonneg hhop.ip_le h
      exact ⟨n + 1, by rw [run_of_next hstep, hrun], hip⟩
    | stop s₁ e =>
      rw [run_of_stop hstep] at h
      cases h
      obtain ⟨hend, rfl⟩ := (ip_of_step_stop hstep).2 rfl
      exact ⟨0, rfl, Int.le_antisymm hle hend⟩

end State

/-! ## What is left of streams -/

/-- The streams behind so many reads and writes. -/
def Streams.behind (io : Streams) (reads writes : Nat) : Streams where
  read k := io.read (reads + k)
  write k := io.write (writes + k)
  host := io.host

theorem Streams.behind_ofBytes (input : Array UInt8) (host : Host) (reads writes : Nat) :
    (ofBytes input host).behind reads writes = .ofBytes (input.drop reads) host := by
  have hget (k : Nat) : (input.drop reads)[k]? = input[reads + k]? := by
    rw [Array.drop, Array.getElem?_extract]
    split
    · rfl
    · rw [Array.getElem?_eq_none (by omega)]
  simp only [behind, ofBytes, hget]

/-! ## The second program -/

/-- The cause as it is told behind so many steps.  A limit is counted from the beginning. -/
def Failure.Cause.behind (steps : Nat) : Failure.Cause → Failure.Cause
  | stepLimit limit => stepLimit (steps + limit)
  | cause => cause

/-- The ending as it is told behind `s`.  The report must be such that it can still be
written. -/
def Ending.behind (s : State) : Ending → Ending
  | failed e => Failure.ending ⟨e.cause.behind s.steps, s.ip + e.ip, e.cursor⟩
  | e => e

/-- A report that can be written behind `s` is told there whatever it is by itself. -/
theorem Failure.behind_ending (s : State) {e : Failure}
    (h : (e.cause.behind s.steps).HasText → e.cause.HasText) :
    e.ending.behind s = Failure.ending ⟨e.cause.behind s.steps, s.ip + e.ip, e.cursor⟩ := by
  by_cases htext : e.cause.HasText
  · rw [ending_of_hasText htext]
    rfl
  · rw [ending_of_not_hasText htext, ending_of_not_hasText (mt h htext)]
    rfl

/-- Where a run stands that has come to `s`, and from there to `u` in a program that is put
behind. -/
def State.followedBy (s u : State) : State where
  tape := u.tape
  ip := s.ip + u.ip
  steps := s.steps + u.steps
  reads := s.reads + u.reads
  written := s.written ++ u.written

/-- The step as it is taken behind `s`. -/
def Step.behind (s : State) : Step → Step
  | next u => next (s.followedBy u)
  | stop u e => stop (s.followedBy u) (e.behind s)

namespace Instruction

variable (d : Nat) (x : Instruction)

theorem kind_raise : (x.raise d).kind = x.kind := by
  cases x <;> rfl

theorem count?_raise : (x.raise d).count? = x.count? := by
  cases x <;> rfl

theorem target?_raise : (x.raise d).target? = x.target?.map (· + (d : Int)) := by
  cases x <;> rfl

end Instruction

namespace State

variable {p q : Program} {s : State}

section Instructions

variable (s u : State) (io : Streams)

theorem advance_followedBy : (s.followedBy u).advance = u.advance.behind s := by
  simp only [advance, followedBy, Step.behind, Int.add_assoc]

theorem fail_followedBy (cause : Failure.Cause)
    (h : (cause.behind s.steps).HasText → cause.HasText) :
    (s.followedBy u).fail (cause.behind s.steps) = (u.fail cause).behind s := by
  rw [fail, fail, Step.behind, Failure.behind_ending s h]
  rfl

theorem move_followedBy (delta : Int) :
    (s.followedBy u).move delta = (u.move delta).behind s := by
  have htape : (s.followedBy u).tape = u.tape := rfl
  unfold move
  rw [htape]
  cases u.tape.move? delta with
  | some tape => simp only [followedBy, Step.behind, Int.add_assoc]
  | none => exact fail_followedBy s u (.leftTape (u.tape.cursor + delta) u.tape.size) id

theorem add_followedBy (n : Int) : (s.followedBy u).add n = (u.add n).behind s := by
  have htape : (s.followedBy u).tape = u.tape := rfl
  unfold add
  rw [htape]
  cases u.tape.current? with
  | some b => simp only [followedBy, Step.behind, Int.add_assoc]
  | none => rfl

theorem write_followedBy (count : Int) :
    (s.followedBy u).write io count =
      (u.write (io.behind s.reads s.written.size) count).behind s := by
  have htape : (s.followedBy u).tape = u.tape := rfl
  have hwrite : io.write (s.followedBy u).written.size =
      (io.behind s.reads s.written.size).write u.written.size :=
    congrArg io.write Array.size_append
  unfold write
  rw [htape, hwrite]
  cases u.tape.current? with
  | none => rfl
  | some b =>
    simp only
    have hcopies : copies (io.behind s.reads s.written.size).host count b =
        copies io.host count b := rfl
    rw [hcopies]
    cases copies io.host count b with
    | error e => rfl
    | ok bytes =>
      simp only
      cases (io.behind s.reads s.written.size).write u.written.size with
      | none => simp only [followedBy, Step.behind, Int.add_assoc, Array.append_push]
      | some f =>
        simp only
        split
        · rfl
        · rfl

theorem refuse_followedBy (problem : Reading.Problem) :
    (s.followedBy u).refuse problem = (u.refuse problem).behind s := by
  cases problem with
  | exhausted => rfl
  | longText length => rfl
  | fault f =>
    rw [refuse, refuse]
    split
    · rfl
    · rfl

/-- Reads in a row.  The induction is on how many are left. -/
theorem read_followedBy (count : Nat) :
    read io count (s.followedBy u) =
      (read (io.behind s.reads s.written.size) count u).behind s := by
  induction count generalizing u with
  | zero => exact advance_followedBy s u
  | succ count ih =>
    have htape : (s.followedBy u).tape = u.tape := rfl
    have hread : io.read (s.followedBy u).reads =
        (io.behind s.reads s.written.size).read u.reads := rfl
    rw [read, read, htape, hread]
    cases ((io.behind s.reads s.written.size).read u.reads).byte with
    | error problem => exact refuse_followedBy s { u with reads := u.reads + 1 } problem
    | ok b =>
      simp only
      cases u.tape.current? with
      | some c => exact ih { u with tape := u.tape.put b, reads := u.reads + 1 }
      | none => rfl

theorem branch_followedBy {d : Nat} (hs : s.ip = d) (test : UInt8 → Bool) (target? : Option Int) :
    (s.followedBy u).branch test (target?.map (· + (d : Int))) =
      (u.branch test target?).behind s := by
  have htape : (s.followedBy u).tape = u.tape := rfl
  unfold branch
  rw [htape]
  cases u.tape.current? with
  | none => rfl
  | some b =>
    simp only
    split
    · cases target? with
      | none => rfl
      | some target =>
        have hip : target + d + 1 = s.ip + (target + 1) := by omega
        simp only [Option.map_some, hip, Step.behind]
        rfl
    · exact advance_followedBy s u

theorem perform_followedBy (count : Int) (c : Command) :
    (s.followedBy u).perform io count c =
      (u.perform (io.behind s.reads s.written.size) count c).behind s := by
  cases c with
  | right => exact move_followedBy s u count
  | left => exact move_followedBy s u (-count)
  | increment => exact add_followedBy s u count
  | decrement => exact add_followedBy s u (-count)
  | write => exact write_followedBy s u io count
  | read => exact read_followedBy s u io count.toNat

theorem execute_followedBy {d : Nat} (hs : s.ip = d) (x : Instruction) :
    (s.followedBy u).execute io (x.raise d) =
      (u.execute (io.behind s.reads s.written.size) x).behind s := by
  unfold execute
  rw [Instruction.kind_raise, Instruction.count?_raise, Instruction.target?_raise]
  cases x.kind with
  | command c =>
    simp only
    cases x.count? with
    | some count => exact perform_followedBy s u io count c
    | none => rfl
  | loopOpen => exact branch_followedBy s u hs _ _
  | loopClose => exact branch_followedBy s u hs _ _
  | endOfText => exact advance_followedBy s u

end Instructions

variable {u : State}

/-- What is left of a limit can be written if the limit can. -/
theorem fitsNumeral_left {k : Int} (hleft : (s.steps : Int) ≤ max k 0) (hk : FitsNumeral k) :
    FitsNumeral (k - s.steps) := by
  have hle : (k - s.steps).natAbs ≤ k.natAbs := by omega
  exact Nat.lt_of_le_of_lt hle hk

/-- A step of the second program is the step that it takes by itself. -/
theorem step_followedBy (hs : s.ip = p.size) (hu : 0 ≤ u.ip) (q : Program) (io : Streams)
    {limit : Option Int} (hleft : ∀ k, limit = some k → (s.steps : Int) ≤ max k 0) :
    (s.followedBy u).step (p.append q) io limit =
      (u.step q (io.behind s.reads s.written.size) (limit.map (· - (s.steps : Int)))).behind s := by
  obtain ⟨i, hi⟩ := Int.eq_ofNat_of_zero_le hu
  have hip : (s.followedBy u).ip = (p.size + i : Nat) := by
    show s.ip + u.ip = _
    omega
  have hsteps : (s.followedBy u).steps = s.steps + u.steps := rfl
  have hsize := Program.size_append p q
  by_cases hend : (q.size : Int) ≤ u.ip
  · rw [step_at_end hend, step_at_end (by omega)]
    rfl
  by_cases hlimit : ∀ k, limit = some k → ((s.followedBy u).steps : Int) < k
  · have hlimit' (k : Int) (hk : limit.map (· - (s.steps : Int)) = some k) :
        (u.steps : Int) < k := by
      obtain ⟨k', hk', rfl⟩ := Option.map_eq_some_iff.1 hk
      have hlt := hlimit k' hk'
      omega
    have hlt : i < q.code.size := by
      unfold Program.size at hend
      omega
    obtain ⟨x, hx⟩ : ∃ x, q.code[i]? = some x := ⟨_, Array.getElem?_eq_getElem hlt⟩
    have hx' := Program.getElem?_code_append_right p q i
    rw [hx, Option.map_some] at hx'
    rw [step_below_limit hlimit, step_below_limit hlimit', step_at hx' hip, step_at hx hi]
    exact execute_followedBy s { u with steps := u.steps + 1 } io hs x
  · simp only [not_forall, Int.not_lt] at hlimit
    obtain ⟨k, rfl, hk⟩ := hlimit
    have hcut : k - (s.steps : Int) ≤ u.steps := by omega
    have hcause : (Failure.Cause.stepLimit (k - s.steps)).behind s.steps = .stepLimit k := by
      rw [Failure.Cause.behind, Int.add_comm, Int.sub_add_cancel]
    rw [step_at_limit (by omega) hk, Option.map_some, step_at_limit (by omega) hcut, ← hcause]
    apply fail_followedBy
    rw [hcause]
    exact fitsNumeral_left (hleft k rfl)

/-- A run of the second program is the run that it makes by itself.  The induction is on
the rounds; no step of the second program leads in front of it. -/
theorem run_followedBy (hs : s.ip = p.size) (hq : q.WellNested) (io : Streams)
    {limit : Option Int} (hleft : ∀ k, limit = some k → (s.steps : Int) ≤ max k 0)
    (rounds : Nat) (hu : 0 ≤ u.ip) :
    run (p.append q) io limit rounds (s.followedBy u) =
      let r := run q (io.behind s.reads s.written.size) (limit.map (· - (s.steps : Int))) rounds u
      (s.followedBy r.1, r.2.map (Ending.behind s)) := by
  induction rounds generalizing u with
  | zero => rfl
  | succ rounds ih =>
    have hbehind := step_followedBy hs hu q io hleft
    cases hstep : u.step q (io.behind s.reads s.written.size)
        (limit.map (· - (s.steps : Int))) with
    | next u₁ =>
      rw [hstep] at hbehind
      rw [run_of_next hstep, run_of_next hbehind]
      exact ih (hop_of_next hq hu hstep).ip_nonneg
    | stop u₁ e =>
      rw [hstep] at hbehind
      rw [run_of_stop hstep, run_of_stop hbehind]
      rfl

/-- A run that goes on has not noticed its limit. -/
theorem run_unlimited {io : Streams} {limit : Option Int} {rounds : Nat} {s' : State}
    (h : run p io limit rounds s = (s', none)) : run p io none rounds s = (s', none) := by
  induction rounds generalizing s with
  | zero => exact h
  | succ rounds ih =>
    cases hstep : s.step p io limit with
    | next s₁ =>
      rw [run_of_next hstep] at h
      rcases step_cases p io limit s with ⟨e, hstop, -⟩ | ⟨hbelow, -⟩
      · rw [hstep] at hstop
        cases hstop
      · rw [step_below_limit hbelow] at hstep
        rw [run_of_next hstep]
        exact ih h
    | stop s₁ e =>
      rw [run_of_stop hstep] at h
      cases h

end State

/-! ## Machines -/

/-- Where the run stands. -/
def Run.state (r : Run) : State where
  tape := r.machine.tape
  ip := r.machine.ip
  steps := r.machine.steps
  reads := r.reads
  written := r.written

/-- The run that goes on behind `r` and comes to `u` in a program that is put behind.  It
ends there if that program does. -/
def Run.followedBy (r : Run) (u : State) (ending : Option Ending) : Run :=
  let s := r.state.followedBy u
  { machine := { r.machine with tape := s.tape, ip := s.ip, steps := s.steps }
    reads := s.reads
    written := s.written
    ending := ending.map (.behind r.state) }

theorem Run.followedBy_start (r : Run) :
    r.state.followedBy { tape := r.machine.tape } = r.state := by
  simp only [State.followedBy, Int.add_zero, Nat.add_zero, Array.append_empty]
  rfl

/-- Where the run `first` of `p` has come to its end, `q` goes on behind it as it goes by
itself from this tape and what is left of the streams. -/
structure Machine.Continues (m : Machine) (p q : Program) (io left : Streams) (first : Run) :
    Prop where
  /-- The run is at the end of its program. -/
  at_end : first.machine.ip = p.size
  /-- After as many steps both programs together stand at this place, and have not ended. -/
  seam : m.run (p.append q) io first.machine.steps = { first with ending := none }
  /-- From there every step is that of `q` under any limit, as long as neither ends. -/
  alongside : ∀ limit k u,
    State.run q left limit k { tape := first.machine.tape } = (u, none) →
    (m.run (p.append q) io (first.machine.steps + k)).ending = none →
    m.run (p.append q) io (first.machine.steps + k) = first.followedBy u none
  /-- If `q` may take the steps that are left, both end together and in the same way. -/
  together : ∀ k,
    let r := State.run q left (m.limit.map (· - (first.machine.steps : Int))) k
      { tape := first.machine.tape }
    m.run (p.append q) io (first.machine.steps + k) = first.followedBy r.1 r.2

namespace Machine

variable {m : Machine} {p q : Program} {io : Streams} {rounds : Nat}

theorem run_append (hp : p.WellNested) (q : Program)
    (h : (m.run p io rounds).ending ≠ some .finished) :
    m.run (p.append q) io rounds = m.run p io rounds := by
  have hsame : State.run (p.append q) io m.limit rounds m.start =
      State.run p io m.limit rounds m.start :=
    State.run_append hp q (Int.le_refl 0) h
  rw [run, run, hsame]

/-- A run that comes to the end of the first program is at the beginning of the second one
after as many steps. -/
theorem run_to_seam (hp : p.WellNested) (q : Program)
    (h : (m.run p io rounds).ending = some .finished) :
    (m.run p io rounds).machine.ip = p.size ∧
      State.run (p.append q) io m.limit (m.run p io rounds).machine.steps m.start =
        ((m.run p io rounds).state, none) := by
  have hended : State.run p io m.limit rounds m.start =
      ((m.run p io rounds).state, some .finished) := by
    rw [← h]
    rfl
  obtain ⟨n, hrun, hip⟩ :=
    State.exists_of_finished hp (Int.le_refl 0) (Int.natCast_nonneg p.size) hended
  have hsteps : (m.run p io rounds).machine.steps = n := by
    have hcount := State.steps_run (congrArg Prod.snd hrun)
    rw [hrun] at hcount
    exact hcount.trans (Nat.zero_add n)
  refine ⟨hip, ?_⟩
  rw [hsteps, ← hrun]
  exact State.run_append hp q (Int.le_refl 0) (by rw [hrun]; nofun)

/-- Behind the seam the second program takes the steps that are left, as it does by itself. -/
theorem run_behind_seam (hp : p.WellNested) (hq : q.WellNested)
    (h : (m.run p io rounds).ending = some .finished) (k : Nat) :
    let first := m.run p io rounds
    let r := State.run q (io.behind first.reads first.written.size)
      (m.limit.map (· - (first.machine.steps : Int))) k { tape := first.machine.tape }
    m.run (p.append q) io (first.machine.steps + k) = first.followedBy r.1 r.2 := by
  intro first r
  obtain ⟨hip, hseam⟩ := run_to_seam hp q h
  have hleft (limit : Int) (hlimit : m.limit = some limit) :
      (first.state.steps : Int) ≤ max limit 0 := by
    have hle := State.steps_run_le p io rounds (k := limit) (s := m.start) (Int.le_max_right _ _)
    rwa [← hlimit] at hle
  have hbehind := State.run_followedBy (s := first.state) (u := { tape := first.machine.tape })
    hip hq io hleft k (Int.le_refl 0)
  rw [first.followedBy_start, ← State.run_add hseam] at hbehind
  exact run_of_state hbehind

theorem continues (hp : p.WellNested) (hq : q.WellNested)
    (h : (m.run p io rounds).ending = some .finished) :
    let first := m.run p io rounds
    m.Continues p q io (io.behind first.reads first.written.size) first := by
  intro first
  obtain ⟨hip, hseam⟩ := run_to_seam hp q h
  refine ⟨hip, run_of_state hseam, ?_, run_behind_seam hp hq h⟩
  intro limit k u hu hgoing
  have hsame := run_behind_seam hp hq h k
  rcases hr : State.run q (io.behind first.reads first.written.size)
      (m.limit.map (· - (first.machine.steps : Int))) k { tape := first.machine.tape } with ⟨u', e⟩
  simp only [first, hr] at hsame
  rw [hsame] at hgoing
  obtain rfl : e = none := Option.map_eq_none_iff.1 hgoing
  -- Neither has noticed its limit, so both are the run without one.
  have hfree := (State.run_unlimited hr).symm.trans (State.run_unlimited hu)
  cases hfree
  exact hsame

end Machine

/-! ## The result -/

/-- A run has a result if it has ended, and not with a defect. -/
theorem Run.ending_of_result {run : Run} {r : Result} (h : run.result = .ok r) :
    (r.failure = none → run.ending = some .finished) ∧
      (r.failure ≠ none → run.ending ≠ some .finished) := by
  unfold result at h
  cases hending : run.ending with
  | none =>
    rw [hending] at h
    cases h
  | some e =>
    rw [hending] at h
    cases e with
    | finished =>
      cases h
      exact ⟨fun _ => rfl, fun hne => absurd rfl hne⟩
    | failed e =>
      cases h
      exact ⟨nofun, fun _ => nofun⟩
    | broken d => cases h

/-- A text that is run to a result is run on a machine. -/
theorem exists_machine_of_runText {text : List Char} {p : Program} {o : Options} {input : Input}
    {rounds : Nat} {r : Result} (hp : Program.ofText text o.fold = .ok p)
    (hr : runText text input o rounds = .ok r) :
    ∃ m, Machine.ofSize o.tapeSize o.limit o.host = .ok m ∧
      (m.run p (.ofBytes input.toArray o.host) rounds).result = .ok r := by
  cases hm : Machine.ofSize o.tapeSize o.limit o.host with
  | ok m =>
    rw [runText_eq hp hm] at hr
    exact ⟨m, rfl, hr⟩
  | error e =>
    simp only [runText, hp, Program.run, hm] at hr
    cases hr

/-- Running a text behind another one.  If the first one fails, nothing is noticed of the
second one, and the result is the same.  If it comes to its end, the second one goes on
from there as it does by itself, from the tape and what is left of the input. -/
theorem runs_concatenation {s t : List Char} {p q : Program}
    (hp : Program.ofText s false = .ok p) (hq : Program.ofText t false = .ok q) (input : Input)
    {o : Options} (hfold : o.fold = false) {rounds : Nat} {r : Result}
    (hr : runText s input o rounds = .ok r) :
    (r.failure ≠ none → runText (s ++ t) input o rounds = .ok r) ∧
    (r.failure = none →
      ∃ m, Machine.ofSize o.tapeSize o.limit o.host = .ok m ∧
        let io := Streams.ofBytes input.toArray o.host
        (∀ n, runText (s ++ t) input o n = (m.run (p.append q) io n).result) ∧
        let first := m.run p io rounds
        first.result = .ok r ∧
          m.Continues p q io (.ofBytes (input.toArray.drop first.reads) o.host) first) := by
  have hboth := Program.ofText_append hp hq
  have hpnested := (Program.canonical_of_ofText hp).wellNested
  have hqnested := (Program.canonical_of_ofText hq).wellNested
  rw [← hfold] at hp hboth
  obtain ⟨m, hm, hresult⟩ := exists_machine_of_runText hp hr
  obtain ⟨hends, hfails⟩ := Run.ending_of_result hresult
  have heq (n : Nat) := runText_eq hboth hm input n
  constructor
  · intro hfailure
    rw [heq rounds, Machine.run_append hpnested q (hfails hfailure), hresult]
  · intro hnone
    have hcontinues := Machine.continues hpnested hqnested (hends hnone)
    simp only [Streams.behind_ofBytes] at hcontinues
    exact ⟨m, hm, heq, hresult, hcontinues⟩

/-- The first of two programs finds nothing to read; on one byte it comes to its end, and a
limit cuts off the second one. -/
theorem runs_concatenation_of_loop :
    let p : Program := ⟨#[.op (.command .read) 1, .op (.command .right) 1]⟩
    let q : Program := ⟨#[.op (.command .left) 1, .jump .loopOpen 4, .op (.command .write) 1,
      .op (.command .read) 1, .jump .loopClose 1]⟩
    let o : Options := { tapeSize := 2, limit := some 5, fold := false }
    let failed : Result := ⟨[], ⟨#[0, 0], 0, by decide, by decide⟩, 1, some ⟨.inputExhausted, 0, 0⟩⟩
    let ended : Result := ⟨[], ⟨#[7, 0], 1, by decide, by decide⟩, 2, none⟩
    (Program.ofText ",>".toList false = .ok p ∧ Program.ofText "<[.,]".toList false = .ok q ∧
      o.fold = false ∧ runText ",>".toList (.bytes #[]) o 3 = .ok failed ∧
      failed.failure ≠ none ∧ runText ",>".toList (.bytes #[7]) o 3 = .ok ended ∧
      ended.failure = none) ∧
    runText (",>".toList ++ "<[.,]".toList) (.bytes #[]) o 3 = .ok failed ∧
    ∃ m, Machine.ofSize 2 (some 5) = .ok m ∧
      (∀ n, runText (",>".toList ++ "<[.,]".toList) (.bytes #[7]) o n =
        (m.run (p.append q) (.ofBytes #[7]) n).result) ∧
      (m.run p (.ofBytes #[7]) 3).result = .ok ended ∧
      m.Continues p q (.ofBytes #[7]) (.ofBytes ((#[7] : Array UInt8).drop
        (m.run p (.ofBytes #[7]) 3).reads)) (m.run p (.ofBytes #[7]) 3) := by
  intro p q o failed ended
  have hp : Program.ofText ",>".toList false = .ok p := rfl
  have hq : Program.ofText "<[.,]".toList false = .ok q := rfl
  have hfailed : runText ",>".toList (.bytes #[]) o 3 = .ok failed := by decide +kernel
  have hended : runText ",>".toList (.bytes #[7]) o 3 = .ok ended := by decide +kernel
  exact ⟨⟨hp, hq, rfl, hfailed, nofun, hended, rfl⟩,
    (runs_concatenation hp hq _ rfl hfailed).1 nofun,
    (runs_concatenation hp hq _ rfl hended).2 rfl⟩

end Brainfuck
