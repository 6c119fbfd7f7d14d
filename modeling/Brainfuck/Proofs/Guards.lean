import Brainfuck.Proofs.Canonical
import Brainfuck.Proofs.Progress

/-!
# Loop guards

Behind a loop the current cell is zero, and at the beginning of its body it is not.
Either place is reached in two ways, from the bracket before it and from the partner of
that bracket, and both look at the same cell; nothing else leads there, since no two
brackets have one partner.

* `Program.Guards` says this of one place in a program and one tape.
* `Program.Hop` lists the ways in which a step goes on in a program with resolved loops,
  and `State.hop_of_next` says that there are no others.
* `Hop.guards` gives the guard behind every step, and `Hop.outside` keeps a run out of
  the body of a loop that directly follows another one.
* `State.ip_of_step_stop` says that a run stops where its last instruction is.
* `State.run_guarded` is a whole run, by induction on its rounds.
-/

namespace Brainfuck

/-! ## Where a step leads -/

/-- The step goes on directly behind the instruction, or fails on it. -/
def Step.Advances (s : State) : Step → Prop
  | .next s' => s'.ip = s.ip + 1
  | .stop s' e => s'.ip = s.ip ∧ e ≠ .finished

/-- If the step stops, then it fails on the instruction at `ip`. -/
def Step.FailsAt (ip : Int) : Step → Prop
  | .next _ => True
  | .stop s' e => s'.ip = ip ∧ e ≠ .finished

theorem Step.Advances.failsAt {s : State} {st : Step} (h : st.Advances s) : st.FailsAt s.ip := by
  cases st with
  | next s' => exact trivial
  | stop s' e => exact h

namespace State

variable {p : Program} {io : Streams} {limit : Option Int} {s s' : State}

theorem fail_advances (s : State) (cause : Failure.Cause) : (s.fail cause).Advances s :=
  ⟨rfl, Failure.ending_ne_finished _⟩

theorem breakDown_advances (s : State) (d : Defect) : (s.breakDown d).Advances s :=
  ⟨rfl, nofun⟩

theorem move_advances (s : State) (delta : Int) : (s.move delta).Advances s := by
  unfold move
  split
  · exact rfl
  · exact fail_advances s _

theorem add_advances (s : State) (n : Int) : (s.add n).Advances s := by
  unfold add
  split
  · exact rfl
  · exact breakDown_advances s _

theorem write_advances (s : State) (io : Streams) (count : Int) :
    (s.write io count).Advances s := by
  unfold write
  split
  · exact breakDown_advances s _
  · split
    · exact breakDown_advances s _
    · split
      · exact rfl
      · split
        · exact fail_advances s _
        · exact breakDown_advances s _

theorem refuse_advances (s : State) (problem : Reading.Problem) :
    (s.refuse problem).Advances s := by
  cases problem with
  | exhausted => exact fail_advances s _
  | longText length => exact breakDown_advances s _
  | fault f =>
    rw [refuse]
    split
    · exact fail_advances s _
    · exact breakDown_advances s _

/-- Reads in a row stay on their instruction until all of them are made. -/
theorem read_advances (io : Streams) (count : Nat) (s : State) : (read io count s).Advances s := by
  induction count generalizing s with
  | zero => exact rfl
  | succ count ih =>
    rw [read]
    split
    · exact refuse_advances { s with reads := s.reads + 1 } _
    · split
      · exact ih _
      · exact breakDown_advances { s with reads := s.reads + 1 } _

theorem perform_advances (s : State) (io : Streams) (count : Int) (c : Command) :
    (s.perform io count c).Advances s := by
  cases c with
  | right => exact move_advances s count
  | left => exact move_advances s (-count)
  | increment => exact add_advances s count
  | decrement => exact add_advances s (-count)
  | write => exact write_advances s io count
  | read => exact read_advances io count.toNat s

theorem branch_failsAt (s : State) (test : UInt8 → Bool) (target? : Option Int) :
    (s.branch test target?).FailsAt s.ip := by
  unfold branch
  split
  · split
    · split
      · exact trivial
      · exact (breakDown_advances s _).failsAt
    · exact trivial
  · exact (breakDown_advances s _).failsAt

theorem execute_failsAt (s : State) (io : Streams) (x : Instruction) :
    (s.execute io x).FailsAt s.ip := by
  unfold execute
  split
  · split
    · exact (perform_advances s io _ _).failsAt
    · exact (breakDown_advances s _).failsAt
  · exact branch_failsAt s _ _
  · exact branch_failsAt s _ _
  · exact trivial

/-- Inside the program a step does not come to the end. -/
theorem step_failsAt (h : s.ip < p.size) (io : Streams) (limit : Option Int) :
    (s.step p io limit).FailsAt s.ip := by
  rw [step, if_neg (Int.not_le.2 h)]
  split
  · exact (fail_advances s _).failsAt
  · split
    · exact execute_failsAt { s with steps := s.steps + 1 } io _
    · exact (breakDown_advances { s with steps := s.steps + 1 } _).failsAt

/-- A run ends on an instruction, and at the end of the program nothing is changed. -/
theorem ip_of_step_stop {e : Ending} (h : s.step p io limit = .stop s' e) :
    s'.ip = s.ip ∧ (e = .finished → p.size ≤ s.ip ∧ s' = s) := by
  by_cases hend : p.size ≤ s.ip
  · rw [step_at_end hend] at h
    cases h
    exact ⟨rfl, fun _ => ⟨hend, rfl⟩⟩
  · have hfails := step_failsAt (Int.not_le.1 hend) io limit
    rw [h] at hfails
    exact ⟨hfails.1, fun he => absurd he hfails.2⟩

/-- A bracket that goes on leaves the tape, and the current cell decides where. -/
theorem exists_of_branch_next {test : UInt8 → Bool} {target : Int}
    (h : s.branch test (some target) = .next s') :
    ∃ b, s.tape.current? = some b ∧ s'.tape = s.tape ∧
      s'.ip = if test b then target + 1 else s.ip + 1 := by
  unfold branch at h
  cases hb : s.tape.current? with
  | none =>
    simp only [hb] at h
    cases h
  | some b =>
    refine ⟨b, rfl, ?_⟩
    simp only [hb] at h
    split at h
    · cases h
      exact ⟨rfl, by rw [if_pos ‹_›]⟩
    · cases h
      exact ⟨rfl, by rw [if_neg ‹_›]⟩

/-- A step that goes on carries out the instruction at its place. -/
theorem exists_of_step_next {i : Nat} (hip : s.ip = i) (h : s.step p io limit = .next s') :
    ∃ x, p.code[i]? = some x ∧ { s with steps := s.steps + 1 }.execute io x = .next s' := by
  rcases step_cases p io limit s with ⟨e, hstop, -⟩ | ⟨hlimit, -⟩
  · rw [h] at hstop
    cases hstop
  · rw [step_below_limit hlimit] at h
    have hlt : i < p.code.size := by
      by_contra hend
      have hle : (p.size : Int) ≤ s.ip := by
        unfold Program.size
        omega
      rw [step_at_end hle] at h
      cases h
    have hx : p.code[i]? = some p.code[i] := Array.getElem?_eq_getElem hlt
    rw [step_at hx hip] at h
    exact ⟨_, hx, h⟩

end State

/-! ## Hops -/

/-- The loop from `i` to `j`: two brackets that jump to each other. -/
structure Program.LoopAt (p : Program) (i j : Nat) : Prop where
  opens : p.code[i]? = some (.jump .loopOpen j)
  closes : p.code[j]? = some (.jump .loopClose i)

/-- How a run goes on from one place to the next.  A command leads to the instruction
behind it.  Each bracket of a loop leads behind the loop if the current cell is zero,
and into the body if it is not. -/
inductive Program.Hop (p : Program) (s s' : State) : Prop where
  | command (i : Nat) (c : Command) (n : Int) (hx : p.code[i]? = some (.op (.command c) n))
    (hfrom : s.ip = i) (hto : s'.ip = i + 1)
  | behind (i j : Nat) (hloop : p.LoopAt i j) (hfrom : s.ip = i ∨ s.ip = j) (hto : s'.ip = j + 1)
    (htape : s'.tape = s.tape) (hb : s.tape.current? = some 0)
  | inside (i j : Nat) (hloop : p.LoopAt i j) (hfrom : s.ip = i ∨ s.ip = j) (hto : s'.ip = i + 1)
    (htape : s'.tape = s.tape) (b : UInt8) (hb : s.tape.current? = some b) (hne : b ≠ 0)

/-- In a program with resolved loops a step goes on by a hop. -/
theorem State.hop_of_next {p : Program} {io : Streams} {limit : Option Int} {s s' : State}
    (hp : p.WellNested) (hip : 0 ≤ s.ip) (h : s.step p io limit = .next s') : p.Hop s s' := by
  obtain ⟨i, hi⟩ := Int.eq_ofNat_of_zero_le hip
  obtain ⟨x, hx, hexecute⟩ := exists_of_step_next hi h
  have hbegun : ({ s with steps := s.steps + 1 } : State).ip = i := hi
  rcases hp.kinds x (Array.mem_of_getElem? hx) with ⟨c, n, rfl, -⟩ | ⟨t, rfl⟩ | ⟨t, rfl⟩
  · have hto := perform_advances { s with steps := s.steps + 1 } io n c
    rw [show State.perform _ io n c = .next s' from hexecute] at hto
    refine .command i c n hx hi ?_
    rw [show s'.ip = s.ip + 1 from hto, hi]
  · obtain ⟨j, rfl, -, -, hclose⟩ := hp.opens hx
    have hloop : p.LoopAt i j := ⟨hx, hclose⟩
    obtain ⟨b, hb, htape, hto⟩ := exists_of_branch_next hexecute
    by_cases hzero : b = 0
    · subst hzero
      exact .behind i j hloop (Or.inl hi) hto htape hb
    · rw [if_neg (by simpa using hzero), hbegun] at hto
      exact .inside i j hloop (Or.inl hi) hto htape b hb hzero
  · obtain ⟨j, rfl, -, hopen⟩ := hp.closes hx
    have hloop : p.LoopAt j i := ⟨hopen, hx⟩
    obtain ⟨b, hb, htape, hto⟩ := exists_of_branch_next hexecute
    by_cases hzero : b = 0
    · subst hzero
      rw [if_neg (by simp), hbegun] at hto
      exact .behind j i hloop (Or.inr hi) hto htape hb
    · rw [if_pos (by simpa using hzero)] at hto
      exact .inside j i hloop (Or.inr hi) hto htape b hb hzero

namespace Program

/-- Directly behind a loop the current cell is zero, and at the beginning of a body it
is not. -/
structure Guards (p : Program) (ip : Int) (t : Tape) : Prop where
  behind : ∀ (c : Nat) (target : Int), p.code[c]? = some (.jump .loopClose target) →
    ip = c + 1 → t.current? = some 0
  inside : ∀ (o : Nat) (target : Int), p.code[o]? = some (.jump .loopOpen target) →
    ip = o + 1 → ∃ b, t.current? = some b ∧ b ≠ 0

/-- The place is not in the body of the loop from `o` to `u`, nor at its end. -/
def Outside (o u : Nat) (ip : Int) : Prop :=
  ¬ (o < ip ∧ ip ≤ u)

variable {p : Program} {s s' : State}

/-- At the beginning of a program there is no bracket before. -/
theorem guards_start (p : Program) (t : Tape) : p.Guards 0 t := by
  constructor
  · intro c target _ hip
    omega
  · intro o target _ hip
    omega

/-- The instruction before the place says all: two hops to one place come from the
same instruction or from its partner. -/
theorem Hop.guards (h : p.Hop s s') : p.Guards s'.ip s'.tape := by
  cases h with
  | command i k n hx hfrom hto =>
    constructor
    · intro c target hc hip
      obtain rfl : c = i := by omega
      rw [hx] at hc
      cases hc
    · intro o target ho hip
      obtain rfl : o = i := by omega
      rw [hx] at ho
      cases ho
  | behind i j hloop hfrom hto htape hb =>
    constructor
    · intro c target _ _
      rw [htape, hb]
    · intro o target ho hip
      obtain rfl : o = j := by omega
      rw [hloop.closes] at ho
      cases ho
  | inside i j hloop hfrom hto htape b hb hne =>
    constructor
    · intro c target hc hip
      obtain rfl : c = i := by omega
      rw [hloop.opens] at hc
      cases hc
    · intro o target _ _
      exact ⟨b, by rw [htape, hb], hne⟩

theorem Hop.ip_nonneg (h : p.Hop s s') : 0 ≤ s'.ip := by
  cases h with
  | command i c n hx hfrom hto => omega
  | behind i j hloop hfrom hto => omega
  | inside i j hloop hfrom hto => omega

/-- No hop leads further than to the end of the program. -/
theorem Hop.ip_le (h : p.Hop s s') : s'.ip ≤ p.size := by
  have hlt {i : Nat} {x : Instruction} (hx : p.code[i]? = some x) : i < p.size :=
    (Array.getElem?_eq_some_iff.1 hx).1
  cases h with
  | command i c n hx hfrom hto =>
    have hi := hlt hx
    omega
  | behind i j hloop hfrom hto =>
    have hj := hlt hloop.closes
    omega
  | inside i j hloop hfrom hto =>
    have hi := hlt hloop.opens
    omega

theorem LoopAt.lt (hp : p.WellNested) {i j : Nat} (h : p.LoopAt i j) : i < j := by
  obtain ⟨k, hk, hlt, -⟩ := hp.opens h.opens
  omega

/-- The only way into a body from outside is its opening bracket, with a cell that is not
zero; directly behind another loop the cell is zero there. -/
theorem Hop.outside {c o u : Nat} {target : Int} (hp : p.WellNested)
    (hclose : p.code[c]? = some (.jump .loopClose target)) (hnext : o = c + 1)
    (hloop : p.LoopAt o u) (hguards : p.Guards s.ip s.tape) (hout : Outside o u s.ip)
    (h : p.Hop s s') : Outside o u s'.ip := by
  have hou := hloop.lt hp
  unfold Outside at hout ⊢
  intro hin
  cases h with
  | command i k n hx hfrom hto =>
    obtain rfl : o = i := by omega
    have hopen := hloop.opens
    rw [hx] at hopen
    cases hopen
  | behind i j hloop' hfrom hto htape hb =>
    have hij := hloop'.lt hp
    have hkind : j ≠ o := by
      rintro rfl
      have hopen := hloop.opens
      rw [hloop'.closes] at hopen
      cases hopen
    -- The end of the other loop is inside this one, so its beginning is too.
    have hfar : ¬ i < o := by
      intro hlt
      have hapart := hp.nested hloop'.opens hloop.opens hlt
      omega
    have hsame : i ≠ o := by
      rintro rfl
      have hopen := hloop.opens
      rw [hloop'.opens] at hopen
      simp only [Option.some.injEq, Instruction.jump.injEq] at hopen
      omega
    omega
  | inside i j hloop' hfrom hto htape b hb hne =>
    have hij := hloop'.lt hp
    by_cases hsame : i = o
    · subst hsame
      have hend : j = u := by
        have hopen := hloop.opens
        rw [hloop'.opens] at hopen
        simp only [Option.some.injEq, Instruction.jump.injEq] at hopen
        omega
      have hzero : s.tape.current? = some 0 := hguards.behind c target hclose (by omega)
      rw [hb] at hzero
      exact hne (Option.some.inj hzero)
    · have hapart := hp.nested hloop.opens hloop'.opens (by omega)
      omega

end Program

/-! ## Runs -/

/-- What holds of a state in front of an instruction: the guards of its place, and that no
body is entered directly behind another loop. -/
structure State.Guarded (p : Program) (s : State) : Prop where
  ip_nonneg : 0 ≤ s.ip
  guards : p.Guards s.ip s.tape
  outside : ∀ (c u : Nat) (target : Int), p.code[c]? = some (.jump .loopClose target) →
    p.LoopAt (c + 1) u → Program.Outside (c + 1) u s.ip

namespace State

variable {p : Program} {s : State}

theorem guarded_start (p : Program) (m : Machine) : m.start.Guarded p := by
  refine ⟨Int.le_refl 0, p.guards_start _, ?_⟩
  intro c u target _ _ hin
  have hip : m.start.ip = 0 := rfl
  omega

theorem Guarded.next {s' : State} (hp : p.WellNested) (h : s.Guarded p) (hhop : p.Hop s s') :
    s'.Guarded p := by
  refine ⟨hhop.ip_nonneg, hhop.guards, ?_⟩
  intro c u target hclose hloop
  exact hhop.outside hp hclose rfl hloop h.guards (h.outside c u target hclose hloop)

/-- A run comes to guarded states only, and where it stops in the middle of an instruction
the instruction is that of a guarded state. -/
theorem run_guarded (hp : p.WellNested) (io : Streams) (limit : Option Int) (rounds : Nat)
    (h : s.Guarded p) :
    ∃ s', s'.Guarded p ∧ (run p io limit rounds s).1.ip = s'.ip ∧
      ((run p io limit rounds s).2 = none ∨ (run p io limit rounds s).2 = some .finished →
        (run p io limit rounds s).1 = s') := by
  induction rounds generalizing s with
  | zero => exact ⟨s, h, rfl, fun _ => rfl⟩
  | succ rounds ih =>
    cases hstep : s.step p io limit with
    | next s₁ =>
      rw [run_of_next hstep]
      exact ih (h.next hp (hop_of_next hp h.ip_nonneg hstep))
    | stop s₁ e =>
      obtain ⟨hip, hfinished⟩ := ip_of_step_stop hstep
      rw [run_of_stop hstep]
      refine ⟨s, h, hip, ?_⟩
      rintro (hgoesOn | hended)
      · cases hgoesOn
      · cases hended
        exact (hfinished rfl).2

end State

/-! ## The result -/

/-- In front of each instruction of a built program, and at a normal end, the current cell
is zero directly behind a loop and is not zero at the beginning of a body.  So the body
of a loop that directly follows another one is never entered. -/
theorem loop_guards_hold {text : List Char} {fold : Bool} {p : Program}
    (hp : Program.ofText text fold = .ok p) (m : Machine) (io : Streams) (rounds : Nat) :
    let r := m.run p io rounds
    (r.ending = none ∨ r.ending = some .finished → p.Guards r.machine.ip r.machine.tape) ∧
    ∀ (c u : Nat) (target : Int), p.code[c]? = some (.jump .loopClose target) →
      p.code[c + 1]? = some (.jump .loopOpen u) → Program.Outside (c + 1) u r.machine.ip := by
  have hnested := (Program.canonical_of_ofText hp).wellNested
  obtain ⟨s, hs, hip, hstate⟩ :=
    State.run_guarded hnested io m.limit rounds (State.guarded_start p m)
  intro r
  have hmachine : r.machine.ip = s.ip := hip
  constructor
  · intro hending
    have hsame : (State.run p io m.limit rounds m.start).1 = s := hstate hending
    have htape : r.machine.tape = s.tape := congrArg State.tape hsame
    rw [hmachine, htape]
    exact hs.guards
  · intro c u target hclose hopen
    obtain ⟨j, hj, -, -, hback⟩ := hnested.opens hopen
    obtain rfl : u = j := by omega
    rw [hmachine]
    exact hs.outside c u target hclose ⟨hopen, hback⟩

/-- The first loop is left when its cell has become zero, and the second one is passed over. -/
theorem loop_guards_hold_between_loops :
    let p : Program := ⟨#[.op (.command .increment) 1, .jump .loopOpen 3,
      .op (.command .decrement) 1, .jump .loopClose 1, .jump .loopOpen 6,
      .op (.command .write) 1, .jump .loopClose 4]⟩
    let m : Machine := { tape := .blank 1 (by decide) }
    let io := Streams.ofLists #[] #[]
    (Program.ofText "+[-][.]".toList = .ok p ∧ (m.run p io 4).ending = none ∧
      (m.run p io 4).machine.ip = 3 + 1) ∧
    (m.run p io 4).machine.tape.current? = some 0 ∧
      Program.Outside 4 6 (m.run p io 4).machine.ip := by
  intro p m io
  have hp : Program.ofText "+[-][.]".toList = .ok p := rfl
  have hending : (m.run p io 4).ending = none := by decide +kernel
  have hip : (m.run p io 4).machine.ip = 3 + 1 := by decide +kernel
  obtain ⟨hguards, houtside⟩ := loop_guards_hold hp m io 4
  exact ⟨⟨hp, hending, hip⟩, (hguards (Or.inl hending)).behind 3 1 rfl hip,
    houtside 3 6 1 rfl rfl⟩

end Brainfuck
