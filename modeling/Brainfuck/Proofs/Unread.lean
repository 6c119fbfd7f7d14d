import Mathlib.Data.List.Infix
import Brainfuck.Proofs.Progress
import Brainfuck.Run.Result

/-!
# Input that is not read

A run knows of its input only what it has read.  So if there is more input behind the
end, a run goes the same way as long as it does not ask for it.  A run that has asked
in vain goes on from there; and since it takes back nothing that was written, what it
has written before stays in front.

* `Streams.ProlongedBy` says that other streams deliver more than these, and that
  they are the same otherwise.
* `Step.Parts` compares one step on both: it is the same, or both are in the middle of
  reading and come to a read that finds nothing on the shorter input.
* `State.ComeApart` is the place where two runs part.  `State.run_parts` says that there
  is no other way to part, by induction on the rounds.
* `State.ComeApart.run_dry` and `State.ComeApart.exists_progress` say what becomes of the
  two runs behind that place.
-/

namespace Brainfuck

/-! ## More input -/

/-- The other streams do the same, but may deliver something where nothing is left here. -/
structure Streams.ProlongedBy (io io' : Streams) : Prop where
  read : ∀ k, (io.read k).byte = .error .exhausted ∨ io'.read k = io.read k
  write : io'.write = io.write
  host : io'.host = io.host

theorem Streams.prolongedBy_ofBytes_append (x y : Array UInt8) (host : Host) :
    (ofBytes x host).ProlongedBy (ofBytes (x ++ y) host) where
  read k := by
    by_cases hk : k < x.size
    · right
      simp only [ofBytes, Array.getElem?_append_left hk]
    · left
      simp only [ofBytes, Array.getElem?_eq_none (Nat.not_lt.1 hk)]
      rfl
  write := rfl
  host := rfl

/-- The run failed because there was nothing left to read. -/
def Ending.RanDry : Ending → Prop
  | .failed e => e.cause = .inputExhausted
  | _ => False

/-- The step stops because there is nothing left to read. -/
def Step.RanDry : Step → Prop
  | .next _ => False
  | .stop _ e => e.RanDry

/-- How one step on `io` and one on `io'` may compare: they are the same, or both come
to a read that finds nothing on `io`. -/
inductive Step.Parts (io io' : Streams) : Step → Step → Prop where
  | same {st : Step} (h : ¬ st.RanDry) : Parts io io' st st
  | apart {s : State} (count : Nat) (h : (io.read s.reads).byte = .error .exhausted) :
    Parts io io' (State.read io (count + 1) s) (State.read io' (count + 1) s)

namespace State

variable {p : Program} {io io' : Streams} {limit : Option Int} {s s₁ : State}

/-! ## Instructions -/

@[simp] theorem ranDry_fail {cause : Failure.Cause} :
    (s.fail cause).RanDry ↔ cause = .inputExhausted := by
  by_cases htext : cause.HasText
  · rw [fail_of_hasText htext]
    exact Iff.rfl
  · rw [fail, Failure.ending_of_not_hasText htext]
    refine ⟨False.elim, ?_⟩
    rintro rfl
    exact htext trivial

@[simp] theorem not_ranDry_breakDown (s : State) (d : Defect) : ¬ (s.breakDown d).RanDry :=
  id

theorem not_ranDry_move (s : State) (delta : Int) : ¬ (s.move delta).RanDry := by
  unfold move
  split
  · exact id
  · simp

theorem not_ranDry_add (s : State) (n : Int) : ¬ (s.add n).RanDry := by
  unfold add
  split
  · exact id
  · exact not_ranDry_breakDown s _

theorem not_ranDry_write (s : State) (io : Streams) (count : Int) :
    ¬ (s.write io count).RanDry := by
  unfold write
  split
  · exact not_ranDry_breakDown s _
  · split
    · simp
    · split
      · exact id
      · split
        · simp
        · simp

theorem not_ranDry_branch (s : State) (test : UInt8 → Bool) (target? : Option Int) :
    ¬ (s.branch test target?).RanDry := by
  unfold branch
  split
  · split
    · split
      · exact id
      · simp
    · exact id
  · exact not_ranDry_breakDown s _

theorem not_ranDry_refuse (s : State) {problem : Reading.Problem} (h : problem ≠ .exhausted) :
    ¬ (s.refuse problem).RanDry := by
  cases problem with
  | exhausted => exact absurd rfl h
  | longText length => exact not_ranDry_breakDown s _
  | fault f =>
    rw [refuse]
    split
    · simp
    · simp

/-- Reads in a row.  The induction is on how many are left; the first that finds nothing
is where the two streams part. -/
theorem read_parts (h : io.ProlongedBy io') (count : Nat) (s : State) :
    Step.Parts io io' (read io count s) (read io' count s) := by
  induction count generalizing s with
  | zero => exact .same id
  | succ count ih =>
    by_cases hdry : (io.read s.reads).byte = .error .exhausted
    · exact .apart count hdry
    · have hsame := (h.read s.reads).resolve_left hdry
      rw [read, read, hsame]
      cases hbyte : (io.read s.reads).byte with
      | error problem =>
        apply Step.Parts.same
        apply not_ranDry_refuse
        rintro rfl
        exact hdry hbyte
      | ok b =>
        cases s.tape.current? with
        | none => exact .same (not_ranDry_breakDown _ _)
        | some c => exact ih _

theorem perform_parts (h : io.ProlongedBy io') (s : State) (count : Int) (c : Command) :
    Step.Parts io io' (s.perform io count c) (s.perform io' count c) := by
  cases c with
  | right => exact .same (not_ranDry_move s count)
  | left => exact .same (not_ranDry_move s (-count))
  | increment => exact .same (not_ranDry_add s count)
  | decrement => exact .same (not_ranDry_add s (-count))
  | write =>
    have hsame : s.write io' count = s.write io count := by
      unfold write
      rw [h.write, h.host]
    rw [perform, perform, hsame]
    exact .same (not_ranDry_write s io count)
  | read => exact read_parts h count.toNat s

theorem execute_parts (h : io.ProlongedBy io') (s : State) (x : Instruction) :
    Step.Parts io io' (s.execute io x) (s.execute io' x) := by
  unfold execute
  cases x.kind with
  | command c =>
    cases x.count? with
    | some count => exact perform_parts h s count c
    | none => exact .same (not_ranDry_breakDown s _)
  | loopOpen => exact .same (not_ranDry_branch s _ _)
  | loopClose => exact .same (not_ranDry_branch s _ _)
  | endOfText => exact .same id

/-! ## Runs -/

theorem step_parts (h : io.ProlongedBy io') (p : Program) (limit : Option Int) (s : State) :
    Step.Parts io io' (s.step p io limit) (s.step p io' limit) := by
  unfold step
  split
  · exact .same id
  · split
    · exact .same (by simp)
    · split
      · exact execute_parts h _ _
      · exact .same (not_ranDry_breakDown _ _)

/-- The runs on `io` and on `io'` go the same way for `n` rounds, and in the next one up
to `s₁`, where the coming read finds nothing on `io`. -/
structure ComeApart (p : Program) (io io' : Streams) (limit : Option Int) (n : Nat)
    (s s₁ : State) : Prop where
  dry : (io.read s₁.reads).byte = .error .exhausted
  meet : ∃ s' count, run p io limit n s = (s', none) ∧ run p io' limit n s = (s', none) ∧
    s'.step p io limit = read io (count + 1) s₁ ∧ s'.step p io' limit = read io' (count + 1) s₁

/-- With more input a run that does not run dry is the same; and one that is not the
same comes to a read that finds nothing without. -/
theorem run_parts (h : io.ProlongedBy io') (p : Program) (limit : Option Int) (rounds : Nat)
    (s : State) :
    (run p io' limit rounds s = run p io limit rounds s ∧
      ∀ e, (run p io limit rounds s).2 = some e → ¬ e.RanDry) ∨
    ∃ n s₁, n < rounds ∧ ComeApart p io io' limit n s s₁ := by
  induction rounds generalizing s with
  | zero => exact Or.inl ⟨rfl, nofun⟩
  | succ rounds ih =>
    have hparts := step_parts h p limit s
    generalize hstep : s.step p io limit = st, hstep' : s.step p io' limit = st' at hparts
    cases hparts with
    | apart count hdry =>
      exact Or.inr ⟨0, _, Nat.succ_pos rounds, hdry, s, count, rfl, rfl, hstep, hstep'⟩
    | same hdry =>
      cases st with
      | stop s₂ e =>
        left
        rw [run_of_stop hstep, run_of_stop hstep']
        refine ⟨rfl, ?_⟩
        intro e' he'
        cases he'
        exact hdry
      | next s₂ =>
        rw [run_of_next hstep, run_of_next hstep']
        rcases ih s₂ with hsame | ⟨n, s₁, hn, hapart⟩
        · exact Or.inl hsame
        · obtain ⟨s', count, hrun, hrun', hread⟩ := hapart.meet
          refine Or.inr ⟨n + 1, s₁, Nat.succ_lt_succ hn, hapart.dry, s', count, ?_, ?_, hread⟩
          · rwa [run_of_next hstep]
          · rwa [run_of_next hstep']

namespace ComeApart

variable {n rounds : Nat}

/-- On the shorter input the run fails there, in the round that it is in. -/
theorem run_dry (h : ComeApart p io io' limit n s s₁) (hn : n < rounds) :
    run p io limit rounds s = ({ s₁ with reads := s₁.reads + 1 },
      some (.failed ⟨.inputExhausted, s₁.ip, s₁.tape.cursor⟩)) := by
  obtain ⟨s', count, hrun, -, hstep, -⟩ := h.meet
  obtain ⟨more, rfl⟩ := Nat.exists_eq_add_of_lt hn
  have hstop : s'.step p io limit = .stop { s₁ with reads := s₁.reads + 1 }
      (.failed ⟨.inputExhausted, s₁.ip, s₁.tape.cursor⟩) := by
    rw [hstep, read, h.dry]
    rfl
  rw [Nat.add_assoc, run_add hrun, run_of_stop hstop]

/-- With more input the run goes on from there, whenever it ends. -/
theorem exists_progress (h : ComeApart p io io' limit n s s₁)
    (hended : (run p io' limit rounds s).2 ≠ none) :
    ∃ k, s₁.Progress k (run p io' limit rounds s).1 := by
  obtain ⟨s', count, -, hrun, -, hstep⟩ := h.meet
  rcases hrun' : run p io' limit rounds s with ⟨s₂, ending⟩
  rw [hrun'] at hended
  obtain ⟨e, rfl⟩ := Option.ne_none_iff_exists'.1 hended
  obtain ⟨k, -, hlast⟩ := exists_of_ended hrun hrun'
  have hread := read_progresses io' (count + 1) s₁
  rw [← hstep] at hread
  cases hnext : s'.step p io' limit with
  | stop s₃ e' =>
    rw [hnext] at hread
    rw [run_of_stop hnext] at hlast
    cases hlast
    exact ⟨0, hread.1⟩
  | next s₃ =>
    rw [hnext] at hread
    rw [run_of_next hnext] at hlast
    obtain ⟨i, -, hprogress, -⟩ := run_progress p io' limit k s₃
    rw [hlast] at hprogress
    exact ⟨0 + i, Progress.trans hread hprogress⟩

end ComeApart

end State

/-! ## The result -/

/-- The result reports that there was nothing left to read. -/
def Result.RanDry (r : Result) : Prop :=
  ∃ e, r.failure = some e ∧ e.cause = .inputExhausted

/-- A result tells that the run ran dry only if it did. -/
theorem Run.exists_ranDry_of_result {r : Run} {result : Result} (h : r.result = .ok result)
    (hdry : result.RanDry) : ∃ e, r.ending = some e ∧ e.RanDry := by
  obtain ⟨e, hfailure, hcause⟩ := hdry
  rw [Run.result] at h
  cases hending : r.ending with
  | none =>
    rw [hending] at h
    cases h
  | some ending =>
    rw [hending] at h
    cases ending with
    | finished =>
      cases h
      cases hfailure
    | broken d => cases h
    | failed e' =>
      cases h
      cases hfailure
      exact ⟨.failed e, rfl, hcause⟩

/-- Input that is not read has no part in a run.  Unless the run on `x` runs dry, the
one on `x ++ y` is the same, round by round.  If it does, both runs come to the read
that finds nothing in `x`, and the result on `x` is what there is at that place.  When
the run on `x ++ y` ends, what was written by then is in front of its output, and it has
begun no fewer instructions. -/
theorem unread_input_has_no_part (p : Program) (o : Options) (x y : Array UInt8)
    (rounds : Nat) :
    ((∀ r, p.run (.bytes x) o rounds = .ok r → ¬ r.RanDry) →
      p.run (.bytes (x ++ y)) o rounds = p.run (.bytes x) o rounds) ∧
    ∀ r, p.run (.bytes x) o rounds = .ok r → r.RanDry →
      let io := Streams.ofBytes x o.host
      let io' := Streams.ofBytes (x ++ y) o.host
      ∃ m n s, Machine.ofSize o.tapeSize o.limit o.host = .ok m ∧
        State.ComeApart p io io' m.limit n m.start s ∧
        r = ⟨s.output, s.tape, s.steps, some ⟨.inputExhausted, s.ip, s.tape.cursor⟩⟩ ∧
        ∀ rounds', (m.run p io' rounds').ending ≠ none →
          r.output <+: (m.run p io' rounds').written.toList.flatten ∧
          r.steps ≤ (m.run p io' rounds').machine.steps := by
  unfold Program.run
  cases hm : Machine.ofSize o.tapeSize o.limit o.host with
  | error e =>
    refine ⟨fun _ => rfl, ?_⟩
    intro r hr
    cases hr
  | ok m =>
    simp only [Input.toArray]
    have hmore := Streams.prolongedBy_ofBytes_append x y o.host
    rcases State.run_parts hmore p m.limit rounds m.start with
      ⟨hsame, hdry⟩ | ⟨n, s, hn, hapart⟩
    · constructor
      · intro _
        rw [Machine.run, Machine.run, hsame]
      · intro r hr hranDry
        obtain ⟨e, he, hend⟩ := Run.exists_ranDry_of_result hr hranDry
        exact absurd hend (hdry e he)
    · have hresult : (m.run p (.ofBytes x o.host) rounds).result =
          .ok ⟨s.output, s.tape, s.steps, some ⟨.inputExhausted, s.ip, s.tape.cursor⟩⟩ := by
        rw [Machine.run_of_state (hapart.run_dry hn)]
        rfl
      constructor
      · intro hnever
        exact absurd ⟨_, rfl, rfl⟩ (hnever _ hresult)
      · intro r hr _
        rw [hresult] at hr
        cases hr
        refine ⟨m, n, s, rfl, hapart, rfl, ?_⟩
        intro rounds' hended
        obtain ⟨k, hprogress⟩ := hapart.exists_progress hended
        exact ⟨hprogress.written.flatten, Nat.le.intro hprogress.steps.symm⟩

/-- One instruction reads two bytes.  It finds both, so that a third is not read; or it
finds only one, and runs dry after that. -/
theorem unread_input_has_no_part_of_pair :
    let p : Program :=
      ⟨#[.op (.command .write) 1, .op (.command .read) 2, .op (.command .write) 1]⟩
    let o : Options := { tapeSize := 1 }
    let dry : Result := ⟨[0], ⟨#[7], 0, by decide, by decide⟩, 2, some ⟨.inputExhausted, 1, 0⟩⟩
    ((∀ r, p.run (.bytes #[7, 8]) o 4 = .ok r → ¬ r.RanDry) ∧
      p.run (.bytes (#[7, 8] ++ #[9])) o 4 = p.run (.bytes #[7, 8]) o 4) ∧
    (p.run (.bytes #[7]) o 4 = .ok dry ∧ dry.RanDry) ∧
      ∃ m n s, Machine.ofSize o.tapeSize o.limit = .ok m ∧
        State.ComeApart p (.ofBytes #[7]) (.ofBytes (#[7] ++ #[8, 9])) m.limit n m.start s ∧
        dry = ⟨s.output, s.tape, s.steps, some ⟨.inputExhausted, s.ip, s.tape.cursor⟩⟩ ∧
        ∀ rounds', (m.run p (.ofBytes (#[7] ++ #[8, 9])) rounds').ending ≠ none →
          dry.output <+: (m.run p (.ofBytes (#[7] ++ #[8, 9])) rounds').written.toList.flatten ∧
          dry.steps ≤ (m.run p (.ofBytes (#[7] ++ #[8, 9])) rounds').machine.steps := by
  intro p o dry
  have hfull : p.run (.bytes #[7, 8]) o 4 =
      .ok ⟨[0, 8], ⟨#[8], 0, by decide, by decide⟩, 3, none⟩ := by decide +kernel
  have henough : ∀ r, p.run (.bytes #[7, 8]) o 4 = .ok r → ¬ r.RanDry := by
    intro r hr hdry
    rw [hfull] at hr
    cases hr
    obtain ⟨e, he, -⟩ := hdry
    cases he
  have hshort : p.run (.bytes #[7]) o 4 = .ok dry := by decide +kernel
  have hdry : dry.RanDry := ⟨_, rfl, rfl⟩
  exact ⟨⟨henough, (unread_input_has_no_part p o #[7, 8] #[9] 4).1 henough⟩, ⟨hshort, hdry⟩,
    (unread_input_has_no_part p o #[7] #[8, 9] 4).2 dry hshort hdry⟩

end Brainfuck
