import Brainfuck.Proofs.Execution
import Brainfuck.Proofs.Spelling

/-!
# Runs stay in bounds

A program that was built from a text never breaks down, as long as its streams
do nothing but deliver bytes and fail in the ways that a machine reports.

* `State.Safe` is the invariant of a run: the instruction is one of the program or
  its end, the cursor is on the tape, and the limit has been kept.
* `Ending.Declared` are the endings that there may be, each with the instruction
  at which it happens.
* `State.step_sound` is one step.  What an instruction does is said for each
  command (`State.perform_sound`) and for a jump (`State.branch_sound`).
* `State.run_sound` is a whole run, by induction on its rounds.
-/

namespace Brainfuck

/-- The read delivers one byte, or nothing, or fails in a way the machine reports. -/
def Reading.IsOrderly : Reading → Prop
  | bytes _ => True
  | text cs => cs.length ≤ 1
  | fails f => f.kind.isStreamTrouble = true

/-- All reads and writes deliver what they should or fail in a way the machine reports. -/
structure Streams.Orderly (io : Streams) : Prop where
  read : ∀ k, (io.read k).IsOrderly
  write : ∀ k f, io.write k = some f → f.kind.isStreamTrouble = true

/-- The ending is one that the machine may report, with the instruction at `ip`
after so many steps. -/
def Ending.Declared (p : Program) (limit : Option Int) (ip : Int) (steps : Nat) : Ending → Prop
  | .finished => ip = p.size
  | .failed e => e.ip = ip ∧
    match e.cause with
    | .leftTape _ _ =>
      ∃ n, p.get? ip = some (.op (.command .right) n) ∨ p.get? ip = some (.op (.command .left) n)
    | .readFailed _ | .inputExhausted => ∃ n, p.get? ip = some (.op (.command .read) n)
    | .writeFailed _ => ∃ n, p.get? ip = some (.op (.command .write) n)
    | .stepLimit k => limit = some k ∧ (steps : Int) = max k 0
  | .broken _ => False

/-- The limit, if there is one, can be written in a report. -/
def LimitHasText (limit : Option Int) : Prop :=
  ∀ k, limit = some k → FitsNumeral k

/-- The cursor is at a cell. -/
structure Tape.Within (t : Tape) : Prop where
  nonneg : 0 ≤ t.cursor
  lt : t.cursor < t.size

namespace Tape.Within

variable {t : Tape}

theorem toNat_lt (h : t.Within) : t.cursor.toNat < t.cells.size := by
  have hnonneg := h.nonneg
  have hlt := h.lt
  unfold Tape.size at hlt
  omega

theorem index? (h : t.Within) : t.index? = some t.cursor.toNat := by
  rw [Tape.index?, if_pos h.nonneg, if_pos h.lt]

theorem exists_current (h : t.Within) : ∃ b, t.current? = some b := by
  have hlt := h.toNat_lt
  refine ⟨t.cells[t.cursor.toNat], ?_⟩
  rw [Tape.current?, h.index?]
  exact Array.getElem?_eq_getElem hlt

theorem put (h : t.Within) (b : UInt8) : (t.put b).Within :=
  ⟨by rw [cursor_put]; exact h.nonneg, by rw [cursor_put, size_put]; exact h.lt⟩

theorem of_move {t' : Tape} {delta : Int} (h : t.move? delta = some t') : t'.Within := by
  unfold Tape.move? at h
  split at h
  · cases h
    exact ⟨‹_ ∧ _›.1, ‹_ ∧ _›.2⟩
  · cases h

theorem reset (t : Tape) : t.reset.Within :=
  ⟨Int.le_refl 0, by rw [size_reset]; exact Int.natCast_pos.2 t.cells_pos⟩

end Tape.Within

/-- The state is one that a run of a built program may come to. -/
structure State.Safe (p : Program) (limit : Option Int) (s : State) : Prop where
  ip_nonneg : 0 ≤ s.ip
  ip_le : s.ip ≤ p.size
  tape : s.tape.Within
  steps_le : ∀ k, limit = some k → (s.steps : Int) ≤ max k 0

/-- The step goes on safely, or stops in a declared way if the limit can be written. -/
def Step.Sound (p : Program) (limit : Option Int) : Step → Prop
  | .next s => s.Safe p limit
  | .stop s e => s.Safe p limit ∧ (LimitHasText limit → e.Declared p limit s.ip s.steps)

namespace State

variable {p : Program} {io : Streams} {limit : Option Int} {s : State}

/-! ## Instructions -/

section Instructions

variable (h : s.Safe p limit) (hlt : s.ip < p.size)

include h

/-- A report ends the run in a declared way, if it is declared and can be written. -/
theorem Safe.fail {cause : Failure.Cause} (htext : LimitHasText limit → cause.HasText)
    (hdeclared : Ending.Declared p limit s.ip s.steps (.failed ⟨cause, s.ip, s.tape.cursor⟩)) :
    (s.fail cause).Sound p limit := by
  refine ⟨h, fun hlimit => ?_⟩
  rwa [Failure.ending_of_hasText (htext hlimit)]

/-- A state with another tape, further on in the program, is as safe. -/
theorem Safe.goTo {ip : Int} (hnonneg : 0 ≤ ip) (hle : ip ≤ p.size) {tape : Tape}
    (htape : tape.Within) (reads : Nat) (written : Array (List UInt8)) :
    ({ tape, ip, steps := s.steps, reads, written } : State).Safe p limit :=
  ⟨hnonneg, hle, htape, h.steps_le⟩

include hlt

theorem Safe.goOn {tape : Tape} (htape : tape.Within) (reads : Nat)
    (written : Array (List UInt8)) :
    ({ tape, ip := s.ip + 1, steps := s.steps, reads, written } : State).Safe p limit :=
  h.goTo (by have := h.ip_nonneg; omega) (by omega) htape reads written

theorem advance_sound : s.advance.Sound p limit :=
  h.goOn hlt h.tape s.reads s.written

theorem move_sound {n delta : Int} (hdelta : (delta.natAbs : Int) < wordBound)
    (hmove : p.get? s.ip = some (.op (.command .right) n) ∨
      p.get? s.ip = some (.op (.command .left) n)) : (s.move delta).Sound p limit := by
  unfold move
  cases htape : s.tape.move? delta with
  | some tape => exact h.goOn hlt (.of_move htape) s.reads s.written
  | none =>
    have htext := Tape.fitsNumeral_target h.tape.nonneg h.tape.lt hdelta
    exact h.fail (fun _ => htext) ⟨rfl, n, hmove⟩

theorem add_sound (n : Int) : (s.add n).Sound p limit := by
  obtain ⟨b, hb⟩ := h.tape.exists_current
  unfold add
  rw [hb]
  exact h.goOn hlt (h.tape.put _) s.reads s.written

theorem write_sound {n : Int} (hio : io.Orderly) (hlow : -wordBound ≤ n)
    (hroom : n ≤ io.host.memory)
    (hwrite : p.get? s.ip = some (.op (.command .write) n)) : (s.write io n).Sound p limit := by
  obtain ⟨b, hb⟩ := h.tape.exists_current
  unfold write
  simp only [hb, copies_of_le hlow hroom]
  cases hfault : io.write s.written.size with
  | none => exact h.goOn hlt h.tape s.reads _
  | some f =>
    simp only [if_pos (hio.write _ f hfault)]
    exact h.fail (fun _ => trivial) ⟨rfl, n, hwrite⟩

theorem branch_sound {test : UInt8 → Bool} {target : Int} (hnonneg : 0 ≤ target)
    (hle : target < p.size) : (s.branch test (some target)).Sound p limit := by
  obtain ⟨b, hb⟩ := h.tape.exists_current
  unfold branch
  simp only [hb]
  split
  · exact h.goTo (by omega) (by omega) h.tape s.reads s.written
  · exact advance_sound h hlt

end Instructions

/-- A read that delivers no byte ends the run with a report. -/
theorem refuse_sound {n : Int} {k : Nat} {problem : Reading.Problem} (h : s.Safe p limit)
    (hio : io.Orderly) (hread : p.get? s.ip = some (.op (.command .read) n))
    (hproblem : (io.read k).byte = .error problem) : (s.refuse problem).Sound p limit := by
  have horderly := hio.read k
  cases hk : io.read k with
  | bytes bs =>
    rw [hk] at hproblem
    cases bs with
    | nil =>
      cases hproblem
      exact h.fail (fun _ => trivial) ⟨rfl, n, hread⟩
    | cons b bs => cases hproblem
  | text cs =>
    rw [hk] at hproblem horderly
    match cs with
    | [] =>
      cases hproblem
      exact h.fail (fun _ => trivial) ⟨rfl, n, hread⟩
    | [c] => cases hproblem
    | c :: d :: cs => exact absurd horderly (by simp [Reading.IsOrderly])
  | fails f =>
    rw [hk] at hproblem horderly
    cases hproblem
    have htrouble : f.kind.isStreamTrouble = true := horderly
    simp only [refuse, if_pos htrouble]
    exact h.fail (fun _ => trivial) ⟨rfl, n, hread⟩

/-- Reads in a row end well.  The induction is on how many are left. -/
theorem read_sound {n : Int} (hio : io.Orderly) (count : Nat) (h : s.Safe p limit)
    (hlt : s.ip < p.size) (hread : p.get? s.ip = some (.op (.command .read) n)) :
    (read io count s).Sound p limit := by
  induction count generalizing s with
  | zero => exact advance_sound h hlt
  | succ count ih =>
    rw [read]
    cases hbyte : (io.read s.reads).byte with
    | error problem =>
      exact refuse_sound (h.goTo h.ip_nonneg h.ip_le h.tape (s.reads + 1) s.written) hio hread hbyte
    | ok b =>
      obtain ⟨c, hc⟩ := h.tape.exists_current
      simp only [hc]
      exact ih (h.goTo h.ip_nonneg h.ip_le (h.tape.put b) (s.reads + 1) s.written) hlt hread

/-- A command that was built is carried out safely. -/
theorem perform_sound {c : Command} {n : Int} (hio : io.Orderly) (h : s.Safe p limit)
    (hlt : s.ip < p.size) (hget : p.get? s.ip = some (.op (.command c) n)) (hpos : 1 ≤ n)
    (hroom : n ≤ io.host.memory) : (s.perform io n c).Sound p limit := by
  have hword : (n.natAbs : Int) < wordBound := by
    have := io.host.memory_lt
    omega
  cases c with
  | right => exact move_sound h hlt hword (Or.inl hget)
  | left => exact move_sound h hlt (n.natAbs_neg ▸ hword) (Or.inr hget)
  | increment => exact add_sound h hlt n
  | decrement => exact add_sound h hlt (-n)
  | write => exact write_sound h hlt hio (by omega) hroom hget
  | read => exact read_sound hio n.toNat h hlt hget

/-! ## Runs -/

theorem execute_sound {x : Instruction} (hp : p.WellNested) (hroom : p.HasRoom io.host)
    (hio : io.Orderly) (h : s.Safe p limit) (hlt : s.ip < p.size) (hget : p.get? s.ip = some x) :
    (s.execute io x).Sound p limit := by
  obtain ⟨i, hi⟩ := Int.eq_ofNat_of_zero_le h.ip_nonneg
  have hx : p.code[i]? = some x := by
    rwa [Program.get?, if_pos h.ip_nonneg, hi, Int.toNat_natCast] at hget
  have hmem : x ∈ p.code := Array.mem_of_getElem? hx
  rcases hp.kinds x hmem with ⟨c, n, rfl, hpos⟩ | ⟨t, rfl⟩ | ⟨t, rfl⟩
  · exact perform_sound hio h hlt hget hpos (hroom _ n hmem)
  · obtain ⟨j, rfl, hij, hj, -⟩ := hp.opens hx
    exact branch_sound h hlt (by omega) (by omega)
  · obtain ⟨j, rfl, hij, hj⟩ := hp.closes hx
    exact branch_sound h hlt (by omega) (by omega)

/-- A step from a safe state goes on safely, or stops in a declared way. -/
theorem step_sound (hp : p.WellNested) (hroom : p.HasRoom io.host) (hio : io.Orderly)
    (h : s.Safe p limit) : (s.step p io limit).Sound p limit := by
  unfold step
  split
  · exact ⟨h, fun _ => Int.le_antisymm h.ip_le ‹_›⟩
  · have hlt : s.ip < p.size := by omega
    split
    · rename_i k hk
      obtain ⟨hlimit, hreached⟩ := Option.filter_eq_some_iff.1 hk
      have hle := h.steps_le k hlimit
      rw [decide_eq_true_eq] at hreached
      exact h.fail (fun htext => htext k hlimit) ⟨rfl, hlimit, by omega⟩
    · rename_i hk
      -- The limit is not reached yet, so one more step is allowed.
      have hbegun : ({ s with steps := s.steps + 1 } : State).Safe p limit := by
        refine ⟨h.ip_nonneg, h.ip_le, h.tape, ?_⟩
        rintro k rfl
        have hnot : ¬ k ≤ (s.steps : Int) := by simpa using hk
        show ((s.steps + 1 : Nat) : Int) ≤ max k 0
        omega
      obtain ⟨i, hi⟩ := Int.eq_ofNat_of_zero_le h.ip_nonneg
      have hbound : i < p.code.size := by
        have hsize : p.size = p.code.size := rfl
        omega
      have hget : p.get? s.ip = some p.code[i] := by
        rw [Program.get?, if_pos h.ip_nonneg, hi, Int.toNat_natCast,
          Array.getElem?_eq_getElem hbound]
      simp only [hget]
      exact execute_sound hp hroom hio hbegun hlt hget

/-- A run from a safe state stays safe, and ends in a declared way if it ends and the limit
can be written. -/
theorem run_sound (hp : p.WellNested) (hroom : p.HasRoom io.host) (hio : io.Orderly)
    (rounds : Nat) (h : s.Safe p limit) :
    (run p io limit rounds s).1.Safe p limit ∧
      (LimitHasText limit → ∀ e, (run p io limit rounds s).2 = some e →
        e.Declared p limit (run p io limit rounds s).1.ip (run p io limit rounds s).1.steps) := by
  induction rounds generalizing s with
  | zero => exact ⟨h, fun _ => nofun⟩
  | succ rounds ih =>
    have hsound := step_sound hp hroom hio h
    cases hstep : s.step p io limit with
    | next s₁ =>
      rw [hstep] at hsound
      rw [run_of_next hstep]
      exact ih hsound
    | stop s₁ e =>
      rw [hstep] at hsound
      rw [run_of_stop hstep]
      refine ⟨hsound.1, ?_⟩
      rintro hlimit e' ⟨⟩
      exact hsound.2 hlimit

end State

theorem Machine.start_safe (m : Machine) (p : Program) : m.start.Safe p m.limit :=
  ⟨Int.le_refl 0, Int.natCast_nonneg _, .reset m.tape, fun k _ => Int.le_max_right k 0⟩

/-! ## The result -/

end Brainfuck
