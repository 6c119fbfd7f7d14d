import Brainfuck.Proofs.Progress

/-!
# Input and output of a run

What a run reads and writes, call by call, and how it ends if a call fails.  The program
may be any row of instructions, and the streams may do anything.

* `Run.Writes` and `Run.Reads` say what an output and an input instruction do.  An output
  instruction makes one call.  An input instruction makes one call for each byte and
  stores the byte before the next call, so that it may fail with some bytes stored
  (`State.read_cases`, by induction on the number of reads).
* `Run.Round` says what one round of a run does, by whether it begins one of these two
  instructions or anything else, and `Machine.run_round` that every round of every run
  does so.
* `Run.delivery` reads the call that a round makes off the runs before and behind it.
  `Machine.written_run` says that the output holds what all rounds have delivered, and
  `Machine.served_run` that no call has failed before the end.  Both are inductions on the
  rounds, with one step each (`Run.Round.written`, `Run.Round.served`).
-/

namespace Brainfuck

/-! ## How calls end a run -/

/-- How a run ends with the failure of a call.  The machine reports trouble with the stream
as its own, with the failure as its cause, and lets other failures through. -/
def Fault.ending (f : Fault) (cause : Fault → Failure.Cause) (ip cursor : Int) : Ending :=
  if f.kind.isStreamTrouble then .failed ⟨cause f, ip, cursor⟩ else .broken (.fault f)

/-- How a run ends with a read that delivers no byte.  Nothing is the cause if there is
nothing left. -/
def Reading.Problem.ending (problem : Reading.Problem) (ip cursor : Int) : Ending :=
  match problem with
  | exhausted => .failed ⟨.inputExhausted, ip, cursor⟩
  | fault f => f.ending .readFailed ip cursor
  | longText length => .broken (.longText length)

/-- The run ended because bytes could not be transferred. -/
def Ending.OfTransfer : Ending → Prop
  | .failed ⟨.readFailed _, _, _⟩ | .failed ⟨.writeFailed _, _, _⟩
  | .failed ⟨.inputExhausted, _, _⟩ => True
  | .broken (.capacity .numeral) => False
  | .broken (.capacity _) | .broken (.fault _) | .broken (.longText _) => True
  | _ => False

/-- That a report cannot be written is no matter of transfer. -/
theorem Failure.not_ofTransfer {e : Failure} (h : ¬(Ending.failed e).OfTransfer) :
    ¬e.ending.OfTransfer := by
  unfold ending
  split
  · exact h
  · exact id

/-- The reads from number `k` on deliver these bytes. -/
def Streams.Delivers (io : Streams) (k : Nat) (bytes : List UInt8) : Prop :=
  ∀ i b, bytes[i]? = some b → (io.read (k + i)).byte = .ok b

/-- The step from `s` transfers nothing. -/
def Step.Quiet (s : State) : Step → Prop
  | .next s' => s'.reads = s.reads ∧ s'.written = s.written
  | .stop s' e => s'.reads = s.reads ∧ s'.written = s.written ∧ ¬ e.OfTransfer

/-- Storing the bytes one after the other makes `t` the tape `t'`.  Only the current cell
changes, and it holds the last byte if there is one. -/
structure Tape.Stores (t : Tape) (bytes : List UInt8) (t' : Tape) : Prop where
  cursor : t'.cursor = t.cursor
  size : t'.size = t.size
  others : ∀ i : Nat, (i : Int) ≠ t.cursor → t'.cells[i]? = t.cells[i]?
  current : t'.current? = bytes.getLast?.or t.current?

/-! ## Rounds -/

namespace Run

/-- In the next round the run begins the instruction `x`. -/
structure Begins (r : Run) (p : Program) (x : Instruction) : Prop where
  ending : r.ending = none
  inside : r.machine.ip < p.size
  limit : ∀ k, r.machine.limit = some k → (r.machine.steps : Int) < k
  get : p.get? r.machine.ip = some x

/-- The run behind the instruction that it began. -/
def proceed (r : Run) : Run :=
  { r with machine := { r.machine with ip := r.machine.ip + 1, steps := r.machine.steps + 1 } }

/-- The run ended by the instruction that it began, on which it stays. -/
def halt (r : Run) (e : Ending) : Run :=
  { r with machine := { r.machine with steps := r.machine.steps + 1 }, ending := some e }

/-- The run with another tape and so many reads. -/
def feed (r : Run) (tape : Tape) (reads : Nat) : Run :=
  { r with machine := { r.machine with tape }, reads }

/-- An output instruction makes one call, with as many copies of the current cell as its
count says.  If the call fails the run ends, and nothing else has changed.  There is no
call if there is no room for so many bytes. -/
structure Writes (io : Streams) (count : Int) (r r' : Run) : Prop where
  succeeds : -wordBound ≤ count → count ≤ io.host.memory → io.write r.written.size = none →
    ∃ b, r.machine.tape.current? = some b ∧
      r' = { r.proceed with written := r.written.push (List.replicate count.toNat b) }
  fails : -wordBound ≤ count → count ≤ io.host.memory → ∀ f, io.write r.written.size = some f →
    r' = r.halt (f.ending .writeFailed r.machine.ip r.machine.tape.cursor)
  wordless : ¬ FitsWord count → r' = r.halt (.broken (.capacity .word))
  roomless : FitsWord count → io.host.memory < count → r' = r.halt (.broken (.capacity .memory))

/-- An input instruction stores the bytes of as many calls as its count says, or else those
before the first call that delivers none. -/
inductive Reads (io : Streams) (count : Int) (r : Run) : Run → Prop
  | all (bytes : List UInt8) (tape : Tape) (hcount : bytes.length = count.toNat)
      (hbytes : io.Delivers r.reads bytes) (htape : r.machine.tape.Stores bytes tape) :
      Reads io count r (r.feed tape (r.reads + bytes.length)).proceed
  | upTo (bytes : List UInt8) (tape : Tape) (problem : Reading.Problem)
      (hcount : bytes.length < count.toNat) (hbytes : io.Delivers r.reads bytes)
      (hproblem : (io.read (r.reads + bytes.length)).byte = .error problem)
      (htape : r.machine.tape.Stores bytes tape) :
      Reads io count r ((r.feed tape (r.reads + bytes.length + 1)).halt
        (problem.ending r.machine.ip r.machine.tape.cursor))

/-- Nothing is transferred. -/
structure Quiet (r r' : Run) : Prop where
  reads : r'.reads = r.reads
  written : r'.written = r.written
  ending : ∀ e, r'.ending = some e → ¬ e.OfTransfer

/-- One round takes the run `r` to `r'`.  It carries out an output or an input instruction,
or it does something else and transfers nothing, or the run had ended before. -/
inductive Round (p : Program) (io : Streams) (r : Run) : Run → Prop
  | writes {r' : Run} (count : Int) (hbegins : r.Begins p (.op (.command .write) count))
      (h : r.Writes io count r') : Round p io r r'
  | reads {r' : Run} (count : Int) (hbegins : r.Begins p (.op (.command .read) count))
      (h : r.Reads io count r') : Round p io r r'
  | quiet {r' : Run} (hending : r.ending = none)
      (hwrite : ∀ count, ¬ r.Begins p (.op (.command .write) count))
      (hread : ∀ count, ¬ r.Begins p (.op (.command .read) count))
      (hnext : r'.ending = none → ∃ x, r.Begins p x)
      (h : r.Quiet r') : Round p io r r'
  | ended (hending : r.ending ≠ none) : Round p io r r

end Run

/-- The bytes of the call that a round from `r` to `r'` makes, if it carries out an output
instruction and the run goes on. -/
def Run.delivery (p : Program) (r r' : Run) : Option (List UInt8) :=
  match r'.ending, p.get? r.machine.ip, r.machine.tape.current? with
  | none, some (.op (.command .write) count), some b => some (List.replicate count.toNat b)
  | _, _, _ => none

/-- What the rounds of a run deliver, in their order. -/
def Machine.deliveries (m : Machine) (p : Program) (io : Streams) (rounds : Nat) :
    List (List UInt8) :=
  (List.range rounds).filterMap fun k => (m.run p io k).delivery p (m.run p io (k + 1))

/-! ## The current cell -/

namespace Tape

variable {t t' : Tape}

theorem Within.current_put (h : t.Within) (b : UInt8) : (t.put b).current? = some b := by
  obtain ⟨c, hc⟩ := h.exists_current
  exact current?_put hc b

theorem Within.getElem?_put (h : t.Within) (b : UInt8) {i : Nat} (hi : (i : Int) ≠ t.cursor) :
    (t.put b).cells[i]? = t.cells[i]? := by
  have hne : t.cursor.toNat ≠ i := by
    have hnonneg := h.nonneg
    omega
  apply Tape.getElem?_put
  rw [h.index?]
  exact fun heq => hne (Option.some.inj heq)

theorem Stores.refl (t : Tape) : t.Stores [] t :=
  ⟨rfl, rfl, fun _ _ => rfl, rfl⟩

/-- One byte is stored, and then others. -/
theorem Stores.cons {b : UInt8} {bytes : List UInt8} (h : t.Within)
    (hrest : (t.put b).Stores bytes t') : t.Stores (b :: bytes) t' := by
  refine ⟨hrest.cursor.trans (cursor_put t b), hrest.size.trans (size_put t b), ?_, ?_⟩
  · intro i hi
    rw [hrest.others i (by rwa [cursor_put]), h.getElem?_put b hi]
  · rw [hrest.current, h.current_put]
    cases bytes with
    | nil => rfl
    | cons b' bytes => simp [List.getLast?_cons]

end Tape

theorem Streams.Delivers.cons {io : Streams} {k : Nat} {b : UInt8} {bytes : List UInt8}
    (hfirst : (io.read k).byte = .ok b) (h : io.Delivers (k + 1) bytes) :
    io.Delivers k (b :: bytes) := by
  intro i c hc
  cases i with
  | zero =>
    cases hc
    exact hfirst
  | succ i =>
    rw [Nat.add_comm i 1, ← Nat.add_assoc]
    exact h i c hc

theorem Streams.Delivers.exists_byte {io : Streams} {k j : Nat} {bytes : List UInt8}
    (h : io.Delivers k bytes) (hlow : k ≤ j) (hhigh : j < k + bytes.length) :
    ∃ b, (io.read j).byte = .ok b := by
  obtain ⟨i, rfl⟩ := Nat.exists_eq_add_of_le hlow
  have hi : i < bytes.length := by omega
  exact ⟨bytes[i], h i _ (List.getElem?_eq_getElem hi)⟩

/-! ## Instructions -/

namespace State

variable {p : Program} {io : Streams} {limit : Option Int} {s : State}

theorem refuse_eq (s : State) (problem : Reading.Problem) :
    s.refuse problem = .stop s (problem.ending s.ip s.tape.cursor) := by
  cases problem with
  | exhausted => rfl
  | longText length => rfl
  | fault f =>
    rw [refuse, Reading.Problem.ending, Fault.ending]
    split <;> rfl

/-- Reads in a row store what they deliver, up to the first that delivers nothing.  The
induction is on how many are left. -/
theorem read_cases (io : Streams) (count : Nat) (h : s.tape.Within) :
    ∃ bytes tape, io.Delivers s.reads bytes ∧ s.tape.Stores bytes tape ∧
      ((bytes.length = count ∧ read io count s =
          .next { s with tape, ip := s.ip + 1, reads := s.reads + bytes.length }) ∨
        bytes.length < count ∧ ∃ problem,
          (io.read (s.reads + bytes.length)).byte = .error problem ∧
          read io count s = .stop { s with tape, reads := s.reads + bytes.length + 1 }
            (problem.ending s.ip s.tape.cursor)) := by
  induction count generalizing s with
  | zero => exact ⟨[], s.tape, nofun, .refl s.tape, Or.inl ⟨rfl, rfl⟩⟩
  | succ count ih =>
    rw [read]
    cases hbyte : (io.read s.reads).byte with
    | error problem =>
      refine ⟨[], s.tape, nofun, .refl s.tape, Or.inr ⟨Nat.succ_pos count, problem, hbyte, ?_⟩⟩
      exact refuse_eq _ problem
    | ok b =>
      obtain ⟨c, hc⟩ := h.exists_current
      simp only [hc]
      obtain ⟨bytes, tape, hbytes, htape, hread⟩ :=
        ih (s := { s with tape := s.tape.put b, reads := s.reads + 1 }) (h.put b)
      have hreads : s.reads + 1 + bytes.length = s.reads + (b :: bytes).length := by
        rw [List.length_cons]
        omega
      refine ⟨b :: bytes, tape, hbytes.cons hbyte, htape.cons h, ?_⟩
      rw [← hreads, List.length_cons, Nat.add_right_cancel_iff, Nat.add_lt_add_iff_right]
      rwa [Tape.cursor_put] at hread

theorem move_quiet (s : State) (delta : Int) : (s.move delta).Quiet s := by
  unfold move
  split
  · exact ⟨rfl, rfl⟩
  · exact ⟨rfl, rfl, Failure.not_ofTransfer id⟩

theorem offTape_quiet (s : State) : s.offTape.Quiet s :=
  ⟨rfl, rfl, id⟩

theorem add_quiet (s : State) (n : Int) : (s.add n).Quiet s := by
  unfold add
  split
  · exact ⟨rfl, rfl⟩
  · exact offTape_quiet s

theorem branch_quiet (s : State) (test : UInt8 → Bool) (target? : Option Int) :
    (s.branch test target?).Quiet s := by
  unfold branch
  split
  · split
    · split
      · exact ⟨rfl, rfl⟩
      · exact ⟨rfl, rfl, id⟩
    · exact ⟨rfl, rfl⟩
  · exact offTape_quiet s

/-- Only counted outputs and inputs transfer anything. -/
theorem execute_quiet {x : Instruction} (s : State) (io : Streams)
    (hwrite : ∀ count, x ≠ .op (.command .write) count)
    (hread : ∀ count, x ≠ .op (.command .read) count) : (s.execute io x).Quiet s := by
  cases x with
  | op k count =>
    cases k with
    | command c =>
      cases c with
      | right => exact move_quiet s count
      | left => exact move_quiet s (-count)
      | increment => exact add_quiet s count
      | decrement => exact add_quiet s (-count)
      | write => exact absurd rfl (hwrite count)
      | read => exact absurd rfl (hread count)
    | loopOpen => exact branch_quiet s (· == 0) none
    | loopClose => exact branch_quiet s (· != 0) none
    | endOfText => exact ⟨rfl, rfl⟩
  | jump k t =>
    cases k with
    | command c => exact ⟨rfl, rfl, id⟩
    | loopOpen => exact branch_quiet s (· == 0) (some t)
    | loopClose => exact branch_quiet s (· != 0) (some t)
    | endOfText => exact ⟨rfl, rfl⟩

/-- A step begins the instruction at its place if the limit allows for it. -/
theorem step_of_get {x : Instruction} (hip : s.ip < p.size)
    (hlimit : ∀ k, limit = some k → (s.steps : Int) < k) (hx : p.get? s.ip = some x) :
    s.step p io limit = { s with steps := s.steps + 1 }.execute io x := by
  rw [step_below_limit hlimit, step, if_neg (by omega), Option.filter_none]
  simp only [hx]

/-- A step that begins no instruction ends the run without a transfer. -/
theorem exists_stop (h : ∀ x, s.ip < p.size → (∀ k, limit = some k → (s.steps : Int) < k) →
    p.get? s.ip ≠ some x) :
    ∃ s' e, s.step p io limit = .stop s' e ∧ (Step.stop s' e).Quiet s := by
  by_cases hip : s.ip < p.size
  · by_cases hlimit : ∀ k, limit = some k → (s.steps : Int) < k
    · have hget : p.get? s.ip = none := Option.eq_none_iff_forall_ne_some.2 fun x => h x hip hlimit
      have hstep : s.step p io limit =
          .stop { s with steps := s.steps + 1 } (.broken (.noInstruction s.ip)) := by
        rw [step_below_limit hlimit, step, if_neg (by omega), Option.filter_none]
        simp only [hget]
        rfl
      exact ⟨_, _, hstep, rfl, rfl, id⟩
    · simp only [not_forall, Int.not_lt] at hlimit
      obtain ⟨k, rfl, hk⟩ := hlimit
      exact ⟨_, _, step_at_limit hip hk, rfl, rfl, Failure.not_ofTransfer id⟩
  · exact ⟨_, _, step_at_end (by omega), rfl, rfl, id⟩

end State

/-! ## One round -/

namespace Run

variable {p : Program} {r : Run} {x y : Instruction}

theorem Begins.unique (h : r.Begins p x) (h' : r.Begins p y) : x = y :=
  Option.some.inj (h.get.symm.trans h'.get)

end Run

namespace Machine

variable {m : Machine} {p : Program} {io : Streams}

/-- The run that has come to the state `s`. -/
def leave (m : Machine) (s : State) (ending : Option Ending) : Run where
  machine := { m with tape := s.tape, ip := s.ip, steps := s.steps }
  reads := s.reads
  written := s.written
  ending := ending

/-- The run behind a step. -/
def after (m : Machine) : Step → Run
  | .next s => m.leave s none
  | .stop s e => m.leave s (some e)

/-- A round of a run that goes on is a step. -/
theorem exists_step {n : Nat} (h : (m.run p io n).ending = none) :
    ∃ s : State, s.tape.Within ∧ m.run p io n = m.leave s none ∧
      m.run p io (n + 1) = m.after (s.step p io m.limit) := by
  obtain ⟨k, -, hprogress, -, -⟩ := State.run_progress p io m.limit n m.start
  have hrun : State.run p io m.limit n m.start = ((State.run p io m.limit n m.start).1, none) :=
    Prod.ext rfl h
  refine ⟨_, hprogress.within (.reset m.tape), run_of_state hrun, ?_⟩
  have hnext := State.run_add hrun 1
  cases hstep : (State.run p io m.limit n m.start).1.step p io m.limit with
  | next s' =>
    rw [State.run_of_next hstep 0] at hnext
    exact run_of_state hnext
  | stop s' e =>
    rw [State.run_of_stop hstep 0] at hnext
    exact run_of_state hnext

theorem run_of_ended {n : Nat} (h : (m.run p io n).ending ≠ none) (k : Nat) :
    m.run p io (n + k) = m.run p io n := by
  obtain ⟨e, he⟩ := Option.ne_none_iff_exists'.1 h
  have hrun : State.run p io m.limit n m.start = ((State.run p io m.limit n m.start).1, some e) :=
    Prod.ext rfl he
  exact (run_of_state (State.run_of_ended hrun k)).trans (run_of_state hrun).symm

variable {s : State}

theorem leave_writes {count : Int} (hs : s.tape.Within) :
    (m.leave s none).Writes io count
      (m.after ({ s with steps := s.steps + 1 }.write io count)) := by
  obtain ⟨b, hb⟩ := hs.exists_current
  refine ⟨?_, ?_, ?_, ?_⟩
  · intro hlow hhigh hio
    have hio' : io.write s.written.size = none := hio
    refine ⟨b, hb, ?_⟩
    simp only [State.write, hb, copies_of_le hlow hhigh b, hio']
    rfl
  · intro hlow hhigh f hio
    have hio' : io.write s.written.size = some f := hio
    simp only [State.write, hb, copies_of_le hlow hhigh b, hio', Fault.ending]
    split <;> rfl
  · intro hfits
    simp only [State.write, hb, copies, if_pos hfits]
    rfl
  · intro hfits hlarge
    simp only [State.write, hb, copies, if_neg (not_not.2 hfits), if_pos hlarge]
    rfl

theorem leave_reads {count : Int} (hs : s.tape.Within) :
    (m.leave s none).Reads io count
      (m.after (State.read io count.toNat { s with steps := s.steps + 1 })) := by
  obtain ⟨bytes, tape, hbytes, htape, ⟨hcount, hread⟩ | ⟨hcount, problem, hproblem, hread⟩⟩ :=
    State.read_cases (s := { s with steps := s.steps + 1 }) io count.toNat hs
  · rw [hread]
    exact .all bytes tape hcount hbytes htape
  · rw [hread]
    exact .upTo bytes tape problem hcount hbytes hproblem htape

theorem leave_quiet {st : Step} (h : st.Quiet s) : (m.leave s none).Quiet (m.after st) := by
  cases st with
  | next s' => exact ⟨h.1, h.2, nofun⟩
  | stop s' e =>
    refine ⟨h.1, h.2.1, ?_⟩
    intro e' he'
    cases he'
    exact h.2.2

/-- The round that a step makes. -/
theorem step_round (hs : s.tape.Within) :
    Run.Round p io (m.leave s none) (m.after (s.step p io m.limit)) := by
  by_cases hbegins : ∃ x, (m.leave s none).Begins p x
  · obtain ⟨x, hx⟩ := hbegins
    have hstep : s.step p io m.limit = { s with steps := s.steps + 1 }.execute io x :=
      State.step_of_get hx.inside hx.limit hx.get
    rw [hstep]
    by_cases hwrite : ∃ count, x = .op (.command .write) count
    · obtain ⟨count, rfl⟩ := hwrite
      exact .writes count hx (leave_writes hs)
    by_cases hread : ∃ count, x = .op (.command .read) count
    · obtain ⟨count, rfl⟩ := hread
      exact .reads count hx (leave_reads hs)
    · rw [not_exists] at hwrite hread
      refine .quiet rfl ?_ ?_ (fun _ => ⟨x, hx⟩)
        (leave_quiet (s := s) (State.execute_quiet _ io hwrite hread))
      · intro count hbegun
        exact hwrite count (hx.unique hbegun)
      · intro count hbegun
        exact hread count (hx.unique hbegun)
  · rw [not_exists] at hbegins
    obtain ⟨s', e, hstep, hquiet⟩ : ∃ s' e, s.step p io m.limit = .stop s' e ∧
        (Step.stop s' e).Quiet s := by
      apply State.exists_stop
      intro x hinside hlimit hget
      exact hbegins x ⟨rfl, hinside, hlimit, hget⟩
    rw [hstep]
    exact .quiet rfl (fun _ => hbegins _) (fun _ => hbegins _) nofun (leave_quiet hquiet)

theorem run_round (m : Machine) (p : Program) (io : Streams) (n : Nat) :
    Run.Round p io (m.run p io n) (m.run p io (n + 1)) := by
  by_cases hending : (m.run p io n).ending = none
  · obtain ⟨s, hs, hrun, hnext⟩ := exists_step hending
    rw [hrun, hnext]
    exact step_round hs
  · rw [run_of_ended hending 1]
    exact .ended hending

end Machine

/-! ## Whole runs -/

namespace Run

variable {p : Program} {io : Streams} {r r' : Run}

theorem delivery_of_ended (h : r'.ending ≠ none) : r.delivery p r' = none := by
  unfold delivery
  split
  · rename_i hnone _ _
    exact absurd hnone h
  · rfl

theorem delivery_of_ne (h : ∀ count, p.get? r.machine.ip ≠ some (.op (.command .write) count)) :
    r.delivery p r' = none := by
  unfold delivery
  split
  · rename_i hget _
    exact absurd hget (h _)
  · rfl

theorem delivery_of_write {count : Int} {b : UInt8} (hending : r'.ending = none)
    (hget : p.get? r.machine.ip = some (.op (.command .write) count))
    (hb : r.machine.tape.current? = some b) :
    r.delivery p r' = some (List.replicate count.toNat b) := by
  unfold delivery
  simp only [hending, hget, hb]

/-- An output instruction makes the call that the round delivers, or the run ends. -/
theorem Writes.cases {count : Int} (h : r.Writes io count r') :
    (io.write r.written.size = none ∧ ∃ b, r.machine.tape.current? = some b ∧
      r' = { r.proceed with written := r.written.push (List.replicate count.toNat b) }) ∨
      ∃ e, r' = r.halt e := by
  by_cases hfits : FitsWord count
  · by_cases hlarge : (io.host.memory : Int) < count
    · exact Or.inr ⟨_, h.roomless hfits hlarge⟩
    · cases hio : io.write r.written.size with
      | none => exact Or.inl ⟨rfl, h.succeeds hfits.1 (by omega) hio⟩
      | some f => exact Or.inr ⟨_, h.fails hfits.1 (by omega) f hio⟩
  · exact Or.inr ⟨_, h.wordless hfits⟩

/-- A round appends what it delivers to what has been written. -/
theorem Round.written (h : r.Round p io r') :
    r'.written.toList = r.written.toList ++ (r.delivery p r').toList := by
  cases h with
  | writes count hbegins h =>
    rcases h.cases with ⟨-, b, hb, hr'⟩ | ⟨e, rfl⟩
    · have hending : r'.ending = none := by
        rw [hr']
        exact hbegins.ending
      rw [delivery_of_write hending hbegins.get hb, hr']
      exact Array.toList_push
    · rw [delivery_of_ended (Option.some_ne_none e), Option.toList_none, List.append_nil]
      rfl
  | reads count hbegins h =>
    have hne (n : Int) : p.get? r.machine.ip ≠ some (.op (.command .write) n) := by
      rw [hbegins.get]
      exact nofun
    rw [delivery_of_ne hne, Option.toList_none, List.append_nil]
    cases h <;> rfl
  | quiet hending hwrite hread hnext h =>
    have hnone : r.delivery p r' = none := by
      by_cases hgoesOn : r'.ending = none
      · obtain ⟨x, hx⟩ := hnext hgoesOn
        apply delivery_of_ne
        intro count hget
        obtain rfl := Option.some.inj (hx.get.symm.trans hget)
        exact hwrite count hx
      · exact delivery_of_ended hgoesOn
    rw [hnone, h.written, Option.toList_none, List.append_nil]
  | ended hending => rw [delivery_of_ended hending, Option.toList_none, List.append_nil]

/-- The calls of a run so far: none of the writes has failed, and each read has delivered a
byte unless it has ended the run. -/
structure Served (io : Streams) (r : Run) : Prop where
  writes : ∀ k < r.written.size, io.write k = none
  reads : ∀ k < r.reads, r.ending = none ∨ k + 1 < r.reads → ∃ b, (io.read k).byte = .ok b

theorem Round.served (h : r.Round p io r') (hr : r.Served io) : r'.Served io := by
  cases h with
  | writes count hbegins h =>
    have hreads (k : Nat) (hk : k < r.reads) : ∃ b, (io.read k).byte = .ok b :=
      hr.reads k hk (Or.inl hbegins.ending)
    rcases h.cases with ⟨hio, b, -, rfl⟩ | ⟨e, rfl⟩
    · refine ⟨?_, fun k hk _ => hreads k hk⟩
      intro k hk
      rw [Array.size_push] at hk
      rcases Nat.lt_succ_iff_lt_or_eq.1 hk with hbefore | rfl
      · exact hr.writes k hbefore
      · exact hio
    · exact ⟨hr.writes, fun k hk _ => hreads k hk⟩
  | reads count hbegins h =>
    have hreads (k : Nat) (hk : k < r.reads) : ∃ b, (io.read k).byte = .ok b :=
      hr.reads k hk (Or.inl hbegins.ending)
    have hserved {bytes : List UInt8} (hbytes : io.Delivers r.reads bytes) (k : Nat)
        (hk : k < r.reads + bytes.length) : ∃ b, (io.read k).byte = .ok b := by
      by_cases hbefore : k < r.reads
      · exact hreads k hbefore
      · exact hbytes.exists_byte (by omega) hk
    cases h with
    | all bytes tape hcount hbytes htape => exact ⟨hr.writes, fun k hk _ => hserved hbytes k hk⟩
    | upTo bytes tape problem hcount hbytes hproblem htape =>
      refine ⟨hr.writes, ?_⟩
      intro k _ hlast
      exact hserved hbytes k (Nat.lt_of_add_lt_add_right (hlast.resolve_left nofun))
  | quiet hending hwrite hread hnext h =>
    refine ⟨h.written ▸ hr.writes, ?_⟩
    intro k hk _
    exact hr.reads k (h.reads ▸ hk) (Or.inl hending)
  | ended hending => exact hr

end Run

namespace Machine

variable {m : Machine} {p : Program} {io : Streams}

theorem written_run (m : Machine) (p : Program) (io : Streams) (n : Nat) :
    (m.run p io n).written.toList = m.deliveries p io n := by
  induction n with
  | zero => rfl
  | succ n ih =>
    rw [(m.run_round p io n).written, ih, deliveries, deliveries, List.range_succ,
      List.filterMap_append]
    rfl

theorem served_run (m : Machine) (p : Program) (io : Streams) (n : Nat) :
    (m.run p io n).Served io := by
  induction n with
  | zero => exact ⟨nofun, nofun⟩
  | succ n ih => exact (m.run_round p io n).served ih

/-- A run that has ended did so in one of its rounds. -/
theorem exists_last_round {n : Nat} (h : (m.run p io n).ending ≠ none) :
    ∃ k < n, (m.run p io k).ending = none ∧ (m.run p io k).Round p io (m.run p io n) := by
  induction n with
  | zero => exact absurd rfl h
  | succ n ih =>
    by_cases hending : (m.run p io n).ending = none
    · exact ⟨n, Nat.lt_succ_self n, hending, m.run_round p io n⟩
    · obtain ⟨k, hk, hnone, hround⟩ := ih hending
      rw [run_of_ended hending 1]
      exact ⟨k, Nat.lt_succ_of_lt hk, hnone, hround⟩

end Machine

/-! ## The result -/

/-- A run keeps everything that it transfers, up to the first call that fails.  The output
holds what its rounds have delivered, one call for each output instruction, and the input
has delivered a byte in each read but perhaps the last.  What one round does is `Run.Round`;
a call that fails, in a write or in any read of an input instruction, ends the run on that
instruction, with nothing changed but by the reads before it.  A run that has ended stays
as that round has left it, and makes no more calls. -/
theorem transfers_until_failure (m : Machine) (p : Program) (io : Streams) (n : Nat) :
    let r := m.run p io n
    r.written.toList = m.deliveries p io n ∧ r.Served io ∧ r.Round p io (m.run p io (n + 1)) ∧
    (r.ending ≠ none →
      (∃ k < n, (m.run p io k).ending = none ∧ (m.run p io k).Round p io r) ∧
      ∀ k, m.run p io (n + k) = r) := by
  intro r
  refine ⟨m.written_run p io n, m.served_run p io n, m.run_round p io n, ?_⟩
  intro hending
  exact ⟨Machine.exists_last_round hending, fun k => Machine.run_of_ended hending k⟩

/-- The third read of an instruction fails.  The byte of the second one, a character
modulo 256, remains in the cell. -/
theorem transfers_until_failure_of_third_read :
    let m : Machine := { tape := .blank 1 (by decide) }
    let p : Program := ⟨#[.op (.command .increment) 1, .op (.command .write) 2,
      .op (.command .read) 4]⟩
    let io := Streams.ofLists #[.bytes [65, 0], .text ['ł'], .fails ⟨.timeout, "late"⟩] #[]
    let r := m.run p io 3
    (r.ending = some (.failed ⟨.readFailed ⟨.timeout, "late"⟩, 2, 0⟩) ∧ r.reads = 3 ∧
      r.written = #[[1, 1]] ∧ r.machine.tape.cells = #[66]) ∧
    r.written.toList = m.deliveries p io 3 ∧ r.ending ≠ none ∧
      (∃ k < 3, (m.run p io k).ending = none ∧ (m.run p io k).Round p io r) ∧
      ∀ k, m.run p io (3 + k) = r := by
  intro m p io r
  have hending : r.ending = some (.failed ⟨.readFailed ⟨.timeout, "late"⟩, 2, 0⟩) := by
    decide +kernel
  have hended : r.ending ≠ none := by
    rw [hending]
    exact Option.some_ne_none _
  obtain ⟨hwritten, -, -, hfinal⟩ := transfers_until_failure m p io 3
  exact ⟨⟨hending, by decide +kernel, by decide +kernel, by decide +kernel⟩, hwritten, hended,
    hfinal hended⟩

/-- An output instruction whose count fits into no word makes no call, not even one without
bytes, though the output would take it. -/
theorem no_write_of_wordless_count :
    let m : Machine := { tape := .blank 1 (by decide) }
    let count : Int := -0x8000000000000001
    let p : Program := ⟨#[.op (.command .write) count]⟩
    let io := Streams.ofLists #[] #[]
    let r := m.run p io 2
    r.machine.steps = 1 ∧ io.write 0 = none ∧ r.ending = some (.broken (.capacity .word)) ∧
      r.written.toList ≠ [List.replicate (max count 0).toNat 0] := by
  decide +kernel

end Brainfuck
