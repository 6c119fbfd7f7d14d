import Brainfuck.Proofs.Progress
import Brainfuck.Proofs.Structured

/-!
# Larger tapes

A run that stays on its tape does not notice whether there are more cells behind
the last one.  So on a larger tape it goes the same way and leaves the same cells,
with zeros behind them.  What is in front of the first cell does not change: a run
that would leave the tape there does so on the larger tape too.

* `Tape.EnlargedBy` says that a tape is another one with zeros behind it, and
  `Step.EnlargedBy` that a step is another one on such a tape.  `Ending.enlarge` says what
  that makes of an ending, which changes only in the size that a report on leaving the
  tape tells.
* `Ending.PastEnd` is the one thing that the two runs need not share: a move behind
  the last cell.
* `State.execute_enlarged` carries enlargement over an instruction, from a lemma for
  each thing that an instruction may do; `State.step_enlarged` is a step and
  `State.run_enlarged` a whole run.
* `RunsAlikeOnMore` is what there is to be said of two numbers of cells.  A tape that
  memory does not hold is refused before there is a run.
-/

namespace Brainfuck

/-! ## Tapes -/

/-- The tape `t'` is `t` with more cells behind the last one.  They are zero. -/
structure Tape.EnlargedBy (t : Tape) (more : Nat) (t' : Tape) : Prop where
  cells : t'.cells = t.cells ++ Array.replicate more 0
  cursor : t'.cursor = t.cursor

namespace Tape

theorem enlargedBy_blank {size more : Nat} (h : 0 < size) (hlt : (size : Int) < wordBound)
    (h' : 0 < size + more) (hlt' : ((size + more : Nat) : Int) < wordBound) :
    (blank size h hlt).EnlargedBy more (blank (size + more) h' hlt') :=
  ⟨by simp [blank], show (0 : Int) = 0 from rfl⟩

/-- A move to the left of the first cell is refused on every tape. -/
theorem move?_of_neg {t : Tape} {delta : Int} (h : t.cursor + delta < 0) :
    t.move? delta = none := by
  rw [move?, if_neg (by omega)]

/-- A move to a place that cannot be written is refused on every tape. -/
theorem move?_of_not_fitsNumeral {t : Tape} {delta : Int} (h : ¬FitsNumeral (t.cursor + delta)) :
    t.move? delta = none := by
  have hsize : (t.size : Int) < wordBound := t.cells_lt
  have hfar : ¬(t.cursor + delta).natAbs < 10 ^ 20 := mt fitsNumeral_of_lt h
  unfold wordBound at hsize
  rw [move?, if_neg (by omega)]

namespace EnlargedBy

variable {t t' u : Tape} {more : Nat} (h : t.EnlargedBy more t')

include h

theorem size_eq : t'.size = t.size + more := by
  rw [size, h.cells]
  simp [size]

theorem within (ht : t.Within) : t'.Within := by
  have hnonneg := ht.nonneg
  have hlt := ht.lt
  have hsize := h.size_eq
  have hcursor := h.cursor
  exact ⟨by omega, by omega⟩

theorem index? (ht : t.Within) : t'.index? = some t.cursor.toNat := by
  rw [(h.within ht).index?, h.cursor]

theorem current? (ht : t.Within) : t'.current? = t.current? := by
  rw [Tape.current?, Tape.current?, h.index? ht, ht.index?, h.cells]
  exact Array.getElem?_append_left ht.toNat_lt

theorem put (ht : t.Within) (b : UInt8) : (t.put b).EnlargedBy more (t'.put b) := by
  refine ⟨?_, ?_⟩
  · rw [Tape.put, Tape.put, h.index? ht, ht.index?]
    simp only [h.cells]
    exact Array.setIfInBounds_append_left ht.toNat_lt
  · rw [cursor_put, cursor_put, h.cursor]

theorem move? {delta : Int} (hmove : t.move? delta = some u) :
    ∃ u', t'.move? delta = some u' ∧ u.EnlargedBy more u' := by
  unfold Tape.move? at hmove ⊢
  split at hmove
  · cases hmove
    rename_i hon
    have hsize := h.size_eq
    have hcursor := h.cursor
    rw [if_pos (by omega)]
    exact ⟨_, rfl, h.cells, by rw [hcursor]⟩
  · cases hmove

end EnlargedBy

end Tape

/-! ## Steps and endings -/

/-- The ending on a larger tape.  A report on leaving the tape tells its size. -/
def Ending.enlarge (more : Nat) : Ending → Ending
  | .failed ⟨.leftTape target size, ip, cursor⟩ =>
    .failed ⟨.leftTape target (size + more), ip, cursor⟩
  | e => e

/-- The second step is the first one on a tape with more cells. -/
inductive Step.EnlargedBy (more : Nat) : Step → Step → Prop
  | next (s : State) {t : Tape} (h : s.tape.EnlargedBy more t) :
      Step.EnlargedBy more (.next s) (.next { s with tape := t })
  | stop (s : State) (e : Ending) {t : Tape} (h : s.tape.EnlargedBy more t) :
      Step.EnlargedBy more (.stop s e) (.stop { s with tape := t } (e.enlarge more))

/-- The cursor would have left the tape behind its last cell. -/
def Ending.PastEnd : Ending → Prop
  | .failed ⟨.leftTape target _, _, _⟩ => 0 ≤ target
  | _ => False

/-- The step stops because the cursor would leave the tape behind its last cell. -/
def Step.PastEnd : Step → Prop
  | .next _ => False
  | .stop _ e => e.PastEnd

namespace State

variable {p : Program} {io : Streams} {limit : Option Int} {s : State} {t : Tape} {more : Nat}

/-! ## Instructions -/

/-- Only a report on leaving the tape tells its size.  Every other one is the same. -/
theorem fail_enlarged (h : s.tape.EnlargedBy more t) {cause : Failure.Cause}
    (hcause : ∀ target size, cause ≠ .leftTape target size) :
    (s.fail cause).EnlargedBy more (fail { s with tape := t } cause) := by
  have hsame : Ending.enlarge more (.failed ⟨cause, s.ip, s.tape.cursor⟩) =
      .failed ⟨cause, s.ip, s.tape.cursor⟩ := by
    cases cause with
    | leftTape target size => exact absurd rfl (hcause target size)
    | _ => rfl
  unfold fail Failure.ending
  rw [h.cursor]
  split
  · have hstop := Step.EnlargedBy.stop s (.failed ⟨cause, s.ip, s.tape.cursor⟩) h
    rwa [hsame] at hstop
  · exact .stop s (.broken (.capacity .numeral)) h

/-- A move that is refused is refused on the larger tape, if the smaller one would not have
been left behind its last cell. -/
theorem fail_leftTape_enlarged (h : s.tape.EnlargedBy more t) {target : Int}
    (hend : ¬(s.fail (.leftTape target s.tape.size)).PastEnd) :
    (s.fail (.leftTape target s.tape.size)).EnlargedBy more
        (fail { s with tape := t } (.leftTape target t.size)) ∧
      (target < 0 ∨ ¬FitsNumeral target) := by
  unfold fail Failure.ending at hend ⊢
  by_cases htext : FitsNumeral target
  · have hreport (size : Nat) : (Failure.Cause.leftTape target size).HasText := htext
    simp only [if_pos (hreport _)] at hend ⊢
    rw [h.size_eq, h.cursor]
    exact ⟨.stop s (.failed ⟨.leftTape target s.tape.size, s.ip, s.tape.cursor⟩) h,
      Or.inl (Int.not_le.1 hend)⟩
  · have hreport (size : Nat) : ¬(Failure.Cause.leftTape target size).HasText := htext
    simp only [if_neg (hreport _)]
    exact ⟨.stop s (.broken (.capacity .numeral)) h, Or.inr htext⟩

theorem move_enlarged (h : s.tape.EnlargedBy more t) {delta : Int}
    (hend : ¬(s.move delta).PastEnd) :
    (s.move delta).EnlargedBy more (move { s with tape := t } delta) := by
  unfold move at hend ⊢
  cases htape : s.tape.move? delta with
  | some u =>
    obtain ⟨u', hu', henlarged⟩ := h.move? htape
    rw [hu']
    exact .next { s with tape := u, ip := s.ip + 1 } henlarged
  | none =>
    rw [htape] at hend
    obtain ⟨hfail, hfar⟩ := fail_leftTape_enlarged h hend
    rw [← h.cursor] at hfail hfar
    have hlarge : t.move? delta = none :=
      hfar.elim Tape.move?_of_neg Tape.move?_of_not_fitsNumeral
    rw [hlarge, ← h.cursor]
    exact hfail

section Within

variable (h : s.tape.EnlargedBy more t) (hs : s.tape.Within)

include h hs

theorem add_enlarged (n : Int) : (s.add n).EnlargedBy more (add { s with tape := t } n) := by
  obtain ⟨b, hb⟩ := hs.exists_current
  unfold add
  rw [h.current? hs, hb]
  exact .next { s with tape := s.tape.put (Tape.sum b n), ip := s.ip + 1 } (h.put hs _)

theorem write_enlarged (io : Streams) (count : Int) :
    (s.write io count).EnlargedBy more (write { s with tape := t } io count) := by
  obtain ⟨b, hb⟩ := hs.exists_current
  unfold write
  rw [h.current? hs, hb]
  simp only
  cases copies io.host count b with
  | error e => exact .stop s (.broken (.capacity e)) h
  | ok bytes =>
    cases io.write s.written.size with
    | none => exact .next { s with written := s.written.push bytes, ip := s.ip + 1 } h
    | some f =>
      simp only
      split
      · exact fail_enlarged h (by simp)
      · exact .stop s (.broken (.fault f)) h

theorem branch_enlarged (test : UInt8 → Bool) (target? : Option Int) :
    (s.branch test target?).EnlargedBy more (branch { s with tape := t } test target?) := by
  obtain ⟨b, hb⟩ := hs.exists_current
  unfold branch
  rw [h.current? hs, hb]
  simp only
  split
  · cases target? with
    | some target => exact .next { s with ip := target + 1 } h
    | none => exact .stop s (.broken .noTarget) h
  · exact .next { s with ip := s.ip + 1 } h

end Within

theorem refuse_enlarged (h : s.tape.EnlargedBy more t) (problem : Reading.Problem) :
    (s.refuse problem).EnlargedBy more (refuse { s with tape := t } problem) := by
  cases problem with
  | exhausted => exact fail_enlarged h (by simp)
  | longText length => exact .stop s (.broken (.longText length)) h
  | fault f =>
    rw [refuse, refuse]
    split
    · exact fail_enlarged h (by simp)
    · exact .stop s (.broken (.fault f)) h

/-- Reads in a row.  The induction is on how many are left; each byte that is stored
keeps the cursor where it is, so the next read finds a cell too. -/
theorem read_enlarged (h : s.tape.EnlargedBy more t) (hs : s.tape.Within) (io : Streams)
    (count : Nat) : (read io count s).EnlargedBy more (read io count { s with tape := t }) := by
  induction count generalizing s t with
  | zero => exact .next { s with ip := s.ip + 1 } h
  | succ count ih =>
    rw [read, read]
    cases (io.read s.reads).byte with
    | error problem => exact refuse_enlarged (s := { s with reads := s.reads + 1 }) h problem
    | ok b =>
      obtain ⟨c, hc⟩ := hs.exists_current
      simp only [h.current? hs, hc]
      exact ih (s := { s with tape := s.tape.put b, reads := s.reads + 1 }) (h.put hs b) (hs.put b)

theorem perform_enlarged (h : s.tape.EnlargedBy more t) (hs : s.tape.Within) {count : Int}
    {c : Command} (hend : ¬(s.perform io count c).PastEnd) :
    (s.perform io count c).EnlargedBy more (perform { s with tape := t } io count c) := by
  cases c with
  | right => exact move_enlarged h hend
  | left => exact move_enlarged h hend
  | increment => exact add_enlarged h hs count
  | decrement => exact add_enlarged h hs (-count)
  | write => exact write_enlarged h hs io count
  | read => exact read_enlarged h hs io count.toNat

theorem execute_enlarged (h : s.tape.EnlargedBy more t) (hs : s.tape.Within) {x : Instruction}
    (hend : ¬(s.execute io x).PastEnd) :
    (s.execute io x).EnlargedBy more (execute { s with tape := t } io x) := by
  unfold execute at hend ⊢
  cases hkind : x.kind with
  | command c =>
    rw [hkind] at hend
    cases hcount : x.count? with
    | some count =>
      rw [hcount] at hend
      exact perform_enlarged h hs hend
    | none => exact .stop s (.broken .noCount) h
  | loopOpen => exact branch_enlarged h hs _ _
  | loopClose => exact branch_enlarged h hs _ _
  | endOfText => exact .next { s with ip := s.ip + 1 } h

/-! ## Runs -/

theorem step_enlarged (h : s.tape.EnlargedBy more t) (hs : s.tape.Within)
    (hend : ¬(s.step p io limit).PastEnd) :
    (s.step p io limit).EnlargedBy more (step { s with tape := t } p io limit) := by
  unfold step at hend ⊢
  split
  · exact .stop s .finished h
  · rename_i hinside
    rw [if_neg hinside] at hend
    cases hlimit : limit.filter fun k => k ≤ (s.steps : Int) with
    | some k => exact fail_enlarged h (by simp)
    | none =>
      rw [hlimit] at hend
      cases hget : p.get? s.ip with
      | none => exact .stop { s with steps := s.steps + 1 } (.broken (.noInstruction s.ip)) h
      | some x =>
        simp only [hget] at hend
        exact execute_enlarged (s := { s with steps := s.steps + 1 }) h hs hend

/-- A run goes the same way on a larger tape, unless it would leave the smaller one
behind its last cell. -/
theorem run_enlarged (h : s.tape.EnlargedBy more t) (hs : s.tape.Within) (rounds : Nat)
    (hend : ∀ e, (run p io limit rounds s).2 = some e → ¬e.PastEnd) :
    ∃ t', (run p io limit rounds s).1.tape.EnlargedBy more t' ∧
      run p io limit rounds { s with tape := t } =
        ({ (run p io limit rounds s).1 with tape := t' },
          (run p io limit rounds s).2.map (Ending.enlarge more)) := by
  induction rounds generalizing s t with
  | zero => exact ⟨t, h, rfl⟩
  | succ rounds ih =>
    cases hstep : s.step p io limit with
    | stop s₁ e =>
      rw [run_of_stop hstep] at hend ⊢
      have hinside : ¬(s.step p io limit).PastEnd := by
        rw [hstep]
        exact hend e rfl
      have hlarge := step_enlarged h hs hinside
      rw [hstep] at hlarge
      rcases hlarge' : step { s with tape := t } p io limit with _ | _
      all_goals rw [hlarge'] at hlarge
      · cases hlarge
      · cases hlarge with
        | stop _ _ h₁ => exact ⟨_, h₁, run_of_stop hlarge' rounds⟩
    | next s₁ =>
      rw [run_of_next hstep] at hend ⊢
      have hinside : ¬(s.step p io limit).PastEnd := by
        rw [hstep]
        exact id
      have hlarge := step_enlarged h hs hinside
      rw [hstep] at hlarge
      rcases hlarge' : step { s with tape := t } p io limit with _ | _
      all_goals rw [hlarge'] at hlarge
      · cases hlarge with
        | next _ h₁ =>
          rw [run_of_next hlarge']
          exact ih h₁ (within_of_next hstep hs) hend
      · cases hlarge

end State

/-! ## Machines -/

/-- The run `r'` has done the same as `r`, with more cells behind those of `r`.  They
are zero.  Nothing is said of how the runs end. -/
structure Run.Enlarged (r : Run) (more : Nat) (r' : Run) : Prop where
  written : r'.written = r.written
  reads : r'.reads = r.reads
  steps : r'.machine.steps = r.machine.steps
  ip : r'.machine.ip = r.machine.ip
  cursor : r'.machine.tape.cursor = r.machine.tape.cursor
  cells : r'.machine.tape.cells = r.machine.tape.cells ++ Array.replicate more 0

namespace Machine

variable {m m' : Machine} {p : Program} {io : Streams}

theorem start_blank {size : Nat} (h : 0 < size) (hlt : (size : Int) < wordBound)
    (limit : Option Int) :
    ({ tape := .blank size h hlt, limit } : Machine).start = { tape := .blank size h hlt } := by
  simp [start, Tape.reset, Tape.size, Tape.blank]

theorem run_enlarged {more : Nat} {t : Tape} (hstart : m'.start = { m.start with tape := t })
    (h : m.start.tape.EnlargedBy more t) (hlimit : m'.limit = m.limit) (rounds : Nat)
    (hend : ∀ e, (m.run p io rounds).ending = some e → ¬e.PastEnd) :
    (m'.run p io rounds).ending = (m.run p io rounds).ending.map (Ending.enlarge more) ∧
      (m.run p io rounds).Enlarged more (m'.run p io rounds) := by
  obtain ⟨t', ht', hrun⟩ := State.run_enlarged h (.reset m.tape) rounds hend
  rw [← hstart, ← hlimit] at hrun
  rw [run_of_state hrun, hlimit]
  exact ⟨rfl, rfl, rfl, rfl, rfl, ht'.cursor, ht'.cells⟩

end Machine

/-! ## The result -/

/-- On `m` cells every program runs as it does on `n` cells.  If it does not leave the
tape there, it ends in the same way, if at all, and leaves the same cells and zeros
behind them.  If it leaves the tape in front of the first cell, it does so on both. -/
def RunsAlikeOnMore (host : Host) (n m : Nat) : Prop :=
  ∀ (p : Program) (io : Streams) (limit : Option Int), ∃ small large : Machine,
    Machine.ofSize n limit host = .ok small ∧ Machine.ofSize m limit host = .ok large ∧
    ∀ rounds,
      ((small.run p io rounds).ending.bind Ending.kind? ≠ some .tapeBounds →
        (large.run p io rounds).ending = (small.run p io rounds).ending ∧
        (small.run p io rounds).Enlarged (m - n) (large.run p io rounds)) ∧
      ∀ target size ip cursor, target < 0 →
        (small.run p io rounds).ending = some (.failed ⟨.leftTape target size, ip, cursor⟩) →
        (large.run p io rounds).ending =
          some (.failed ⟨.leftTape target (size + (m - n)), ip, cursor⟩) ∧
        (small.run p io rounds).Enlarged (m - n) (large.run p io rounds)

/-- An ending of another class is the same on a larger tape. -/
theorem Ending.enlarge_of_kind {e : Ending} (h : e.kind? ≠ some .tapeBounds) (more : Nat) :
    e.enlarge more = e ∧ ¬ e.PastEnd := by
  cases e with
  | finished => exact ⟨rfl, id⟩
  | broken d => exact ⟨rfl, id⟩
  | failed e =>
    obtain ⟨cause, ip, cursor⟩ := e
    cases cause with
    | leftTape target size => exact absurd rfl h
    | _ => exact ⟨rfl, id⟩

/-- A larger tape changes nothing that a smaller one allowed, as far as the memory of the
host holds it.  A size that memory does not hold is refused, and so is on every host a size
that no word holds. -/
theorem runsAlikeOnMore_of_le {n m : Nat} (hn : 0 < n) (hnm : n ≤ m) (host : Host) :
    (m ≤ host.memory → RunsAlikeOnMore host n m) ∧
    (host.memory < m → (m : Int) < wordBound →
      ∀ limit, Machine.ofSize m limit host = .error (.capacity .memory)) ∧
    (wordBound ≤ (m : Int) → ∀ limit, Machine.ofSize m limit host = .error (.tooLarge m)) := by
  obtain ⟨more, rfl⟩ := Nat.exists_eq_add_of_le hnm
  rw [RunsAlikeOnMore, Nat.add_sub_cancel_left]
  refine ⟨?_, ?_, ?_⟩
  · intro hroom p io limit
    have hroom' : n ≤ host.memory := Nat.le_trans hnm hroom
    have hpos : 0 < n + more := Nat.add_pos_left hn more
    have hword : ((n + more : Nat) : Int) < wordBound :=
      Int.lt_of_le_of_lt (Int.ofNat_le.2 hroom) host.memory_lt
    have hword' : (n : Int) < wordBound :=
      Int.lt_of_le_of_lt (Int.ofNat_le.2 hroom') host.memory_lt
    let small : Machine := { tape := .blank n hn hword', limit }
    let large : Machine := { tape := .blank (n + more) hpos hword, limit }
    have hstart : large.start = { small.start with tape := .blank (n + more) hpos hword } := by
      rw [Machine.start_blank, Machine.start_blank]
    have htape : small.start.tape.EnlargedBy more (.blank (n + more) hpos hword) := by
      rw [Machine.start_blank]
      exact Tape.enlargedBy_blank hn hword' hpos hword
    refine ⟨small, large, Machine.ofSize_natCast hn hroom' limit,
      Machine.ofSize_natCast hpos hroom limit, ?_⟩
    intro rounds
    constructor
    · intro hkind
      have hclass (e : Ending) (he : (small.run p io rounds).ending = some e) :
          e.enlarge more = e ∧ ¬ e.PastEnd := by
        apply Ending.enlarge_of_kind
        rwa [he] at hkind
      obtain ⟨hending, henlarged⟩ :=
        Machine.run_enlarged hstart htape rfl rounds fun e he => (hclass e he).2
      refine ⟨?_, henlarged⟩
      rw [hending]
      cases he : (small.run p io rounds).ending with
      | none => rfl
      | some e => exact congrArg some (hclass e he).1
    · intro target size ip cursor hneg hleft
      have hinside (e : Ending) (he : (small.run p io rounds).ending = some e) : ¬ e.PastEnd := by
        rw [hleft] at he
        cases he
        exact Int.not_le.2 hneg
      obtain ⟨hending, henlarged⟩ := Machine.run_enlarged hstart htape rfl rounds hinside
      refine ⟨?_, henlarged⟩
      rw [hending, hleft]
      rfl
  · intro hroom hword limit
    exact Machine.ofSize_of_roomless (Int.ofNat_lt.2 hroom) hword limit
  · intro hword limit
    exact Machine.ofSize_of_tooLarge hword limit host

/-- Three cells do what one cell does.  More cells than memory holds cannot be had, and no
more can so many that no word counts them. -/
theorem runsAlikeOnMore_of_le_three :
    let host := Host.standard
    (0 < 1 ∧ 1 ≤ 3 ∧ 3 ≤ host.memory ∧ RunsAlikeOnMore host 1 3) ∧
    (1 ≤ 0x800000000000 ∧ host.memory < 0x800000000000 ∧
      ((0x800000000000 : Nat) : Int) < wordBound ∧
      Machine.ofSize (0x800000000000 : Nat) none host = .error (.capacity .memory)) ∧
    1 ≤ 0x8000000000000000 ∧ wordBound ≤ ((0x8000000000000000 : Nat) : Int) ∧
      Machine.ofSize (0x8000000000000000 : Nat) none host =
        .error (.tooLarge (0x8000000000000000 : Nat)) := by
  intro host
  have hroom : 3 ≤ host.memory := by decide
  have hmore : 1 ≤ 0x800000000000 := by decide
  have hlarger : host.memory < 0x800000000000 := by decide
  have hword : ((0x800000000000 : Nat) : Int) < wordBound := by decide
  have hmost : 1 ≤ 0x8000000000000000 := by decide
  have hlargest : wordBound ≤ ((0x8000000000000000 : Nat) : Int) := by decide
  exact ⟨⟨by decide, by decide, hroom,
      (runsAlikeOnMore_of_le (by decide) (by decide) host).1 hroom⟩,
    ⟨hmore, hlarger, hword, (runsAlikeOnMore_of_le (by decide) hmore host).2.1 hlarger hword none⟩,
    hmost, hlargest, (runsAlikeOnMore_of_le (by decide) hmost host).2.2 hlargest none⟩

/-- On one cell the empty program comes to its end, but there are no tapes of any size,
whatever the host. -/
theorem not_runsAlikeOnMore_of_tooLarge :
    1 ≤ 1 ∧ 1 ≤ 0x8000000000000000 ∧ ∀ host, ¬ RunsAlikeOnMore host 1 0x8000000000000000 := by
  refine ⟨by decide, by decide, ?_⟩
  intro host h
  obtain ⟨small, large, -, hlarge, -⟩ := h ⟨#[]⟩ (.ofLists #[] #[]) none
  have hword : wordBound ≤ ((0x8000000000000000 : Nat) : Int) := by decide
  rw [Machine.ofSize_of_tooLarge hword none host] at hlarge
  cases hlarge

end Brainfuck
