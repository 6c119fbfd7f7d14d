import Brainfuck.Proofs.Evaluation
import Brainfuck.Run.Machine

/-!
# A command many times over

A counted command does at once what an evaluation does one command at a time.
This module ties the two together, for every command and every count.

* `Memory.performs_right` and the lemmas behind it say where a row of equal
  commands leads.  Adding one many times over is adding a sum (`Tape.sum_add`).
* `Tape.Shows` says that a tape holds the cells of a memory.
* `Matches` says that a state and a memory agree, and `Halts` that a run has
  ended in the way in which an evaluation has.  Only where the cursor would leave
  the tape may they differ: the evaluation has moved it up to the edge, while the
  counted command has not moved it at all.
* `Matches.follows` is the result.
-/

namespace Brainfuck

/-! ## Adding bytes -/

namespace Tape

theorem sum_eq_iff {b c : UInt8} {n : Int} : sum b n = c ↔ (b.toNat + n) % 256 = c.toNat := by
  rw [← UInt8.toNat_inj, ← Int.natCast_inj, toNat_sum]

@[simp] theorem sum_zero (b : UInt8) : sum b 0 = b := by
  have hlt := b.toNat_lt
  rw [sum_eq_iff]
  omega

theorem sum_add (b : UInt8) (i j : Int) : sum b (i + j) = sum (sum b i) j := by
  rw [sum_eq_iff, toNat_sum, toNat_sum]
  omega

theorem sum_one (b : UInt8) : sum b 1 = b + 1 := by
  rw [sum_eq_iff, UInt8.toNat_add, show (1 : UInt8).toNat = 1 from rfl]
  omega

theorem sum_neg_one (b : UInt8) : sum b (-1) = b - 1 := by
  rw [sum_eq_iff, UInt8.toNat_sub, show (1 : UInt8).toNat = 1 from rfl]
  omega

end Tape

/-! ## Rows of equal commands -/

namespace Memory

variable {size : Nat} {I : Type} {feed : Feed I}

theorem performs_right {n : Nat} {m : Memory size I} (h : m.cursor + n < size) :
    performs feed .right n m = ({ m with cursor := ⟨m.cursor + n, h⟩ }, none) := by
  induction n generalizing m with
  | zero => rfl
  | succ n ih =>
    have hone : m.cursor + 1 < size := by omega
    unfold performs perform
    rw [dif_pos hone]
    simp only
    rw [ih (by simp only; omega)]
    simp only [Nat.add_assoc, Nat.add_comm 1 n]

theorem performs_right_of_le (feed : Feed I) {n : Nat} {m : Memory size I}
    (h : size ≤ m.cursor + n) :
    ∃ c, performs feed .right n m = ({ m with cursor := c }, some .leftTape) ∧
      (n = 1 → c = m.cursor) := by
  induction n generalizing m with
  | zero =>
    have hlt := m.cursor.isLt
    omega
  | succ n ih =>
    unfold performs perform
    by_cases hone : m.cursor + 1 < size
    · rw [dif_pos hone]
      obtain ⟨c, hc, -⟩ := ih (m := { m with cursor := ⟨m.cursor + 1, hone⟩ })
        (by simp only; omega)
      refine ⟨c, hc, ?_⟩
      intro hn
      omega
    · rw [dif_neg hone]
      exact ⟨m.cursor, rfl, fun _ => rfl⟩

theorem performs_left {n : Nat} {m : Memory size I} (h : n ≤ m.cursor) :
    performs feed .left n m = ({ m with cursor := ⟨m.cursor - n, by omega⟩ }, none) := by
  induction n generalizing m with
  | zero => rfl
  | succ n ih =>
    unfold performs perform
    rw [if_pos (by omega)]
    simp only
    rw [ih (by simp only; omega)]
    simp only [Nat.sub_sub, Nat.add_comm 1 n]

theorem performs_left_of_lt (feed : Feed I) {n : Nat} {m : Memory size I}
    (h : m.cursor < n) :
    ∃ c, performs feed .left n m = ({ m with cursor := c }, some .leftTape) ∧
      (n = 1 → c = m.cursor) := by
  induction n generalizing m with
  | zero => omega
  | succ n ih =>
    unfold performs perform
    by_cases hone : 0 < m.cursor.val
    · rw [if_pos hone]
      obtain ⟨c, hc, -⟩ := ih (m := { m with cursor := ⟨m.cursor - 1, by omega⟩ })
        (by simp only; omega)
      refine ⟨c, hc, ?_⟩
      intro hn
      omega
    · rw [if_neg hone]
      exact ⟨m.cursor, rfl, fun _ => rfl⟩

theorem performs_increment (n : Nat) (m : Memory size I) :
    performs feed .increment n m = (m.put (Tape.sum m.current n), none) := by
  induction n generalizing m with
  | zero => simp [performs]
  | succ n ih =>
    unfold performs perform
    simp only
    rw [ih, current_put, put_put, ← Tape.sum_one, ← Tape.sum_add]
    rw [show (1 + n : Int) = (n + 1 : Nat) by omega]

theorem performs_decrement (n : Nat) (m : Memory size I) :
    performs feed .decrement n m = (m.put (Tape.sum m.current (-n)), none) := by
  induction n generalizing m with
  | zero => simp [performs]
  | succ n ih =>
    unfold performs perform
    simp only
    rw [ih, current_put, put_put, ← Tape.sum_neg_one, ← Tape.sum_add]
    rw [show -1 + -(n : Int) = -(n + 1 : Nat) by omega]

theorem performs_write (n : Nat) (m : Memory size I) :
    performs feed .write n m =
      ({ m with output := m.output ++ List.replicate n m.current }, none) := by
  induction n generalizing m with
  | zero => simp [performs]
  | succ n ih =>
    unfold performs perform
    simp only
    rw [ih, List.append_assoc, List.replicate_succ]
    rfl

end Memory

/-! ## Memories and tapes -/

/-- The tape holds these cells, with the cursor at this one. -/
structure Tape.Shows {size : Nat} (t : Tape) (cells : Vector UInt8 size) (cursor : Fin size) :
    Prop where
  cells : t.cells = cells.toArray
  cursor : t.cursor = cursor

namespace Tape.Shows

variable {size : Nat} {I : Type} {t : Tape} {m : Memory size I} (h : t.Shows m.cells m.cursor)

include h

theorem size_eq : t.size = size := by
  rw [Tape.size, h.cells, m.cells.size_toArray]

theorem index? : t.index? = some m.cursor.val := by
  have hlt := m.cursor.isLt
  unfold Tape.index?
  rw [h.size_eq, h.cursor, if_pos (by omega), if_pos (by omega), Int.toNat_natCast]

theorem current? : t.current? = some m.current := by
  unfold Tape.current?
  rw [h.index?, h.cells]
  simp [Memory.current]

theorem put (b : UInt8) : (t.put b).Shows (m.put b).cells (m.put b).cursor := by
  refine ⟨?_, ?_⟩
  · unfold Tape.put
    rw [h.index?]
    simp [h.cells, Memory.put, Array.setIfInBounds]
  · rw [cursor_put, h.cursor]
    rfl

theorem moveTo {target : Int} {c : Fin size} (hc : target = c) :
    ({ t with cursor := target } : Tape).Shows m.cells c :=
  ⟨h.cells, hc⟩

/-- The place that a move from here leads to can be written. -/
theorem fitsNumeral_target {delta : Int} (hdelta : (delta.natAbs : Int) < wordBound) :
    FitsNumeral (m.cursor + delta) := by
  have hcursor := h.cursor
  have hlt := m.cursor.isLt
  have hsize := h.size_eq
  rw [← hcursor]
  exact Tape.fitsNumeral_target (by omega) (by omega) hdelta

end Tape.Shows

/-! ## How an evaluation and a run end -/

/-- The class of the error that a run ends with. -/
inductive Ending.Kind where
  | tapeBounds
  | inputOutput
  | stepLimit
  | defect (d : Defect)
deriving DecidableEq, Repr

def Failure.Cause.kind : Failure.Cause → Ending.Kind
  | leftTape _ _ => .tapeBounds
  | readFailed _ | writeFailed _ | inputExhausted => .inputOutput
  | stepLimit _ => .stepLimit

/-- The class of the error, if the run ends with one. -/
def Ending.kind? : Ending → Option Ending.Kind
  | finished => none
  | failed e => some e.cause.kind
  | broken d => some (.defect d)

/-- The class of the error that trouble is reported as. -/
def Trouble.kind : Trouble → Ending.Kind
  | leftTape => .tapeBounds
  | noByte .exhausted => .inputOutput
  | noByte (.fault f) => if f.kind.isStreamTrouble then .inputOutput else .defect (.fault f)
  | noByte (.longText length) => .defect (.longText length)

/-! ## Agreement -/

section Agreement

variable {size : Nat} {I : Type} {io : Streams} {feed : Feed I} {unread : Nat → I}
  {m m' : Memory size I} {s s' : State}

/-- The streams read what the feed delivers, where `unread k` is what is left
after `k` reads, and take every write. -/
structure Serves (io : Streams) (feed : Feed I) (unread : Nat → I) : Prop where
  read : ∀ k, feed (unread k) = ((io.read k).byte, unread (k + 1))
  write : ∀ k, io.write k = none

/-- The state of a run agrees with the memory of an evaluation. -/
structure Matches (unread : Nat → I) (m : Memory size I) (s : State) : Prop where
  tape : s.tape.Shows m.cells m.cursor
  input : m.input = unread s.reads
  output : s.output = m.output

/-- A run has ended as an evaluation has.  Unless `single` holds, the cursor may
be elsewhere if it would have left the tape. -/
structure Halts (unread : Nat → I) (single : Prop) (m : Memory size I) (r : Option Trouble)
    (s : State) (e : Ending) : Prop where
  cells : s.tape.cells = m.cells.toArray
  cursor : single ∨ r ≠ some .leftTape → s.tape.cursor = m.cursor
  input : m.input = unread s.reads
  output : s.output = m.output
  kind : e.kind? = r.map Trouble.kind

theorem Halts.imp {single single' : Prop} {r : Option Trouble} {e : Ending}
    (h : Halts unread single m r s e) (himp : single' → single) : Halts unread single' m r s e :=
  ⟨h.cells, fun hcursor => h.cursor (hcursor.imp_left himp), h.input, h.output, h.kind⟩

theorem Matches.halts {r : Option Trouble} {e : Ending} (h : Matches unread m s) (single : Prop)
    (he : e.kind? = r.map Trouble.kind) : Halts unread single m r s e :=
  ⟨h.tape.cells, fun _ => h.tape.cursor, h.input, h.output, he⟩

/-- Nothing depends on where in the program the run is. -/
theorem Matches.moveTo (h : Matches unread m s) (ip : Int) (steps : Nat) :
    Matches unread m { s with ip, steps } :=
  ⟨h.tape, h.input, h.output⟩

/-- What a counted command at `ip` does is what came of its commands, one by one. -/
inductive Follows (unread : Nat → I) (single : Prop) (ip : Int) (steps : Nat) :
    Memory size I × Option Trouble → Step → Prop
  | next {m : Memory size I} {s' : State} : Matches unread m s' → s'.ip = ip + 1 →
      s'.steps = steps → Follows unread single ip steps (m, none) (.next s')
  | stop {m : Memory size I} {e : Trouble} {s' : State} {d : Ending} :
      Halts unread single m (some e) s' d → s'.steps = steps →
      Follows unread single ip steps (m, some e) (.stop s' d)

/-! ## Commands -/

theorem Matches.follows_put (h : Matches unread m s) (single : Prop) (b : UInt8) :
    Follows unread single s.ip s.steps (m.put b, none)
      (.next { s with tape := s.tape.put b, ip := s.ip + 1 }) :=
  .next ⟨h.tape.put b, h.input, h.output⟩ rfl rfl

theorem Matches.follows_moved (h : Matches unread m s) (single : Prop) {target : Int}
    {c : Fin size} (hc : target = c) :
    Follows unread single s.ip s.steps ({ m with cursor := c }, none)
      (.next { s with tape := { s.tape with cursor := target }, ip := s.ip + 1 }) :=
  .next ⟨h.tape.moveTo hc, h.input, h.output⟩ rfl rfl

/-- The report of a move can be written, so that the run fails with it. -/
theorem Matches.follows_leftTape (h : Matches unread m s) {single : Prop} {c : Fin size}
    (hc : single → c = m.cursor) {target : Int} (htext : FitsNumeral target) :
    Follows unread single s.ip s.steps ({ m with cursor := c }, some .leftTape)
      (s.fail (.leftTape target s.tape.size)) := by
  have hfail : s.fail (.leftTape target s.tape.size) =
      .stop s (.failed ⟨.leftTape target s.tape.size, s.ip, s.tape.cursor⟩) :=
    State.fail_of_hasText htext
  rw [hfail]
  refine .stop ⟨h.tape.cells, ?_, h.input, h.output, rfl⟩ rfl
  intro hsingle
  rw [hc (hsingle.resolve_right fun hne => hne rfl), h.tape.cursor]

theorem Matches.follows_right (h : Matches unread m s) {n : Nat} (hn : (n : Int) < wordBound) :
    Follows unread (n = 1) s.ip s.steps (Memory.performs feed .right n m) (s.move n) := by
  unfold State.move Tape.move?
  rw [h.tape.cursor, h.tape.size_eq]
  by_cases hinside : m.cursor + n < size
  · rw [Memory.performs_right hinside, if_pos (by omega)]
    exact h.follows_moved (n = 1) rfl
  · obtain ⟨c, hperforms, hc⟩ := Memory.performs_right_of_le feed (Nat.le_of_not_lt hinside)
    rw [hperforms, if_neg (by omega)]
    have htext : FitsNumeral (m.cursor + n) := h.tape.fitsNumeral_target (by simpa using hn)
    have hfollows := h.follows_leftTape hc htext
    rwa [h.tape.size_eq] at hfollows

theorem Matches.follows_left (h : Matches unread m s) {n : Nat} (hn : (n : Int) < wordBound) :
    Follows unread (n = 1) s.ip s.steps (Memory.performs feed .left n m) (s.move (-n)) := by
  unfold State.move Tape.move?
  rw [h.tape.cursor, h.tape.size_eq]
  by_cases hinside : n ≤ m.cursor.val
  · have hlt := m.cursor.isLt
    rw [Memory.performs_left hinside, if_pos (by omega)]
    exact h.follows_moved (n = 1) (by simp only; omega)
  · obtain ⟨c, hperforms, hc⟩ := Memory.performs_left_of_lt feed (Nat.lt_of_not_le hinside)
    rw [hperforms, if_neg (by omega)]
    have htext : FitsNumeral (m.cursor + -n) := h.tape.fitsNumeral_target (by simpa using hn)
    have hfollows := h.follows_leftTape hc htext
    rwa [h.tape.size_eq] at hfollows

theorem Matches.follows_sum (h : Matches unread m s) (single : Prop) (n : Int) :
    Follows unread single s.ip s.steps (m.put (Tape.sum m.current n), none) (s.add n) := by
  rw [State.add, h.tape.current?]
  exact h.follows_put single _

theorem State.write_of_ok {count : Int} {b : UInt8} {bytes : List UInt8}
    (hb : s.tape.current? = some b) (hcopies : copies io.host count b = .ok bytes)
    (hwrite : io.write s.written.size = none) :
    s.write io count = .next { s with written := s.written.push bytes, ip := s.ip + 1 } := by
  rw [State.write, hb]
  simp only [hcopies, hwrite]

theorem Matches.follows_write (h : Matches unread m s) (hwrite : ∀ k, io.write k = none)
    (single : Prop) {n : Nat} (hn : n ≤ io.host.memory) :
    Follows unread single s.ip s.steps (Memory.performs feed .write n m) (s.write io n) := by
  have hcopies : copies io.host n m.current = .ok (List.replicate n m.current) :=
    copies_of_le (Int.le_trans (by decide) (Int.natCast_nonneg n)) (Int.ofNat_le.2 hn) m.current
  rw [Memory.performs_write, State.write_of_ok h.tape.current? hcopies (hwrite _)]
  refine .next ⟨h.tape, h.input, ?_⟩ rfl rfl
  have houtput := h.output
  unfold State.output at houtput ⊢
  simp only [Array.toList_push, List.flatten_append, List.flatten_singleton, houtput]

theorem Matches.follows_refuse (h : Matches unread m s) (single : Prop) (p : Reading.Problem) :
    Follows unread single s.ip s.steps (m, some (.noByte p)) (s.refuse p) := by
  cases p with
  | exhausted => exact .stop (h.halts single rfl) rfl
  | longText length => exact .stop (h.halts single rfl) rfl
  | fault f =>
    rw [State.refuse]
    split
    · rename_i htrouble
      refine .stop (h.halts single ?_) rfl
      show some Ending.Kind.inputOutput = _
      simp [Trouble.kind, htrouble]
    · rename_i htrouble
      refine .stop (h.halts single ?_) rfl
      simp [Ending.kind?, Trouble.kind, htrouble]

theorem Matches.follows_read (h : Matches unread m s) (hio : Serves io feed unread)
    (single : Prop) (n : Nat) :
    Follows unread single s.ip s.steps (Memory.performs feed .read n m) (State.read io n s) := by
  induction n generalizing m s with
  | zero => exact .next (h.moveTo _ _) rfl rfl
  | succ n ih =>
    have hfeed := hio.read s.reads
    rw [← h.input] at hfeed
    rw [Memory.performs, Memory.perform, State.read, hfeed]
    cases hbyte : (io.read s.reads).byte with
    | error p =>
      have hread : Matches unread { m with input := unread (s.reads + 1) }
          { s with reads := s.reads + 1 } := ⟨h.tape, rfl, h.output⟩
      exact hread.follows_refuse single p
    | ok b =>
      have hread : Matches unread { m.put b with input := unread (s.reads + 1) }
          { s with tape := s.tape.put b, reads := s.reads + 1 } := by
        exact ⟨h.tape.put b, rfl, h.output⟩
      simp only [h.tape.current?]
      exact ih hread

/-- A counted command does what its commands do one by one. -/
theorem Matches.follows (h : Matches unread m s) (hio : Serves io feed unread) {n : Nat}
    (hn : n ≤ io.host.memory) (c : Command) :
    Follows unread (n = 1) s.ip s.steps (Memory.performs feed c n m) (s.perform io n c) := by
  have hword : (n : Int) < wordBound := Int.lt_of_le_of_lt (Int.ofNat_le.2 hn) io.host.memory_lt
  cases c with
  | right => exact h.follows_right hword
  | left => exact h.follows_left hword
  | increment =>
    rw [Memory.performs_increment]
    exact h.follows_sum _ n
  | decrement =>
    rw [Memory.performs_decrement]
    exact h.follows_sum _ (-n)
  | write => exact h.follows_write hio.write _ hn
  | read => exact h.follows_read hio _ n

end Agreement

end Brainfuck
