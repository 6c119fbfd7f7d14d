import Brainfuck.Proofs.Actions
import Brainfuck.Proofs.Progress

/-!
# Runs of used machines

A machine that has been used runs a program as a new one does.  It may have been used in
any way: for runs that ended, failed, broke down in the middle of an instruction or were
given up, for actions on its tape, refused or not, and with its cursor set to any place.

* No action changes the number of cells (`Machine.size_perform`), and only one sets the
  limit (`Machine.limit_perform`).  `Machine.size_performAll` and
  `Machine.limit_performAll` say so of a whole history, by induction on its actions.
* A reset machine has nothing but these two left of its past (`Machine.reset_of_size`), and
  a run begins with a reset (`Machine.run_reset`).
-/

namespace Brainfuck

namespace Tape

theorem blank_congr {n n' : Nat} (h : n = n') (hn : 0 < n) (hlt : (n : Int) < wordBound) :
    blank n hn hlt = blank n' (h ▸ hn) (h ▸ hlt) := by
  subst h
  rfl

/-- A new tape is cleared. -/
theorem reset_of_ofSize {size : Int} {host : Host} {t : Tape} (h : ofSize size host = .ok t) :
    t.reset = t := by
  unfold ofSize at h
  split at h
  · split at h
    · split at h
      · cases h
        exact blank_congr (by simp [Tape.size, blank]) _ _
      · cases h
    · cases h
  · cases h

end Tape

namespace Machine

/-- The limit that an action leaves in force. -/
def Action.limitAfter (limit : Option Int) : Action → Option Int
  | setLimit limit' => limit'
  | _ => limit

/-- The machine after actions, each of which has been given so many rounds. -/
def performAll (m : Machine) (history : List (Action × Nat)) : Machine :=
  history.foldl (fun m a => (m.perform a.1 a.2).1) m

variable {m m' : Machine}

/-! ## Histories -/

theorem perform_tape (m : Machine) (a : Tape.Action) (rounds : Nat) :
    (m.perform (.tape a) rounds).1 = { m with tape := (m.tape.perform a).1 } := by
  rw [perform]
  rcases m.tape.perform a with ⟨tape, reply⟩
  cases reply with
  | ok b => rfl
  | error e => rfl

theorem size_perform (m : Machine) (a : Action) (rounds : Nat) :
    (m.perform a rounds).1.tape.size = m.tape.size := by
  cases a with
  | run p io =>
    obtain ⟨n, -, hprogress, -, -⟩ := State.run_progress p io m.limit rounds m.start
    exact hprogress.size.trans (Tape.size_reset m.tape)
  | reset => exact Tape.size_reset m.tape
  | setLimit limit => rfl
  | tape a =>
    rw [perform_tape]
    exact Tape.size_perform m.tape a

theorem limit_perform (m : Machine) (a : Action) (rounds : Nat) :
    (m.perform a rounds).1.limit = a.limitAfter m.limit := by
  cases a with
  | run p io => rfl
  | reset => rfl
  | setLimit limit => rfl
  | tape a =>
    rw [perform_tape]
    rfl

theorem size_performAll (m : Machine) (history : List (Action × Nat)) :
    (m.performAll history).tape.size = m.tape.size := by
  induction history generalizing m with
  | nil => rfl
  | cons a history ih => exact (ih _).trans (m.size_perform a.1 a.2)

theorem limit_performAll (m : Machine) (history : List (Action × Nat)) :
    (m.performAll history).limit =
      history.foldl (fun limit a => a.1.limitAfter limit) m.limit := by
  induction history generalizing m with
  | nil => rfl
  | cons a history ih =>
    rw [List.foldl_cons, ← m.limit_perform a.1 a.2]
    exact ih _

/-! ## Resets -/

/-- A reset machine is known by the number of its cells and its limit. -/
theorem reset_of_size (h : m.tape.size = m'.tape.size) :
    m.reset = { m'.reset with limit := m.limit } := by
  have htape : m.tape.reset = m'.tape.reset := Tape.blank_congr h m.tape.cells_pos m.tape.cells_lt
  rw [reset, reset, htape]

/-- A run begins with a reset. -/
theorem run_reset (m : Machine) (p : Program) (io : Streams) (rounds : Nat) :
    m.reset.run p io rounds = m.run p io rounds := by
  have hstart : m.reset.start = m.start :=
    congrArg (fun tape => ({ tape } : State))
      (Tape.blank_congr (Tape.size_reset m.tape) m.reset.tape.cells_pos m.reset.tape.cells_lt)
  rw [run, run, hstart]
  rfl

/-- A new machine is reset, and it could have been made with another limit. -/
theorem of_ofSize {size : Int} {limit : Option Int} {host : Host}
    (h : ofSize size limit host = .ok m) :
    m.limit = limit ∧ m.reset = m ∧
      ∀ limit', ofSize size limit' host = .ok { m with limit := limit' } := by
  unfold ofSize at h ⊢
  cases htape : Tape.ofSize size host with
  | error e =>
    rw [htape] at h
    cases h
  | ok tape =>
    rw [htape] at h
    cases h
    have hreset := Tape.reset_of_ofSize htape
    exact ⟨rfl, by rw [reset, hreset], fun limit' => rfl⟩

end Machine

/-! ## The result -/

/-- What a run does has nothing to do with what the machine was used for before.  However that
was, a reset makes it a new machine with the same number of cells and the limit that
was set last, and any program runs on it as on that one. -/
theorem run_forgets_history {size : Int} {limit : Option Int} {host : Host} {new : Machine}
    (hnew : Machine.ofSize size limit host = .ok new) (history : List (Machine.Action × Nat)) :
    let used := new.performAll history
    used.limit = history.foldl (fun limit a => a.1.limitAfter limit) limit ∧
    ∃ fresh, Machine.ofSize size used.limit host = .ok fresh ∧ used.reset = fresh ∧
      ∀ p io rounds, used.run p io rounds = fresh.run p io rounds := by
  intro used
  obtain ⟨hlimit, hreset, hother⟩ := Machine.of_ofSize hnew
  have hfresh : used.reset = { new with limit := used.limit } := by
    rw [Machine.reset_of_size (new.size_performAll history), hreset]
  refine ⟨?_, _, hother used.limit, hfresh, ?_⟩
  · rw [← hlimit]
    exact new.limit_performAll history
  · intro p io rounds
    rw [← hfresh, used.run_reset p io rounds]

/-- The machine is left in the middle of an instruction, with a byte read and the cursor
set off the tape. -/
theorem run_forgets_history_of_failure :
    let new : Machine := { tape := .blank 2 (by decide) }
    let history : List (Machine.Action × Nat) :=
      [(.run ⟨#[.op (.command .right) 1, .op (.command .read) 2]⟩
          (.ofLists #[.bytes [7], .fails ⟨.runtime, "late"⟩] #[]), 3),
        (.tape (.setCursor (-9)), 0), (.tape (.add 1), 0), (.setLimit (some 4), 0)]
    let used := new.performAll history
    (Machine.ofSize 2 none = .ok new ∧ used = ⟨⟨#[0, 7], -9, by decide, by decide⟩, 1, 2, some 4⟩) ∧
    used.limit = some 4 ∧
    ∃ fresh, Machine.ofSize 2 used.limit = .ok fresh ∧ used.reset = fresh ∧
      ∀ p io rounds, used.run p io rounds = fresh.run p io rounds := by
  intro new history used
  have hnew : Machine.ofSize 2 none = .ok new := rfl
  have hused : used = ⟨⟨#[0, 7], -9, by decide, by decide⟩, 1, 2, some 4⟩ := by decide +kernel
  exact ⟨⟨hnew, hused⟩, run_forgets_history hnew history⟩

end Brainfuck
