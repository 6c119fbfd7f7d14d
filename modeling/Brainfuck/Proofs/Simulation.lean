import Brainfuck.Proofs.Execution
import Brainfuck.Proofs.Repetition

/-!
# Runs and evaluations

The run of a program that is laid out from a block and the evaluation of the
block's tree are one and the same: one comes to an end if and only if the other
does, and then they end alike.

* `Program.Places` says that a block stands in a program, and that its counts are
  such as a build makes them.
* `Arrives` and `Fails` say what a run makes of an evaluation that comes to its
  end, or to trouble, and `Costs` how their lengths compare.  `Simulates` puts
  them together.
* `simulates_of_eval` follows an evaluation, by induction on its length.
* `exists_eval_of_ended` finds the evaluation behind a run, by induction on the
  number of rounds.
* `exists_ended_iff` and `halts_of_ended` say the same of whole programs.

The end of a loop's body is the point of both inductions.  The run stands before
the closing bracket there, and the evaluation is about to begin the loop again;
as the bracket does what the opening one does (`State.step_close`), the run may
be put back to the opening one, where the loop stands as it did at first.
-/

namespace Brainfuck

/-! ## Blocks in their places -/

/-- The block stands in the program from an index on.  Its counts are positive,
and there is room for as many bytes. -/
structure Program.Places (p : Program) (host : Host) (start : Nat) (b : Block) : Prop where
  holds : p.Holds start (b.code start)
  pos : b.All (1 ≤ ·)
  small : b.All (· ≤ host.memory)

namespace Program.Places

variable {p : Program} {host : Host} {start : Nat} {body rest : Block}

theorem of_op {c : Command} {n : Nat} (h : p.Places host start (.op c n rest)) :
    p.Places host (start + 1) rest :=
  ⟨h.holds.op.2, h.pos.2, h.small.2⟩

theorem of_body (h : p.Places host start (.loop body rest)) : p.Places host (start + 1) body :=
  ⟨h.holds.loop.2.1, h.pos.1, h.small.1⟩

theorem of_rest (h : p.Places host start (.loop body rest)) :
    p.Places host (start + body.length + 2) rest :=
  ⟨h.holds.loop.2.2.2, h.pos.2, h.small.2⟩

end Program.Places

/-! ## What a run makes of an evaluation -/

/-- The run from `s` to `s'` takes at most `k` steps, and exactly `k` if `single` holds. -/
structure Costs (single : Prop) (k : Nat) (s s' : State) : Prop where
  le : s'.steps ≤ s.steps + k
  eq : single → s'.steps = s.steps + k

theorem Costs.trans {single single₁ single₂ : Prop} {i k : Nat} {s s₁ s' : State}
    (h₁ : Costs single₁ i s s₁) (h₂ : Costs single₂ k s₁ s')
    (hsingle : single → single₁ ∧ single₂) : Costs single (k + i) s s' := by
  constructor
  · have hle₁ := h₁.le
    have hle₂ := h₂.le
    omega
  · intro h
    have heq₁ := h₁.eq (hsingle h).1
    have heq₂ := h₂.eq (hsingle h).2
    omega

theorem Costs.of_succ {k : Nat} {s s₁ : State} (h : s₁.steps = s.steps + 1) (hk : 1 ≤ k) :
    Costs (k = 1) k s s₁ := by
  constructor
  · omega
  · intro hone
    omega

section Results

variable {size : Nat} {I : Type} (unread : Nat → I) (single : Prop) (m' : Memory size I)
  (r : Option Trouble) (k : Nat) (s : State)

/-- The evaluation has come to its end, and the run has come to `stop`. -/
structure Arrives (stop : Nat) (s' : State) : Prop where
  result : r = none
  ip : s'.ip = stop
  agrees : Matches unread m' s'
  costs : Costs single k s s'

/-- The evaluation has come to trouble, and the run has ended with it. -/
structure Fails (s' : State) (e : Ending) : Prop where
  result : r ≠ none
  halts : Halts unread single m' r s' e
  costs : Costs single k s s'

/-- The run from `s` does what an evaluation does that takes `k` commands and
tests.  It comes to `stop` if the evaluation comes to its end. -/
def Simulates (p : Program) (io : Streams) (stop : Nat) : Prop :=
  s.Leads p io (Arrives unread single m' r k s stop) (Fails unread single m' r k s)

end Results

section Simulation

variable {size : Nat} {I : Type} {io : Streams} {feed : Feed I} {unread : Nat → I}
  {p : Program} {s s₁ s' : State} {start stop : Nat} {m m' : Memory size I}
  {r : Option Trouble}

/-- What a run does from a state on its way counts from its beginning. -/
theorem Simulates.leads {single single₁ single₂ : Prop} {i k : Nat}
    (h : Simulates unread single₂ m' r k s₁ p io stop) (hcosts : Costs single₁ i s s₁)
    (hsingle : single → single₁ ∧ single₂) :
    s₁.Leads p io (Arrives unread single m' r (k + i) s stop)
      (Fails unread single m' r (k + i) s) := by
  apply State.Leads.mono h
  · intro s' h'
    exact ⟨h'.result, h'.ip, h'.agrees, hcosts.trans h'.costs hsingle⟩
  · intro s' e h'
    exact ⟨h'.result, h'.halts.imp fun h => (hsingle h).2, hcosts.trans h'.costs hsingle⟩

theorem Simulates.of_next {single single' : Prop} {k n : Nat}
    (h : Simulates unread single m' r k s₁ p io stop) (hstep : s.step p io none = .next s₁)
    (hsteps : s₁.steps = s.steps + 1) (hn : 1 ≤ n) (hsingle : single' → n = 1 ∧ single) :
    Simulates unread single' m' r (k + n) s p io stop :=
  .next hstep (h.leads (.of_succ hsteps hn) hsingle)

/-- If there is trouble, it does not matter where the run was to come to. -/
theorem Simulates.of_some {single : Prop} {e : Trouble} {k : Nat}
    (h : Simulates unread single m' (some e) k s p io stop) (stop' : Nat) :
    Simulates unread single m' (some e) k s p io stop' := by
  apply State.Leads.mono h
  · intro s' h'
    cases h'.result
  · intro s' d h'
    exact h'

/-- A counted command is one step of the run. -/
theorem Matches.step_op {n : Nat} {c : Command} {rest : Block}
    (hm : Matches unread m s) (hio : Serves io feed unread)
    (hp : p.Places io.host start (.op c n rest)) (hip : s.ip = start) :
    Follows unread (n = 1) start (s.steps + 1) (Memory.performs feed c n m)
      (s.step p io none) := by
  rw [State.step_at hp.holds.op.1 hip, ← hip]
  have hbegun : Matches unread m { s with steps := s.steps + 1 } :=
    hm.moveTo _ _
  exact hbegun.follows hio hp.small.1 c

section Op

variable {c : Command} {n k : Nat} {rest : Block}

/-- If all its commands are carried out, the run goes on behind a counted command. -/
theorem Simulates.op_next {m₁ : Memory size I} (hm : Matches unread m s)
    (hio : Serves io feed unread) (hp : p.Places io.host start (.op c n rest)) (hip : s.ip = start)
    (hperforms : Memory.performs feed c n m = (m₁, none))
    (hrest : ∀ s₁ : State, Matches unread m₁ s₁ → s₁.ip = (start + 1 : Nat) →
      Simulates unread (rest.All (· = 1)) m' r k s₁ p io (start + 1 + rest.length)) :
    Simulates unread ((Block.op c n rest).All (· = 1)) m' r (k + n) s p io
      (start + (Block.op c n rest).length) := by
  have hfollows := hm.step_op hio hp hip
  rw [hperforms] at hfollows
  generalize hstep : s.step p io none = st at hfollows
  cases hfollows with
  | next hm₁ hip₁ hsteps =>
    have hsim := hrest _ hm₁ (by omega)
    rw [show start + 1 + rest.length = start + (rest.length + 1) by omega] at hsim
    exact hsim.of_next hstep hsteps hp.pos.1 id

/-- If one of its commands is the last, the run ends with a counted command. -/
theorem Simulates.op_stop {e : Trouble} (hm : Matches unread m s) (hio : Serves io feed unread)
    (hp : p.Places io.host start (.op c n rest)) (hip : s.ip = start)
    (hperforms : Memory.performs feed c n m = (m', some e)) (hk : 1 ≤ k) (hkn : k ≤ n) :
    Simulates unread ((Block.op c n rest).All (· = 1)) m' (some e) k s p io stop := by
  have hfollows := hm.step_op hio hp hip
  rw [hperforms] at hfollows
  generalize hstep : s.step p io none = st at hfollows
  cases hfollows with
  | stop hhalts hsteps =>
    refine .stop hstep ⟨by simp, hhalts.imp And.left, ?_, ?_⟩
    · omega
    · intro hall
      have hone : n = 1 := hall.1
      omega

end Op

section Loop

variable {body rest : Block}

/-- If the current cell is zero, the run goes on behind the loop. -/
theorem Matches.step_skip (hm : Matches unread m s) (io : Streams)
    (hp : p.Places io.host start (.loop body rest)) (hip : s.ip = start) (hzero : m.current = 0) :
    ∃ s₁, s.step p io none = .next s₁ ∧ Matches unread m s₁ ∧
      s₁.ip = (start + body.length + 2 : Nat) ∧ s₁.steps = s.steps + 1 := by
  refine ⟨_, State.step_open_zero hp.holds.loop.1 hip (by rw [hm.tape.current?, hzero]),
    hm.moveTo _ _, ?_, rfl⟩
  simp only
  omega

/-- If the current cell is not zero, the run goes on in the loop. -/
theorem Matches.step_enter (hm : Matches unread m s) (io : Streams)
    (hp : p.Places io.host start (.loop body rest)) (hip : s.ip = start) (hne : m.current ≠ 0) :
    ∃ s₁, s.step p io none = .next s₁ ∧ Matches unread m s₁ ∧
      s₁.ip = (start + 1 : Nat) ∧ s₁.steps = s.steps + 1 := by
  refine ⟨_, State.step_open_nonzero hp.holds.loop.1 hip hm.tape.current? hne,
    hm.moveTo _ _, ?_, rfl⟩
  simp only
  omega

/-- Behind the body of a loop, a step is as if the loop began again. -/
theorem Matches.step_again (hm : Matches unread m s) (hp : p.Places io.host start (.loop body rest))
    (hip : s.ip = (start + 1 + body.length : Nat)) :
    s.step p io none = { s with ip := start }.step p io none := by
  rcases hp.holds.loop with ⟨hopen, -, hclose, -⟩
  apply State.step_close hopen hclose _ hm.tape.current?
  rw [hip]
  omega

/-- If the body of a loop comes to its end, the run begins the loop again. -/
theorem Simulates.again {single single' : Prop} {i k : Nat} {m₁ : Memory size I}
    (hp : p.Places io.host start (.loop body rest))
    (hbody : Simulates unread single m₁ none i s p io (start + 1 + body.length))
    (hback : ∀ s₂ : State, Matches unread m₁ s₂ → s₂.ip = start →
      Simulates unread single' m' r k s₂ p io (start + (Block.loop body rest).length))
    (hsingle : single' → single) :
    Simulates unread single' m' r (k + i) s p io (start + (Block.loop body rest).length) := by
  apply State.Leads.bind
  · apply State.Leads.mono hbody (fun _ h => h)
    intro s' e h
    exact absurd rfl h.result
  · intro s₂ h
    have hagain := hback { s₂ with ip := start } (h.agrees.moveTo _ _) rfl
    refine State.Leads.of_step_eq
      (hagain.leads ⟨h.costs.le, h.costs.eq⟩ fun h => ⟨hsingle h, h⟩) ?_ ?_
    · intro harrives
      have hstop := harrives.ip
      simp only [Block.length] at hstop
      omega
    · exact h.agrees.step_again hp h.ip

end Loop

/-! ## From an evaluation to a run -/

/-- A run does what the evaluation does, and in no more steps. -/
theorem simulates_of_eval (hio : Serves io feed unread) {k : Nat} {b : Block}
    (heval : Tree.Eval feed b.tree m k m' r) (hp : p.Places io.host start b)
    (hm : Matches unread m s) (hip : s.ip = start) :
    Simulates unread (b.All (· = 1)) m' r k s p io (start + b.length) := by
  induction k using Nat.strongRecOn generalizing b start s m m' r with
  | ind k ih =>
    cases b with
    | nil =>
      cases heval
      exact .here ⟨rfl, hip, hm, ⟨Nat.le_refl _, fun _ => rfl⟩⟩
    | op c n rest =>
      have hn : 1 ≤ n := hp.pos.1
      rcases Tree.Eval.of_commands heval with ⟨m₁, j, hperforms, hrest, rfl⟩ | h
      · apply Simulates.op_next hm hio hp hip hperforms
        intro s₁ hm₁ hip₁
        exact ih j (by omega) hrest hp.of_op hm₁ hip₁
      · rcases h with ⟨e, rfl, hperforms, hk, hkn⟩
        exact Simulates.op_stop hm hio hp hip hperforms hk hkn
    | loop body rest =>
      cases heval with
      | skip hzero hrest =>
        rcases hm.step_skip io hp hip hzero with ⟨s₁, hstep, hm₁, hip₁, hsteps⟩
        have hsim := ih _ (by omega) hrest hp.of_rest hm₁ hip₁
        rw [show start + body.length + 2 + rest.length =
          start + (body.length + rest.length + 2) by omega] at hsim
        exact hsim.of_next hstep hsteps (Nat.le_refl 1) fun h => ⟨rfl, h.2⟩
      | fail hne hbody =>
        rcases hm.step_enter io hp hip hne with ⟨s₁, hstep, hm₁, hip₁, hsteps⟩
        have hsim := ih _ (by omega) hbody hp.of_body hm₁ hip₁
        exact (hsim.of_some _).of_next hstep hsteps (Nat.le_refl 1) fun h => ⟨rfl, h.1⟩
      | again hne hbody hagain =>
        rename_i i m₁ j
        rcases hm.step_enter io hp hip hne with ⟨s₁, hstep, hm₁, hip₁, hsteps⟩
        have hsim := ih i (by omega) hbody hp.of_body hm₁ hip₁
        have hloop := hsim.again hp
          (fun s₂ hm₂ hip₂ => ih j (by omega) (b := .loop body rest) hagain hp hm₂ hip₂)
          And.left
        rw [show i + j + 1 = j + i + 1 by omega]
        exact hloop.of_next hstep hsteps (Nat.le_refl 1) fun h => ⟨rfl, h⟩

/-! ## From a run to an evaluation -/

/-- If the body of a loop comes to its end, a run that ends does so as if it had
begun the loop again there, in no more rounds. -/
theorem exists_run_again (hio : Serves io feed unread) {n i : Nat} {body rest : Block}
    {m₁ : Memory size I} {e : Ending} (hp : p.Places io.host start (.loop body rest))
    (hbody : Tree.Eval feed body.tree m i m₁ none) (hm : Matches unread m s)
    (hip : s.ip = (start + 1 : Nat)) (h : State.run p io none n s = (s', some e)) :
    ∃ j s₂, j ≤ n ∧ Matches unread m₁ s₂ ∧ s₂.ip = start ∧
      State.run p io none j s₂ = (s', some e) := by
  have hsim := simulates_of_eval hio hbody hp.of_body hm hip
  rcases hsim.exists_run with ⟨n₁, s₁, hrun, h₁⟩ | ⟨_, _, _, _, h₁⟩
  · rcases State.exists_of_ended hrun h with ⟨j, hn, hrest⟩
    refine ⟨j + 1, { s₁ with ip := start }, by omega, h₁.agrees.moveTo _ _, rfl, ?_⟩
    rwa [State.run, h₁.agrees.step_again hp h₁.ip, ← State.run] at hrest
  · exact absurd rfl h₁.result

/-- If the run ends, the evaluation does. -/
theorem exists_eval_of_ended (hio : Serves io feed unread) {n : Nat} {b : Block} {e : Ending}
    (hp : p.Places io.host start b) (hm : Matches unread m s) (hip : s.ip = start)
    (h : State.run p io none n s = (s', some e)) :
    ∃ k m' r, Tree.Eval feed b.tree m k m' r := by
  induction n using Nat.strongRecOn generalizing b start s m with
  | ind n ih =>
    cases n with
    | zero => cases h
    | succ n =>
      cases b with
      | nil => exact ⟨0, m, none, .nil m⟩
      | op c count rest =>
        have hfollows := hm.step_op hio hp hip
        generalize hstep : s.step p io none = st at hfollows
        generalize hperforms : Memory.performs feed c count m = result at hfollows
        cases hfollows with
        | next hm₁ hip₁ _ =>
          rw [State.run_of_next hstep] at h
          rcases ih n (by omega) hp.of_op hm₁ (by omega) h with ⟨k, m', r, hrest⟩
          exact ⟨_, m', r, Tree.Eval.commands_next hperforms hrest⟩
        | stop _ _ =>
          rcases Tree.Eval.commands_stop hperforms rest.tree with ⟨k, hk⟩
          exact ⟨k, _, _, hk⟩
      | loop body rest =>
        by_cases hzero : m.current = 0
        · rcases hm.step_skip io hp hip hzero with ⟨s₁, hstep, hm₁, hip₁, -⟩
          rw [State.run_of_next hstep] at h
          rcases ih n (by omega) hp.of_rest hm₁ hip₁ h with ⟨k, m', r, hrest⟩
          exact ⟨_, m', r, .skip hzero hrest⟩
        · rcases hm.step_enter io hp hip hzero with ⟨s₁, hstep, hm₁, hip₁, -⟩
          rw [State.run_of_next hstep] at h
          rcases ih n (by omega) hp.of_body hm₁ hip₁ h with ⟨i, m₁, r, hbody⟩
          cases r with
          | some e => exact ⟨_, m₁, _, .fail hzero hbody⟩
          | none =>
            rcases exists_run_again hio hp hbody hm₁ hip₁ h with ⟨j, s₂, hj, hm₂, hip₂, hrest⟩
            rcases ih j (by omega) hp hm₂ hip₂ hrest with ⟨k, m', r, hagain⟩
            exact ⟨_, m', r, .again hzero hbody hagain⟩

/-! ## Whole programs -/

section Layout

variable {b : Block} {k : Nat}

/-- The run of a laid out block ends as the evaluation of its tree does. -/
theorem ended_of_eval (hio : Serves io feed unread) (hp : (Program.ofBlock b).Places io.host 0 b)
    (hm : Matches unread m s) (hip : s.ip = 0) (heval : Tree.Eval feed b.tree m k m' r) :
    ∃ n s' e, State.run (.ofBlock b) io none n s = (s', some e) ∧
      Halts unread (b.All (· = 1)) m' r s' e ∧ Costs (b.All (· = 1)) k s s' := by
  have hsim := simulates_of_eval hio heval hp hm hip
  rcases hsim.exists_run with ⟨n, s', hrun, h⟩ | ⟨n, s', e, hrun, h⟩
  · rcases h with ⟨rfl, hip', hm', hcosts⟩
    have hstop : s'.step (.ofBlock b) io none = .stop s' .finished := by
      apply State.step_at_end
      rw [Program.size_ofBlock, hip']
      omega
    refine ⟨n + 1, s', .finished, ?_, hm'.halts _ rfl, hcosts⟩
    rw [State.run_add hrun, State.run_of_stop hstop]
  · exact ⟨n, s', e, hrun, h.halts, h.costs⟩

theorem exists_ended_iff (hio : Serves io feed unread) (hp : (Program.ofBlock b).Places io.host 0 b)
    (hm : Matches unread m s) (hip : s.ip = 0) :
    (∃ n s' e, State.run (.ofBlock b) io none n s = (s', some e)) ↔
      ∃ k m' r, Tree.Eval feed b.tree m k m' r := by
  constructor
  · rintro ⟨n, s', e, h⟩
    exact exists_eval_of_ended hio hp hm hip h
  · rintro ⟨k, m', r, heval⟩
    rcases ended_of_eval hio hp hm hip heval with ⟨n, s', e, h, -, -⟩
    exact ⟨n, s', e, h⟩

/-- However many rounds a run is given, it ends as the evaluation does. -/
theorem halts_of_ended (hio : Serves io feed unread) (hp : (Program.ofBlock b).Places io.host 0 b)
    (hm : Matches unread m s) (hip : s.ip = 0) (heval : Tree.Eval feed b.tree m k m' r)
    {n : Nat} {e : Ending} (h : State.run (.ofBlock b) io none n s = (s', some e)) :
    Halts unread (b.All (· = 1)) m' r s' e ∧ Costs (b.All (· = 1)) k s s' := by
  rcases ended_of_eval hio hp hm hip heval with ⟨n', s'', e', h', hhalts⟩
  rcases State.ended_unique h h' with ⟨rfl, rfl⟩
  exact hhalts

end Layout

end Simulation

end Brainfuck
