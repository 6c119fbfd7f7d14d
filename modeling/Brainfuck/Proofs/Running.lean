import Brainfuck.Proofs.Simulation

/-!
# Runs of machines

What the comparison of runs and evaluations says of a machine that is given the
program of a text.

* `Program.places_ofText`: the program is the layout of a block with the tree of
  the text, and the comparison applies to it.
* `Machine.matches_start`: run and evaluation begin alike, on a cleared tape.
* `Machine.exists_ending_iff` and `Machine.halts_of_ending`: without a limit on
  steps, the machine ends if and only if the evaluation does, and as it does.
-/

namespace Brainfuck

/-- The program of a text stands where its block is laid out. -/
theorem Program.places_ofText {text : List Char} {fold : Bool} {p : Program} {t : Tree}
    {host : Host} (hp : ofText text fold = .ok p) (ht : t.tokens = Token.ofText text)
    (htext : host.HasRoomFor text ∨ fold = false) :
    ∃ b : Block, p = .ofBlock b ∧ b.tree = t ∧ (ofBlock b).Places host 0 b ∧
      (fold = false → b.All (· = 1)) := by
  obtain ⟨b, hlayout, htree, hpos, hlength, hone⟩ := exists_block_of_tree hp ht
  refine ⟨b, hlayout, htree, ⟨holds_ofBlock b, hpos, ?_⟩, hone⟩
  rcases htext with htext | hfold
  · exact hlength.imp fun n hn => Nat.le_trans hn htext
  · apply (hone hfold).imp
    rintro n rfl
    exact host.memory_pos

namespace Machine

variable {size : Nat} {I : Type} {io : Streams} {feed : Feed I} {unread : Nat → I} {b : Block}

theorem matches_start (m : Machine) (hsize : 0 < size) (htape : m.tape.size = size)
    (unread : Nat → I) : Matches unread (.start hsize (unread 0)) m.start := by
  subst htape
  refine ⟨⟨?_, rfl⟩, rfl, rfl⟩
  simp [start, Tape.reset, Tape.blank, Memory.start]

theorem exists_ending_iff (hio : Serves io feed unread)
    (hp : (Program.ofBlock b).Places io.host 0 b) (m : Machine) (hlimit : m.limit = none) (hsize : 0 < size) (htape : m.tape.size = size) :
    (∃ n, (m.run (.ofBlock b) io n).ending ≠ none) ↔
      ∃ k m' r, Tree.Eval feed b.tree (.start hsize (unread 0)) k m' r := by
  rw [← exists_ended_iff hio hp (m.matches_start hsize htape unread) rfl]
  constructor
  · rintro ⟨n, h⟩
    obtain ⟨e, he⟩ := Option.ne_none_iff_exists'.1 h
    refine ⟨n, (State.run (.ofBlock b) io none n m.start).1, e, ?_⟩
    rw [← he, ← hlimit]
    rfl
  · rintro ⟨n, s', e, h⟩
    refine ⟨n, ?_⟩
    rw [← hlimit] at h
    rw [run, h]
    simp

theorem halts_of_ending (hio : Serves io feed unread) (hp : (Program.ofBlock b).Places io.host 0 b)
    (m : Machine) (hlimit : m.limit = none) (hsize : 0 < size) (htape : m.tape.size = size)
    {k n : Nat} {m' : Memory size I} {r : Option Trouble} {e : Ending}
    (heval : Tree.Eval feed b.tree (.start hsize (unread 0)) k m' r)
    (h : (m.run (.ofBlock b) io n).ending = some e) :
    ∃ s', m.run (.ofBlock b) io n =
        ⟨{ m with tape := s'.tape, ip := s'.ip, steps := s'.steps }, s'.reads, s'.written,
          some e⟩ ∧
      Halts unread (b.All (· = 1)) m' r s' e ∧ Costs (b.All (· = 1)) k m.start s' := by
  have hrun : State.run (.ofBlock b) io none n m.start =
      ((State.run (.ofBlock b) io none n m.start).1, some e) := by
    rw [← h, ← hlimit]
    rfl
  have hmatches := m.matches_start hsize htape unread
  refine ⟨_, ?_, halts_of_ended hio hp hmatches rfl heval hrun⟩
  rw [run, hlimit, hrun]

end Machine

end Brainfuck
