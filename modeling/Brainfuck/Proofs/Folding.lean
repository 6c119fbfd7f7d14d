import Brainfuck.Proofs.Running

/-!
# Folding

A text may be built with or without joining equal commands that follow each
other.  Both programs are laid out from blocks with one tree, the tree of the
text, so that the run of either is the evaluation of that tree.  The counted
commands save steps, and where the cursor would leave the tape they leave it
where it was before the first move.
-/

namespace Brainfuck

/-- What the streams deliver behind a number of reads. -/
def Streams.feed (io : Streams) : Feed Nat :=
  fun k => ((io.read k).byte, k + 1)

theorem Streams.serves_feed {io : Streams} (hwrite : ∀ k, io.write k = none) :
    Serves io io.feed id :=
  ⟨fun _ => rfl, hwrite⟩

/-- The machine ends with `p` if and only if it ends with `q`, and then in the same
way, with the same output, reads and cells, with the same cursor unless this would
have left the tape, and in no more steps. -/
def Machine.RunsAlike (m : Machine) (io : Streams) (p q : Program) : Prop :=
  ((∃ n, (m.run p io n).ending ≠ none) ↔ ∃ n, (m.run q io n).ending ≠ none) ∧
    ∀ n n' e e', (m.run p io n).ending = some e → (m.run q io n').ending = some e' →
      e.kind? = e'.kind? ∧
      (m.run p io n).written.toList.flatten = (m.run q io n').written.toList.flatten ∧
      (m.run p io n).reads = (m.run q io n').reads ∧
      (m.run p io n).machine.tape.cells = (m.run q io n').machine.tape.cells ∧
      (e.kind? ≠ some .tapeBounds →
        (m.run p io n).machine.tape.cursor = (m.run q io n').machine.tape.cursor) ∧
      (m.run p io n).machine.steps ≤ (m.run q io n').machine.steps

/-- Programs of one tree run alike if nothing is joined in the second one. -/
theorem Machine.runsAlike_of_tree {io : Streams} (hwrite : ∀ k, io.write k = none) (m : Machine)
    (hlimit : m.limit = none) {b b' : Block} (hp : (Program.ofBlock b).Places io.host 0 b)
    (hp' : (Program.ofBlock b').Places io.host 0 b') (htree : b.tree = b'.tree)
    (hone : b'.All (· = 1)) : m.RunsAlike io (.ofBlock b) (.ofBlock b') := by
  have hio := Streams.serves_feed hwrite
  have hiff := exists_ending_iff hio hp m hlimit m.tape.cells_pos rfl
  have hiff' := exists_ending_iff hio hp' m hlimit m.tape.cells_pos rfl
  refine ⟨hiff.trans (htree ▸ hiff'.symm), ?_⟩
  intro n n' e e' he he'
  -- Both runs are compared with one evaluation, which there is because one of them ends.
  obtain ⟨k, m', r, heval⟩ := hiff.1 ⟨n, by rw [he]; simp⟩
  obtain ⟨s, hrun, hhalts, hcosts⟩ := halts_of_ending hio hp m hlimit _ rfl heval he
  obtain ⟨s', hrun', hhalts', hcosts'⟩ :=
    halts_of_ending hio hp' m hlimit _ rfl (htree ▸ heval) he'
  rw [hrun, hrun']
  have hkind : e.kind? = r.map Trouble.kind := hhalts.kind
  refine ⟨hkind.trans hhalts'.kind.symm, hhalts.output.trans hhalts'.output.symm,
    hhalts.input.symm.trans hhalts'.input, hhalts.cells.trans hhalts'.cells.symm, ?_, ?_⟩
  · intro hbounds
    have hstays : r ≠ some .leftTape := by
      rintro rfl
      exact hbounds hkind
    exact (hhalts.cursor (Or.inr hstays)).trans (hhalts'.cursor (Or.inr hstays)).symm
  · have hle := hcosts.le
    have heq := hcosts'.eq hone
    show s.steps ≤ s'.steps
    omega

/-- Folding keeps what a text means.  A text is a row in memory itself, so that the bytes of
one folded write fit into memory too. -/
theorem folding_keeps_meaning {text : List Char} {io : Streams} (htext : io.host.HasRoomFor text)
    (hbuilds : ∃ fold p, Program.ofText text fold = .ok p) (m : Machine) (hlimit : m.limit = none)
    (hwrite : ∀ k, io.write k = none) :
    ∃ folded plain, Program.ofText text true = .ok folded ∧
      Program.ofText text false = .ok plain ∧ m.RunsAlike io folded plain := by
  obtain ⟨fold, hbuilds⟩ := hbuilds
  have hbalanced := (Program.exists_ofText_iff text fold).1 hbuilds
  obtain ⟨t, ht⟩ := Tree.exists_of_balanced hbalanced
  obtain ⟨folded, hfolded⟩ := Program.ofText_of_balanced true hbalanced
  obtain ⟨plain, hplain⟩ := Program.ofText_of_balanced false hbalanced
  obtain ⟨b, rfl, htree, hp, -⟩ := Program.places_ofText hfolded ht (Or.inl htext)
  obtain ⟨b', rfl, htree', hp', hone⟩ := Program.places_ofText hplain ht (Or.inl htext)
  exact ⟨_, _, hfolded, hplain,
    m.runsAlike_of_tree hwrite hlimit hp hp' (htree.trans htree'.symm) (hone rfl)⟩

/-- Two reads are joined into one instruction, and the fourth read fails. -/
theorem folding_keeps_meaning_of_reads :
    let io := Streams.ofLists #[.bytes [2], .bytes [3], .bytes [4], .fails ⟨.runtime, "late"⟩] #[]
    let m : Machine := { tape := .blank 2 (by decide) }
    io.host.HasRoomFor "+[,,]".toList ∧ (∃ fold p, Program.ofText "+[,,]".toList fold = .ok p) ∧
    m.limit = none ∧ (∀ k, io.write k = none) ∧
    ∃ folded plain, Program.ofText "+[,,]".toList true = .ok folded ∧
      Program.ofText "+[,,]".toList false = .ok plain ∧ m.RunsAlike io folded plain := by
  intro io m
  have htext : io.host.HasRoomFor "+[,,]".toList := by decide
  have hbuilds : ∃ fold p, Program.ofText "+[,,]".toList fold = .ok p := ⟨true, _, rfl⟩
  have hwrite (k : Nat) : io.write k = none := rfl
  exact ⟨htext, hbuilds, rfl, hwrite, folding_keeps_meaning htext hbuilds m rfl hwrite⟩

end Brainfuck
