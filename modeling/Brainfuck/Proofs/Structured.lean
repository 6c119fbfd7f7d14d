import Brainfuck.Proofs.Running
import Brainfuck.Run.Result

/-!
# Jumps and structure

A program that is built without folding and runs by jumping from bracket to
bracket does what the tree of its text says.

* `Streams.serves_ofBytes`: bytes that are read one by one are what `Feed.list`
  delivers, and reading past the last of them is the only trouble there is
  (`Tree.Eval.eq_exhausted`).
* `Run.result_ne_unfinished_iff` and `Run.exists_result`: what the result of a
  run says of its ending.
* `RunsAsTree` is what there is to be said of a text, an input and a number of
  cells.  It holds for all numbers of cells that memory holds; a larger tape is
  refused before the run.
-/

namespace Brainfuck

/-! ## Bytes as input -/

theorem Streams.serves_ofBytes (host : Host) (input : List UInt8) :
    Serves (.ofBytes input.toArray host) .list input.drop := by
  refine ⟨?_, fun _ => rfl⟩
  intro k
  show Feed.list (input.drop k) = ((Reading.bytes input.toArray[k]?.toList).byte, _)
  rw [List.getElem?_toArray]
  by_cases hk : k < input.length
  · rw [List.drop_eq_getElem_cons hk, List.getElem?_eq_getElem hk]
    rfl
  · rw [List.drop_eq_nil_of_le (by omega), List.drop_eq_nil_of_le (by omega),
      List.getElem?_eq_none (by omega)]
    rfl

theorem Memory.eq_exhausted_of_perform {size : Nat} {m m' : Memory size (List UInt8)}
    {c : Command} {p : Reading.Problem} (h : m.perform .list c = (m', some (.noByte p))) :
    p = .exhausted := by
  cases c with
  | right =>
    rw [perform] at h
    split at h
    · cases h
    · cases h
  | left =>
    rw [perform] at h
    split at h
    · cases h
    · cases h
  | increment => cases h
  | decrement => cases h
  | write => cases h
  | read =>
    rw [perform] at h
    cases hinput : m.input with
    | nil =>
      rw [hinput] at h
      cases h
      rfl
    | cons b rest =>
      rw [hinput] at h
      cases h

theorem Tree.Eval.eq_exhausted {size k : Nat} {t : Tree} {m m' : Memory size (List UInt8)}
    {p : Reading.Problem} (h : Tree.Eval .list t m k m' (some (.noByte p))) : p = .exhausted := by
  generalize hr : some (Trouble.noByte p) = r at h
  induction h with
  | nil m => cases hr
  | next _ _ ih => exact ih hr
  | stop hstep =>
    cases hr
    exact Memory.eq_exhausted_of_perform hstep
  | skip _ _ ih => exact ih hr
  | again _ _ _ _ ih => exact ih hr
  | fail _ _ ih => exact ih hr

/-- A run on bytes never breaks down. -/
theorem Halts.ne_broken {size k : Nat} {unread : Nat → List UInt8} {single : Prop} {t : Tree}
    {m m' : Memory size (List UInt8)} {r : Option Trouble} {s : State} {e : Ending}
    (h : Halts unread single m' r s e) (heval : Tree.Eval .list t m k m' r) (d : Defect) :
    e ≠ .broken d := by
  rintro rfl
  have hkind := h.kind
  cases r with
  | none => cases hkind
  | some trouble =>
    cases trouble with
    | leftTape => cases hkind
    | noByte p =>
      obtain rfl := heval.eq_exhausted
      cases hkind

/-! ## Results -/

theorem Run.result_ne_unfinished_iff (r : Run) :
    r.result ≠ .error .unfinished ↔ r.ending ≠ none := by
  unfold result
  split <;> simp_all

theorem Run.exists_result {r : Run} {e : Ending} (h : r.ending = some e)
    (hdefect : ∀ d, e ≠ .broken d) :
    ∃ failure, failure.map (fun f : Failure => f.cause.kind) = e.kind? ∧
      r.result = .ok ⟨r.written.toList.flatten, r.machine.tape, r.machine.steps, failure⟩ := by
  cases e with
  | finished =>
    refine ⟨none, rfl, ?_⟩
    rw [result, h]
  | failed e =>
    refine ⟨some e, rfl, ?_⟩
    rw [result, h]
  | broken d => exact absurd rfl (hdefect d)

theorem runText_eq {text : List Char} {p : Program} {o : Options} {m : Machine}
    (hp : Program.ofText text o.fold = .ok p)
    (hm : Machine.ofSize o.tapeSize o.limit o.host = .ok m) (input : Input) (rounds : Nat) :
    runText text input o rounds = (m.run p (.ofBytes input.toArray o.host) rounds).result := by
  simp only [runText, hp, Program.run, hm]

/-- A file in an encoding that is known is run as its text. -/
theorem runFile_eq {encoding : String} {e : Text.Encoding}
    (hnull : encoding.toList.contains '\x00' = false)
    (he : Text.Encoding.ofName? encoding = some e) (file : List UInt8) (input : Input)
    (o : Options) (rounds : Nat) :
    runFile file input o encoding rounds = runText (textOfFile e file) input o rounds := by
  simp only [runFile, hnull, he, Bool.false_eq_true, if_false]

/-- Without a machine nothing runs. -/
theorem runText_of_refused {text : List Char} {p : Program} {o : Options} {e : Tape.Error}
    (hp : Program.ofText text o.fold = .ok p)
    (hm : Machine.ofSize o.tapeSize o.limit o.host = .error e) (input : Input) (rounds : Nat) :
    runText text input o rounds = .error (.tape e) := by
  simp only [runText, hp, Program.run, hm]

/-- On bytes, a run that ends has a result, and it is that of the evaluation. -/
theorem Machine.exists_result {host : Host} {size k n : Nat} {b : Block} {input : List UInt8}
    (hp : (Program.ofBlock b).Places host 0 b) (hone : b.All (· = 1)) (m : Machine)
    (hlimit : m.limit = none) (hsize : 0 < size) (htape : m.tape.size = size)
    {m' : Memory size (List UInt8)} {r : Option Trouble}
    (heval : Tree.Eval .list b.tree (.start hsize input) k m' r)
    (hends : (m.run (.ofBlock b) (.ofBytes input.toArray host) n).ending ≠ none) :
    ∃ result, (m.run (.ofBlock b) (.ofBytes input.toArray host) n).result = .ok result ∧
      result.failure.map (fun f => f.cause.kind) = r.map Trouble.kind ∧
      result.output = m'.output ∧ result.tape.cells = m'.cells.toArray ∧
      result.tape.cursor = m'.cursor := by
  rcases Option.ne_none_iff_exists'.1 hends with ⟨e, he⟩
  obtain ⟨s', hrun, hhalts, -⟩ :=
    halts_of_ending (Streams.serves_ofBytes host input) hp m hlimit hsize htape heval he
  rcases Run.exists_result he (hhalts.ne_broken heval) with ⟨failure, hfailure, hresult⟩
  rw [hresult, hrun]
  exact ⟨_, rfl, hfailure.trans hhalts.kind, hhalts.output, hhalts.cells,
    hhalts.cursor (Or.inl hone)⟩

/-! ## Texts as trees -/

/-- The run of a text on an input and a tape of `size` cells does what the text
means as a tree.  There is one such tree.  The run ends if and only if the
evaluation does; then both end normally, or with the same class of error, and
they leave the same output, cells and cursor. -/
def RunsAsTree (host : Host) (text : List Char) (input : List UInt8) (size : Nat)
    (hsize : 0 < size) : Prop :=
  let o : Options := { tapeSize := size, fold := false, host }
  ∃ t : Tree, (t.tokens = Token.ofText text ∧ ∀ u : Tree, u.tokens = Token.ofText text → u = t) ∧
    ((∃ rounds, runText text (.bytes input.toArray) o rounds ≠ .error .unfinished) ↔
      ∃ k m r, Tree.Eval .list t (.start hsize input) k m r) ∧
    ∀ rounds k m r,
      runText text (.bytes input.toArray) o rounds ≠ .error .unfinished →
      Tree.Eval .list t (.start hsize input) k m r →
      ∃ result, runText text (.bytes input.toArray) o rounds = .ok result ∧
        result.failure.map (fun f => f.cause.kind) = r.map Trouble.kind ∧
        result.output = m.output ∧ result.tape.cells = m.cells.toArray ∧
        result.tape.cursor = m.cursor

/-- A text with balanced brackets runs as its tree says, on every tape that the memory of
the host holds.  A size that memory does not hold is refused, and so is on every host a
size that no word holds. -/
theorem runsAsTree_of_balanced {text : List Char} (hbalanced : Text.brackets.Balanced text)
    (input : List UInt8) {size : Nat} (hsize : 0 < size) (host : Host) :
    (size ≤ host.memory → RunsAsTree host text input size hsize) ∧
    (host.memory < size → (size : Int) < wordBound → ∀ rounds,
      runText text (.bytes input.toArray) { tapeSize := size, fold := false, host } rounds =
        .error (.tape (.capacity .memory))) ∧
    (wordBound ≤ (size : Int) → ∀ rounds,
      runText text (.bytes input.toArray) { tapeSize := size, fold := false, host } rounds =
        .error (.tape (.tooLarge size))) := by
  rcases Tree.exists_of_balanced hbalanced with ⟨t, ht⟩
  rcases Program.ofText_of_balanced false hbalanced with ⟨p, hbuild⟩
  let o : Options := { tapeSize := size, fold := false, host }
  refine ⟨?_, ?_, ?_⟩
  · intro hroom
    rcases Program.places_ofText hbuild ht (Or.inr rfl) with ⟨b, rfl, rfl, hp, hone⟩
    let m : Machine :=
      { tape := .blank size hsize (Int.lt_of_le_of_lt (Int.ofNat_le.2 hroom) host.memory_lt) }
    have hm : Machine.ofSize o.tapeSize o.limit o.host = .ok m :=
      Machine.ofSize_natCast hsize hroom none
    have htape : m.tape.size = size := Array.size_replicate
    have heq (rounds : Nat) := runText_eq (o := o) hbuild hm (.bytes input.toArray) rounds
    refine ⟨b.tree, ⟨ht, fun u hu => Tree.tokens_injective (hu.trans ht.symm)⟩, ?_⟩
    simp only [o] at heq
    simp only [heq, Run.result_ne_unfinished_iff]
    constructor
    · exact Machine.exists_ending_iff (Streams.serves_ofBytes host input) hp m rfl hsize htape
    · intro rounds k m' r hends heval
      exact Machine.exists_result hp (hone rfl) m rfl hsize htape heval hends
  · intro hroom hword rounds
    exact runText_of_refused (o := o) hbuild
      (Machine.ofSize_of_roomless (Int.ofNat_lt.2 hroom) hword none) _ rounds
  · intro hword rounds
    exact runText_of_refused (o := o) hbuild (Machine.ofSize_of_tooLarge hword none host) _ rounds

/-- Bytes are copied up to a zero, on two cells.  On a tape that is too large, for memory or
for a word, nothing runs. -/
theorem runsAsTree_of_balanced_copy :
    let host := Host.standard
    let larger : Options := { tapeSize := (0x800000000000 : Nat), fold := false, host }
    let largest : Options := { tapeSize := (0x8000000000000000 : Nat), fold := false, host }
    (Text.brackets.Balanced ",[.,]".toList ∧ 0 < 2 ∧ 2 ≤ host.memory ∧
      RunsAsTree host ",[.,]".toList [7, 0] 2 (by decide)) ∧
    (host.memory < 0x800000000000 ∧ ((0x800000000000 : Nat) : Int) < wordBound ∧ ∀ rounds,
      runText ",[.,]".toList (.bytes [7, 0].toArray) larger rounds =
        .error (.tape (.capacity .memory))) ∧
    wordBound ≤ ((0x8000000000000000 : Nat) : Int) ∧ ∀ rounds,
      runText ",[.,]".toList (.bytes [7, 0].toArray) largest rounds =
        .error (.tape (.tooLarge (0x8000000000000000 : Nat))) := by
  intro host larger largest
  have hbalanced : Text.brackets.Balanced ",[.,]".toList := by decide
  have hroom : 2 ≤ host.memory := by decide
  have hlarger : host.memory < 0x800000000000 := by decide
  have hword : ((0x800000000000 : Nat) : Int) < wordBound := by decide
  have hlargest : wordBound ≤ ((0x8000000000000000 : Nat) : Int) := by decide
  exact ⟨⟨hbalanced, by decide, hroom, (runsAsTree_of_balanced hbalanced _ _ host).1 hroom⟩,
    ⟨hlarger, hword, (runsAsTree_of_balanced hbalanced _ (by decide) host).2.1 hlarger hword⟩,
    hlargest, (runsAsTree_of_balanced hbalanced _ (by decide) host).2.2 hlargest⟩

/-- The empty text would come to its end on a tape of any size, but no tape is so large on any
host. -/
theorem not_runsAsTree_of_tooLarge :
    Text.brackets.Balanced [] ∧ 1 ≤ 0x8000000000000000 ∧
      ∀ host, ¬ RunsAsTree host [] [] 0x8000000000000000 (by decide) := by
  refine ⟨by decide, by decide, ?_⟩
  rintro host ⟨t, ⟨ht, -⟩, -, hends⟩
  obtain rfl : t = .nil := Tree.tokens_injective ht
  have hbuild : Program.ofText [] false = .ok ⟨#[]⟩ := rfl
  have hword : wordBound ≤ ((0x8000000000000000 : Nat) : Int) := by decide
  have hrefused := runText_of_refused
    (o := { tapeSize := (0x8000000000000000 : Nat), fold := false, host }) hbuild
    (Machine.ofSize_of_tooLarge hword none host) (.bytes #[]) 0
  rcases hends 0 0 _ none (by rw [hrefused]; simp) (.nil _) with ⟨result, hresult, -⟩
  rw [hrefused] at hresult
  cases hresult

end Brainfuck
