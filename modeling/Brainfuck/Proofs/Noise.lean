import Brainfuck.Proofs.Decoding
import Brainfuck.Proofs.Likeness
import Brainfuck.Proofs.Safety
import Brainfuck.Proofs.Structured

/-!
# What is no symbol has no part

A file may hold anything between its symbols.  It runs as the text of its symbols
alone does: broken pieces of characters, comments, line ends and a byte order mark
make no difference to the program, and so none to the run.

* `Program.run_of_ofText` says that a program which was built runs without a
  defect, on every tape that there is and under every limit that can be written.
* `runText_alike` says that texts which build alike run alike.
* `RunsAsSymbols` is what there is to be said of a file and its symbols.  A tape
  that is too large for memory is refused to both.
-/

namespace Brainfuck

/-! ## Runs of built programs -/

theorem Streams.orderly_ofBytes (input : Array UInt8) (host : Host) :
    (Streams.ofBytes input host).Orderly :=
  ⟨fun _ => trivial, nofun⟩

/-- A program that was built from a text has a result, or has not come to an end. -/
theorem Program.run_of_ofText {text : List Char} {p : Program} {o : Options}
    (hp : ofText text o.fold = .ok p) (htext : o.host.HasRoomFor text ∨ o.fold = false)
    (hpos : 1 ≤ o.tapeSize) (hroom : o.tapeSize ≤ o.host.memory) (hlimit : LimitHasText o.limit)
    (input : Input) (rounds : Nat) :
    (∃ r, p.run input o rounds = .ok r) ∨ p.run input o rounds = .error .unfinished := by
  obtain ⟨b, hlayout, -, hcounts, -⟩ := exists_block_of_ofText hp
  have hnested : p.WellNested := hlayout ▸ wellNested_ofBlock hcounts
  obtain ⟨m, hm, hmlimit⟩ := Machine.exists_ofSize hpos hroom o.limit
  have hrun : p.run input o rounds = (m.run p (.ofBytes input.toArray o.host) rounds).result := by
    simp only [Program.run, hm]
  have horderly := Streams.orderly_ofBytes input.toArray o.host
  obtain ⟨-, hending⟩ := State.run_sound hnested (hasRoom_of_ofText hp htext) horderly rounds
    (m.start_safe p)
  rw [hrun]
  cases he : (m.run p (.ofBytes input.toArray o.host) rounds).ending with
  | none =>
    right
    by_contra hne
    exact (Run.result_ne_unfinished_iff _).1 hne he
  | some e =>
    -- A well-nested program with room for its counts never breaks down.
    have hdefect (d : Defect) (hd : e = .broken d) : False := by
      subst hd
      exact hending (hmlimit ▸ hlimit) _ he
    obtain ⟨failure, -, hresult⟩ := Run.exists_result he hdefect
    exact Or.inl ⟨_, hresult⟩

/-! ## Texts that build alike -/

/-- Both are refused for brackets of the same kind, or neither is for brackets. -/
def LoopsAlike (x y : Except Refusal Result) : Prop :=
  ∀ kind : LoopError.Kind,
    (∃ e, x = .error (.loops e) ∧ e.kind = kind) ↔ ∃ e, y = .error (.loops e) ∧ e.kind = kind

theorem exists_ofText_of_ne_loops {text : List Char} {input : Input} {o : Options} {rounds : Nat}
    (h : ∀ e, runText text input o rounds ≠ .error (.loops e)) :
    ∃ p, Program.ofText text o.fold = .ok p ∧
      runText text input o rounds = p.run input o rounds := by
  unfold runText at h ⊢
  cases hp : Program.ofText text o.fold with
  | ok p => exact ⟨p, rfl, rfl⟩
  | error e =>
    rw [hp] at h
    exact absurd rfl (h e)

/-- Texts that build alike run alike, and are refused alike. -/
theorem runText_alike {text text' : List Char} {o : Options}
    (h : BuildsAlike (Program.ofText text o.fold) (Program.ofText text' o.fold)) (input : Input)
    (rounds : Nat) :
    LoopsAlike (runText text input o rounds) (runText text' input o rounds) ∧
      ((∀ e, runText text' input o rounds ≠ .error (.loops e)) →
        runText text input o rounds = runText text' input o rounds) := by
  unfold runText
  cases hp : Program.ofText text o.fold with
  | ok p =>
    rw [(h.ok_iff p).1 hp]
    exact ⟨fun _ => Iff.rfl, fun _ => rfl⟩
  | error e =>
    obtain ⟨f, hf, hkind, -⟩ := h.exists_error hp
    rw [hf]
    refine ⟨?_, fun hne => absurd rfl (hne f)⟩
    intro kind
    constructor
    · intro ⟨e', he, hkind'⟩
      cases he
      exact ⟨f, rfl, hkind ▸ hkind'⟩
    · intro ⟨e', he, hkind'⟩
      cases he
      exact ⟨e, rfl, hkind.trans hkind'⟩

/-! ## Files -/

/-- A file runs as the text of its symbols does: both are refused for their brackets,
and for the same kind of fault, or both have the same result, or neither comes to an
end. -/
structure RunsAsSymbols (file : List UInt8) (encoding : String) (input : Input) (o : Options) :
    Prop where
  refused : ∀ rounds, LoopsAlike (runFile file input o encoding rounds)
    (runText (Text.ofSymbolBytes file) input o rounds)
  result : ∀ rounds, (∀ e, runText (Text.ofSymbolBytes file) input o rounds ≠ .error (.loops e)) →
    runFile file input o encoding rounds = runText (Text.ofSymbolBytes file) input o rounds ∧
      ((∃ r, runText (Text.ofSymbolBytes file) input o rounds = .ok r) ∨
        runText (Text.ofSymbolBytes file) input o rounds = .error .unfinished)

/-- The names of the encodings that keep to ASCII. -/
def asciiEncodings : List String :=
  ["utf-8", "utf-8-sig", "latin-1", "ascii"]

/-- A file in one of these encodings is run as its text. -/
theorem exists_runFile_eq {encoding : String} (h : encoding ∈ asciiEncodings) :
    ∃ e : Text.Encoding, e ≠ .utf16le ∧ ∀ file input o rounds,
      runFile file input o encoding rounds = runText (textOfFile e file) input o rounds := by
  have hname : encoding.toList.contains '\x00' = false ∧
      ∃ e, e ≠ Text.Encoding.utf16le ∧ Text.Encoding.ofName? encoding = some e := by
    simp only [asciiEncodings, List.mem_cons, List.not_mem_nil, or_false] at h
    rcases h with rfl | rfl | rfl | rfl
    · exact ⟨by decide, .utf8, nofun, by decide +kernel⟩
    · exact ⟨by decide, .utf8Signed, nofun, by decide +kernel⟩
    · exact ⟨by decide, .latin1, nofun, by decide +kernel⟩
    · exact ⟨by decide, .ascii, nofun, by decide +kernel⟩
  obtain ⟨hnull, e, he, hencoding⟩ := hname
  exact ⟨e, he, runFile_eq hnull hencoding⟩

/-- What is no symbol makes no difference to a file, on any tape that memory holds and
under any limit that can be written.  What else becomes of the file becomes of its symbols
too: in particular, a tape that is too large for memory or for a word is refused to both.
The file is in memory itself. -/
theorem runsAsSymbols_of_mem (file : List UInt8) {encoding : String}
    (hencoding : encoding ∈ asciiEncodings) (input : Input) {o : Options}
    (hpos : 1 ≤ o.tapeSize) (hfile : o.host.HasRoomFor file ∨ o.fold = false) :
    (o.tapeSize ≤ o.host.memory → LimitHasText o.limit → RunsAsSymbols file encoding input o) ∧
    ∀ rounds,
      LoopsAlike (runFile file input o encoding rounds)
        (runText (Text.ofSymbolBytes file) input o rounds) ∧
      ((∀ e, runText (Text.ofSymbolBytes file) input o rounds ≠ .error (.loops e)) →
        runFile file input o encoding rounds = runText (Text.ofSymbolBytes file) input o rounds ∧
        (o.host.memory < o.tapeSize → o.tapeSize < wordBound →
          runText (Text.ofSymbolBytes file) input o rounds =
            .error (.tape (.capacity .memory))) ∧
        (wordBound ≤ o.tapeSize →
          runText (Text.ofSymbolBytes file) input o rounds =
            .error (.tape (.tooLarge o.tapeSize)))) := by
  obtain ⟨e, he, hrunFile⟩ := exists_runFile_eq hencoding
  have halike := Program.ofText_alike (ofText_textOfFile he file) o.fold
  have hsymbols : o.host.HasRoomFor (Text.ofSymbolBytes file) ∨ o.fold = false :=
    hfile.imp_left (Nat.le_trans (Text.length_ofSymbolBytes_le file))
  constructor
  · intro hroom hlimit
    constructor
    · intro rounds
      rw [hrunFile]
      exact (runText_alike halike input rounds).1
    · intro rounds hne
      obtain ⟨p, hp, hrun⟩ := exists_ofText_of_ne_loops hne
      rw [hrunFile, (runText_alike halike input rounds).2 hne, hrun]
      exact ⟨rfl, Program.run_of_ofText hp hsymbols hpos hroom hlimit input rounds⟩
  · intro rounds
    rw [hrunFile]
    refine ⟨(runText_alike halike input rounds).1, ?_⟩
    intro hne
    obtain ⟨p, hp, -⟩ := exists_ofText_of_ne_loops hne
    refine ⟨(runText_alike halike input rounds).2 hne, ?_, ?_⟩
    · intro hroom hword
      exact runText_of_refused hp (Machine.ofSize_of_roomless hroom hword o.limit) input rounds
    · intro hword
      exact runText_of_refused hp (Machine.ofSize_of_tooLarge hword o.limit o.host) input rounds

/-- Each symbol follows the beginning of a character that is broken off by it, and the
two equal ones become one instruction.  On a tape that is too large nothing runs. -/
theorem runsAsSymbols_of_mem_broken :
    let file : List UInt8 := [0xE2, 0x2B, 0xF0, 0x9F, 0x2B, 0x0D, 0xC3, 0x2E, 0x80]
    let one : Options := { tapeSize := 1, limit := some 9 }
    let larger : Options := { tapeSize := 0x800000000000 }
    let largest : Options := { tapeSize := 0x8000000000000000 }
    ("utf-8" ∈ asciiEncodings ∧ one.host.HasRoomFor file ∧ Text.ofSymbolBytes file = "++.".toList) ∧
    (1 ≤ one.tapeSize ∧ one.tapeSize ≤ one.host.memory ∧ LimitHasText one.limit ∧
      RunsAsSymbols file "utf-8" (.bytes #[]) one ∧
      ∃ r, runFile file (.bytes #[]) one "utf-8" 3 = .ok r ∧ r.output = [2] ∧ r.steps = 2) ∧
    (1 ≤ larger.tapeSize ∧ larger.host.memory < larger.tapeSize ∧ larger.tapeSize < wordBound ∧
      (∀ e, runText (Text.ofSymbolBytes file) (.bytes #[]) larger 3 ≠ .error (.loops e)) ∧
      runText (Text.ofSymbolBytes file) (.bytes #[]) larger 3 =
        .error (.tape (.capacity .memory))) ∧
    (1 ≤ largest.tapeSize ∧ wordBound ≤ largest.tapeSize ∧
      (∀ e, runText (Text.ofSymbolBytes file) (.bytes #[]) largest 3 ≠ .error (.loops e)) ∧
      runFile file (.bytes #[]) largest "utf-8" 3 =
        runText (Text.ofSymbolBytes file) (.bytes #[]) largest 3 ∧
      runText (Text.ofSymbolBytes file) (.bytes #[]) largest 3 =
        .error (.tape (.tooLarge 0x8000000000000000))) := by
  intro file one larger largest
  have hencoding : "utf-8" ∈ asciiEncodings := by decide
  have hfile : Host.standard.HasRoomFor file := by decide
  have hsymbols : Text.ofSymbolBytes file = "++.".toList := by decide
  have hlimit : LimitHasText one.limit := by
    rintro k ⟨⟩
    exact fitsNumeral_of_lt (by decide)
  have hruns : RunsAsSymbols file "utf-8" (.bytes #[]) one :=
    (runsAsSymbols_of_mem file hencoding _ (by decide) (Or.inl hfile)).1 (by decide) hlimit
  have hresult : ∃ r, runText "++.".toList (.bytes #[]) one 3 = .ok r ∧ r.output = [2] ∧
      r.steps = 2 := ⟨_, rfl, rfl, rfl⟩
  have hpos : 1 ≤ larger.tapeSize := by decide
  have hroom : larger.host.memory < larger.tapeSize := by decide
  have hword : larger.tapeSize < wordBound := by decide
  have hpos' : 1 ≤ largest.tapeSize := by decide
  have hword' : wordBound ≤ largest.tapeSize := by decide
  have hnone : ∀ e,
      runText (Text.ofSymbolBytes file) (.bytes #[]) larger 3 ≠ .error (.loops e) := by
    rw [hsymbols]
    exact nofun
  have hnone' : ∀ e,
      runText (Text.ofSymbolBytes file) (.bytes #[]) largest 3 ≠ .error (.loops e) := by
    rw [hsymbols]
    exact nofun
  refine ⟨⟨hencoding, hfile, hsymbols⟩, ⟨by decide, by decide, hlimit, hruns, ?_⟩,
    ⟨hpos, hroom, hword, hnone, ?_⟩, hpos', hword', hnone', ?_⟩
  · obtain ⟨r, hr, houtput, hsteps⟩ := hresult
    have hsame := (hruns.result 3 (by rw [hsymbols, hr]; exact nofun)).1
    exact ⟨r, by rw [hsame, hsymbols, hr], houtput, hsteps⟩
  · have hlarger := (runsAsSymbols_of_mem file hencoding (.bytes #[]) hpos (Or.inl hfile)).2 3
    exact (hlarger.2 hnone).2.1 hroom hword
  · have hlargest := (runsAsSymbols_of_mem file hencoding (.bytes #[]) hpos' (Or.inl hfile)).2 3
    obtain ⟨hsame, -, hrefused⟩ := hlargest.2 hnone'
    exact ⟨hsame, hrefused hword'⟩

/-- An empty file would come to its end on a tape of any size, but no tape is so large on any
host.  And a limit that cannot be written leaves a run without a result. -/
theorem not_runsAsSymbols_of_tooLarge :
    let unlimited (host : Host) : Options := { tapeSize := 0x8000000000000000, host }
    let limited : Options := { tapeSize := 1, limit := some (-numeralBound) }
    "utf-8" ∈ asciiEncodings ∧
    (∀ host, 1 ≤ (unlimited host).tapeSize ∧
      ¬RunsAsSymbols [] "utf-8" (.bytes #[]) (unlimited host)) ∧
    1 ≤ limited.tapeSize ∧ ¬RunsAsSymbols [0x2B] "utf-8" (.bytes #[]) limited := by
  intro unlimited limited
  have hword : wordBound ≤ 0x8000000000000000 := by decide
  refine ⟨by decide, fun host => ⟨Int.le_trans (by decide) hword, ?_⟩, by decide, ?_⟩
  · intro h
    have hbuild : Program.ofText [] true = .ok ⟨#[]⟩ := rfl
    have hrefused : runText (Text.ofSymbolBytes []) (.bytes #[]) (unlimited host) 0 =
        .error (.tape (.tooLarge 0x8000000000000000)) :=
      runText_of_refused (o := unlimited host) hbuild
        (Machine.ofSize_of_tooLarge hword none host) (.bytes #[]) 0
    obtain ⟨-, ⟨r, hr⟩ | hr⟩ := h.result 0 (by rw [hrefused]; exact nofun)
    · rw [hrefused] at hr
      cases hr
    · rw [hrefused] at hr
      cases hr
  · intro h
    have hrefused : runText (Text.ofSymbolBytes [0x2B]) (.bytes #[]) limited 1 =
        .error (.defect (.capacity .numeral)) := by decide +kernel
    obtain ⟨-, ⟨r, hr⟩ | hr⟩ := h.result 1 (by rw [hrefused]; exact nofun)
    · rw [hrefused] at hr
      cases hr
    · rw [hrefused] at hr
      cases hr

end Brainfuck
