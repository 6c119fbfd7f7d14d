import Brainfuck.Proofs.Drawing
import Brainfuck.Run.Result
import Mathlib.Algebra.Group.Nat.Defs
import Mathlib.Tactic.SplitIfs

/-!
# Decoding keeps the symbols

The bytes of a file that are symbols in ASCII come through every decoder that
keeps to ASCII, and nothing else comes out of it as a symbol.

* `Transducer.filter_run` says this of any transducer, if it holds of each step.
  A transducer may need an invariant of its states for that.
* For UTF-8 the invariant is `Utf8Rest.BeyondAscii`: whatever bytes are still
  missing of a character, none of them is in ASCII, and neither is the character.
  A sequence that is too long for its character would break it, and is refused by
  the bounds on the second byte.
* `Encoding.filter_decode` is the result for the encodings, and
  `ofText_textOfFile` the one for files, with their line ends unified.
-/

namespace Brainfuck

namespace Text

/-- Whether the character is a symbol. -/
def isSymbol (c : Char) : Bool :=
  (Token.ofChar? c).isSome

/-- The character with the number of the byte. -/
def charOfByte (b : UInt8) : Char :=
  Char.ofNat b.toNat

/-- The text of those bytes alone that are symbols in ASCII. -/
def ofSymbolBytes (file : List UInt8) : List Char :=
  (file.filter fun b => isSymbol (charOfByte b)).map charOfByte

theorem length_ofSymbolBytes_le (file : List UInt8) :
    (ofSymbolBytes file).length ≤ file.length := by
  rw [ofSymbolBytes, List.length_map]
  exact List.length_filter_le _ _

/-! ## Characters beyond ASCII -/

/-- Symbols are in ASCII. -/
theorem toNat_of_isSymbol {c : Char} (h : isSymbol c = true) : 0 < c.toNat ∧ c.toNat < 0x80 := by
  obtain ⟨t, ht⟩ := Option.isSome_iff_exists.1 h
  have hc := Token.ofChar?_eq_some_iff.1 ht
  cases t with
  | command k => cases k <;> cases hc <;> decide
  | loopOpen | loopClose => cases hc; decide
  | endOfText => cases hc

/-- A number beyond ASCII is that of no symbol. -/
theorem isSymbol_ofNat {n : Nat} (h : 0x80 ≤ n) : isSymbol (Char.ofNat n) = false := by
  rw [Bool.eq_false_iff]
  intro hsymbol
  have hbounds := toNat_of_isSymbol hsymbol
  by_cases hvalid : n.isValidChar
  · rw [Char.ofNat, dif_pos hvalid] at hbounds
    have hn : (Char.ofNatAux n hvalid).toNat = n := rfl
    omega
  · rw [Char.ofNat, dif_neg hvalid] at hbounds
    exact absurd hbounds.1 (by decide)

theorem isSymbol_replacement : isSymbol replacement = false := by decide

/-! ## Transducers -/

/-- What each step keeps, the whole run keeps. -/
theorem Transducer.filter_run {α β σ : Type} (t : Transducer α β σ) (p : β → Bool)
    (kept : α → List β) (invariant : σ → Prop) (hstart : invariant t.start)
    (hstep : ∀ s x, invariant s →
      invariant (t.step s x).1 ∧ (t.step s x).2.filter p = kept x)
    (hfinish : ∀ s, invariant s → (t.finish s).filter p = []) (xs : List α) :
    (t.run xs).filter p = xs.flatMap kept := by
  have hfeed (s : σ) (hs : invariant s) : (t.feed s #[] xs).filter p = xs.flatMap kept := by
    induction xs generalizing s with
    | nil =>
      rw [feed_nil]
      exact hfinish s hs
    | cons x xs ih =>
      obtain ⟨hnext, hkept⟩ := hstep s x hs
      rw [feed_cons, List.filter_append, hkept, ih _ hnext, List.flatMap_cons]
  exact hfeed t.start hstart

/-- Unified line ends are no symbols, and all else stays. -/
theorem filter_unifyNewlines (cs : List Char) :
    (unifyNewlines cs).filter isSymbol = cs.filter isSymbol := by
  have hrun := newlines.filter_run isSymbol (fun c => [c].filter isSymbol) (fun _ => True) trivial
    (by
      intro afterReturn c _
      refine ⟨trivial, ?_⟩
      unfold newlines
      by_cases hreturn : c = '\r'
      · subst hreturn
        rfl
      · by_cases hfeed : c = '\n'
        · subst hfeed
          cases afterReturn <;> rfl
        · simp only [hreturn, hfeed, if_false, decide_false, Bool.false_and, Bool.false_eq_true])
    (fun _ _ => rfl) cs
  rw [unifyNewlines, hrun, ← List.filter_flatMap, List.flatMap_singleton']

/-! ## UTF-8 -/

/-- What is missing of the character can only come to a number beyond ASCII, by
bytes that are all beyond ASCII. -/
def Utf8Rest.BeyondAscii (r : Utf8Rest) : Prop :=
  0x80 ≤ r.least ∧ 0x80 ≤ (r.bits * 64 + (r.least - 0x80)) * 64 ^ r.further

/-- The symbol that a byte is, as a text. -/
def keptOfByte (b : Nat) : List Char :=
  [Char.ofNat b].filter isSymbol

theorem keptOfByte_of_le {b : Nat} (h : 0x80 ≤ b) : keptOfByte b = [] := by
  simp [keptOfByte, isSymbol_ofNat h]

namespace Utf8Rest

/-- A decoder expects nothing, or else something beyond ASCII. -/
def Expected (s : Option Utf8Rest) : Prop :=
  ∀ r, s = some r → r.BeyondAscii

theorem expected_none : Expected none :=
  nofun

theorem expected_some {further least greatest bits : Nat} (hleast : 0x80 ≤ least)
    (hbits : 0x80 ≤ (bits * 64 + (least - 0x80)) * 64 ^ further) :
    Expected (some ⟨further, least, greatest, bits⟩) := by
  intro r hr
  cases hr
  exact ⟨hleast, hbits⟩

end Utf8Rest

/-- A byte at the beginning of a character. -/
theorem utf8Lead_keeps (b : Nat) :
    Utf8Rest.Expected (utf8Lead b).1 ∧ (utf8Lead b).2.filter isSymbol = keptOfByte b := by
  by_cases hascii : b < 0x80
  · rw [utf8Lead, if_pos hascii]
    exact ⟨Utf8Rest.expected_none, rfl⟩
  · rw [keptOfByte_of_le (by omega), utf8Lead, if_neg hascii]
    split_ifs
    · exact ⟨Utf8Rest.expected_none, rfl⟩
    · exact ⟨Utf8Rest.expected_some (by decide) (by omega), rfl⟩
    · exact ⟨Utf8Rest.expected_some (by decide) (by decide), rfl⟩
    · exact ⟨Utf8Rest.expected_some (by decide) (by omega), rfl⟩
    · exact ⟨Utf8Rest.expected_some (by decide) (by omega), rfl⟩
    · exact ⟨Utf8Rest.expected_some (by decide) (by decide), rfl⟩
    · exact ⟨Utf8Rest.expected_some (by decide) (by omega), rfl⟩
    · exact ⟨Utf8Rest.expected_some (by decide) (by omega), rfl⟩
    · exact ⟨Utf8Rest.expected_none, rfl⟩

/-- A byte inside a character.  If it breaks the character off it is read like one
at the beginning, so it is not lost. -/
theorem utf8Continue_keeps {r : Utf8Rest} (hr : r.BeyondAscii) (b : Nat) :
    Utf8Rest.Expected (utf8Continue r b).1 ∧
      (utf8Continue r b).2.filter isSymbol = keptOfByte b := by
  obtain ⟨hleast, hbits⟩ := hr
  by_cases hin : r.least ≤ b ∧ b ≤ r.greatest
  · -- The least byte already leads beyond ASCII, and this one leads no less far.
    have hmore : (r.bits * 64 + (r.least - 0x80)) * 64 ^ r.further ≤
        (r.bits * 64 + (b - 0x80)) * 64 ^ r.further :=
      Nat.mul_le_mul_right _ (by omega)
    rw [keptOfByte_of_le (by omega), utf8Continue, if_pos (by simpa using hin)]
    cases hfurther : r.further with
    | zero =>
      rw [hfurther, Nat.pow_zero, Nat.mul_one] at hbits hmore
      rw [Nat.mul_one] at hmore
      refine ⟨Utf8Rest.expected_none, ?_⟩
      simp [isSymbol_ofNat (Nat.le_trans hbits hmore)]
    | succ n =>
      rw [hfurther] at hbits hmore
      refine ⟨Utf8Rest.expected_some (Nat.le_refl _) ?_, rfl⟩
      rw [Nat.sub_self, Nat.add_zero, Nat.mul_assoc, ← Nat.pow_succ']
      exact Nat.le_trans hbits hmore
  · obtain ⟨hexpected, hkept⟩ := utf8Lead_keeps b
    rw [utf8Continue, if_neg (by simpa using hin)]
    refine ⟨hexpected, ?_⟩
    rw [List.filter_cons_of_neg (by simp [isSymbol_replacement]), hkept]

/-- UTF-8 keeps the symbols, whatever else the bytes are. -/
theorem filter_utf8 (bytes : List UInt8) :
    (utf8.run bytes).filter isSymbol = bytes.flatMap fun b => keptOfByte b.toNat := by
  apply utf8.filter_run isSymbol _ Utf8Rest.Expected Utf8Rest.expected_none
  · intro s b hs
    cases s with
    | none => exact utf8Lead_keeps b.toNat
    | some r => exact utf8Continue_keeps (hs r rfl) b.toNat
  · intro s _
    cases s <;> rfl

/-! ## Encodings -/

/-- An encoding of single bytes keeps the symbols if it keeps those of each byte. -/
theorem filter_map_bytes {f : UInt8 → Char}
    (hf : ∀ b, [f b].filter isSymbol = keptOfByte b.toNat) (bytes : List UInt8) :
    (bytes.map f).filter isSymbol = bytes.flatMap fun b => keptOfByte b.toNat := by
  rw [List.map_eq_flatMap, List.filter_flatMap]
  simp only [hf]

theorem flatMap_keptOfByte (bytes : List UInt8) :
    (bytes.flatMap fun b => keptOfByte b.toNat) = ofSymbolBytes bytes := by
  rw [← filter_map_bytes (f := charOfByte) (fun _ => rfl), List.filter_map]
  rfl

/-- What is no character of ASCII is replaced, and was no symbol. -/
theorem filter_ascii (b : UInt8) :
    [if b < 0x80 then Char.ofNat b.toNat else replacement].filter isSymbol =
      keptOfByte b.toNat := by
  by_cases hascii : b < 0x80
  · rw [if_pos hascii]
    rfl
  · have hbeyond : 0x80 ≤ b.toNat := UInt8.le_iff_toNat_le.1 (UInt8.not_lt.1 hascii)
    rw [if_neg hascii, keptOfByte_of_le hbeyond]
    rfl

/-- The bytes of a byte order mark are no symbols, and no more are those of its beginning. -/
theorem ofSymbolBytes_dropSignature (bytes : List UInt8) :
    ofSymbolBytes (Encoding.dropSignature bytes) = ofSymbolBytes bytes := by
  unfold Encoding.dropSignature
  split <;> rfl

/-- An encoding that keeps to ASCII keeps the symbols, whatever else the bytes are. -/
theorem Encoding.filter_decode {e : Encoding} (he : e ≠ .utf16le) (bytes : List UInt8) :
    (e.decode bytes).filter isSymbol = ofSymbolBytes bytes := by
  cases e with
  | utf8 => rw [decode, filter_utf8, flatMap_keptOfByte]
  | utf8Signed => rw [decode, filter_utf8, flatMap_keptOfByte, ofSymbolBytes_dropSignature]
  | utf16le => exact absurd rfl he
  | latin1 => rw [decode, filter_map_bytes (fun _ => rfl), flatMap_keptOfByte]
  | ascii => rw [decode, filter_map_bytes filter_ascii, flatMap_keptOfByte]

end Text

/-! ## Files -/

/-- What stands between the symbols of a text spells nothing. -/
theorem Token.ofText_filter (text : List Char) :
    ofText (text.filter Text.isSymbol) = ofText text := by
  rw [ofText, ofText, List.filterMap_filter]
  congr 1
  funext c
  unfold Text.isSymbol
  cases ofChar? c <;> rfl

/-- The text of a file spells what its symbols spell alone. -/
theorem ofText_textOfFile {e : Text.Encoding} (he : e ≠ .utf16le) (file : List UInt8) :
    Token.ofText (textOfFile e file) = Token.ofText (Text.ofSymbolBytes file) := by
  rw [← Token.ofText_filter, textOfFile, Text.filter_unifyNewlines, Text.Encoding.filter_decode he]

end Brainfuck
