import Brainfuck.Text.Transducer

/-!
# Encodings

How the bytes of a file become characters.  No byte string is refused: what an
encoding cannot read is written as the replacement character U+FFFD.  In UTF-8
one replacement stands for each longest piece that begins a character and
cannot be continued; the byte that breaks it off is then read afresh, so a
broken sequence never swallows an ASCII character.
-/

namespace Brainfuck.Text

/-- Stands for bytes that could not be read. -/
def replacement : Char := '\ufffd'

/-! ## UTF-8 -/

/-- The part of a character that is still missing in UTF-8. -/
structure Utf8Rest where
  /-- How many bytes are owed after the next one. -/
  further : Nat
  /-- The least byte that may come next. -/
  least : Nat
  /-- The greatest byte that may come next. -/
  greatest : Nat
  /-- The bits read so far. -/
  bits : Nat
deriving DecidableEq, Repr

/-- Reads a byte where a character begins. -/
def utf8Lead (b : Nat) : Option Utf8Rest × List Char :=
  if b < 0x80 then (none, [Char.ofNat b])
  else if b < 0xC2 then (none, [replacement])
  else if b < 0xE0 then (some ⟨0, 0x80, 0xBF, b - 0xC0⟩, [])
  else if b = 0xE0 then (some ⟨1, 0xA0, 0xBF, 0⟩, [])
  else if b = 0xED then (some ⟨1, 0x80, 0x9F, b - 0xE0⟩, [])
  else if b < 0xF0 then (some ⟨1, 0x80, 0xBF, b - 0xE0⟩, [])
  else if b = 0xF0 then (some ⟨2, 0x90, 0xBF, 0⟩, [])
  else if b < 0xF4 then (some ⟨2, 0x80, 0xBF, b - 0xF0⟩, [])
  else if b = 0xF4 then (some ⟨2, 0x80, 0x8F, b - 0xF0⟩, [])
  else (none, [replacement])

/-- Reads a byte inside a character: the next part of it, or the first byte
after a piece that breaks off here. -/
def utf8Continue (r : Utf8Rest) (b : Nat) : Option Utf8Rest × List Char :=
  if r.least ≤ b && b ≤ r.greatest then
    let bits := r.bits * 64 + (b - 0x80)
    match r.further with
    | 0 => (none, [Char.ofNat bits])
    | n + 1 => (some ⟨n, 0x80, 0xBF, bits⟩, [])
  else
    let (rest, cs) := utf8Lead b
    (rest, replacement :: cs)

/-- The UTF-8 decoder.  Its state is what is missing of a begun character. -/
def utf8 : Transducer UInt8 Char (Option Utf8Rest) where
  start := none
  step
    | none, b => utf8Lead b.toNat
    | some r, b => utf8Continue r b.toNat
  finish
    | none => []
    | some _ => [replacement]

/-! ## UTF-16 -/

/-- What has been read of a character in UTF-16. -/
structure Utf16Rest where
  /-- The high surrogate that waits for a low one. -/
  high : Option Nat := none
  /-- The first byte of a unit. -/
  byte : Option Nat := none
deriving DecidableEq, Repr

/-- Reads a unit.  A high surrogate without a low one, and a low one without a
high one, is replaced. -/
def utf16Unit (high : Option Nat) (u : Nat) : Utf16Rest × List Char :=
  let isHigh := 0xD800 ≤ u && u < 0xDC00
  let isLow := 0xDC00 ≤ u && u < 0xE000
  match high with
  | some h =>
    if isLow then ({}, [Char.ofNat (0x10000 + (h - 0xD800) * 0x400 + (u - 0xDC00))])
    else if isHigh then ({ high := some u }, [replacement])
    else ({}, [replacement, Char.ofNat u])
  | none =>
    if isLow then ({}, [replacement])
    else if isHigh then ({ high := some u }, [])
    else ({}, [Char.ofNat u])

/-- The decoder of UTF-16 with the lower byte first.  Whatever is left at the
end of a text that breaks off is replaced by one character. -/
def utf16le : Transducer UInt8 Char Utf16Rest where
  start := {}
  step s b :=
    match s.byte with
    | none => ({ s with byte := some b.toNat }, [])
    | some first => utf16Unit s.high (first + 0x100 * b.toNat)
  finish s := if s = {} then [] else [replacement]

/-! ## The encodings by name -/

/-- The encodings a program file may be in. -/
inductive Encoding where
  /-- UTF-8.  A byte order mark is kept, as the character it is. -/
  | utf8
  /-- UTF-8 whose byte order mark, if there is one, is left out. -/
  | utf8Signed
  /-- UTF-16 with the lower byte first. -/
  | utf16le
  /-- Each byte is the code point of its character. -/
  | latin1
  /-- Bytes below 128; the others cannot be read. -/
  | ascii
deriving DecidableEq, Repr

namespace Encoding

/-- A name in plain form: letters in lower case, digits and points, and
wherever anything else stood between them one low line.  `gap` says whether
something else has just been left out. -/
def plainName (gap : Bool) : List Char → List Char
  | [] => []
  | c :: rest =>
    if c.isAlphanum || c = '.' then
      if gap then '_' :: c.toLower :: plainName false rest else c.toLower :: plainName false rest
    else plainName true rest

/-- The encoding that has this plain name besides its own. -/
def ofAlias? : String → Option Encoding
  | "u8" | "utf" | "utf8" | "utf8_ucs2" | "utf8_ucs4" | "cp65001" => some utf8
  | "utf_16le" | "unicodelittleunmarked" => some utf16le
  | "8859" | "cp819" | "csisolatin1" | "ibm819" | "iso8859" | "iso8859_1" | "iso_8859_1"
  | "iso_8859_1_1987" | "iso_ir_100" | "l1" | "latin" | "latin1" => some latin1
  | "646" | "ansi_x3.4_1968" | "ansi_x3_4_1968" | "ansi_x3.4_1986" | "cp367" | "csascii" | "ibm367"
  | "iso646_us" | "iso_646.irv_1991" | "iso_ir_6" | "us" | "us_ascii" => some ascii
  | _ => none

/-- The encoding of this plain name. -/
def ofPlainName? : String → Option Encoding
  | "utf_8" => some utf8
  | "utf_8_sig" => some utf8Signed
  | "utf_16_le" => some utf16le
  | "latin_1" => some latin1
  | "ascii" => some ascii
  | _ => none

/-- The encoding of that name, in any spelling.  In a second name a point may
stand for a low line. -/
def ofName? (name : String) : Option Encoding :=
  let plain := plainName false (name.toList.dropWhile fun c => !(c.isAlphanum || c = '.'))
  let second := plain.map fun c => if c = '.' then '_' else c
  (ofAlias? (String.ofList plain)).or
    ((ofAlias? (String.ofList second)).or (ofPlainName? (String.ofList plain)))

/-- The byte string without the byte order mark in front of it.  One that ends within
the mark is given up as a whole. -/
def dropSignature : List UInt8 → List UInt8
  | [0xEF] | [0xEF, 0xBB] => []
  | 0xEF :: 0xBB :: 0xBF :: rest => rest
  | bytes => bytes

/-- The characters that the bytes stand for. -/
def decode (e : Encoding) (bytes : List UInt8) : List Char :=
  match e with
  | utf8 => Text.utf8.run bytes
  | utf8Signed => Text.utf8.run (dropSignature bytes)
  | utf16le => Text.utf16le.run bytes
  | latin1 => bytes.map fun b => Char.ofNat b.toNat
  | ascii => bytes.map fun b => if b < 0x80 then Char.ofNat b.toNat else replacement

end Encoding

end Brainfuck.Text
