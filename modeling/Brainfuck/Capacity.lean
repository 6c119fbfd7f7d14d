/-!
# Numbers and memory

Counts, indices and places are integers of any size.  Three things bound them.

* Where one of them is to become the length of a row or the index into a row,
  it has to fit into a signed word of 64 bits.  A number that does not is
  refused, whatever its sign.
* A row must also fit into the memory of the host.  How much that is, the host
  says; it is always less than the words can count.
* A number is written in decimal notation with at most 4300 digits.

A row of equal items is made by `copies`, and rows are put behind each other by
`join`.  `copies_of_le` and `join_of_hasRoomFor` say that nothing stands in their way
as long as memory holds what they make.
-/

namespace Brainfuck

/-! ## The host -/

/-- The least number that is too large for a signed word. -/
def wordBound : Int := 0x8000000000000000

/-- The number fits into a signed word. -/
def FitsWord (n : Int) : Prop :=
  -wordBound ≤ n ∧ n < wordBound

instance decidableFitsWord (n : Int) : Decidable (FitsWord n) :=
  inferInstanceAs (Decidable (_ ∧ _))

/-- What everything runs on. -/
structure Host where
  /-- The greatest length of a row in memory. -/
  memory : Nat
  /-- There is some. -/
  memory_pos : 0 < memory
  /-- Every length in memory fits into a word. -/
  memory_lt : (memory : Int) < wordBound
deriving DecidableEq, Repr

/-- A host that tells 47 bits of address apart.  It is meant where nothing is said of the
host. -/
def Host.standard : Host where
  memory := 0x7FFFFFFFFFFF
  memory_pos := by decide
  memory_lt := by decide

/-- The row fits into memory. -/
def Host.HasRoomFor {α : Type} (host : Host) (xs : List α) : Prop :=
  xs.length ≤ host.memory

instance Host.decidableHasRoomFor {α : Type} (host : Host) (xs : List α) :
    Decidable (host.HasRoomFor xs) :=
  inferInstanceAs (Decidable (_ ≤ _))

/-! ## Numerals -/

/-- The largest number of digits with which a number is read or written. -/
def maxDigits : Nat := 4300

/-- The least number that has more digits.  It is not unfolded unasked, since it is not to be
computed in passing. -/
@[irreducible] def numeralBound : Nat :=
  Nat.pow 10 maxDigits

/-- The number can be written. -/
def FitsNumeral (n : Int) : Prop :=
  n.natAbs < numeralBound

instance decidableFitsNumeral (n : Int) : Decidable (FitsNumeral n) :=
  inferInstanceAs (Decidable (_ < _))

/-- What a word can count, and twice as much, has far fewer digits. -/
theorem fitsNumeral_of_lt {n : Int} (h : n.natAbs < 100000000000000000000) : FitsNumeral n :=
  Nat.lt_of_lt_of_le h (by decide +kernel)

/-! ## Rows -/

/-- Why a row or a numeral cannot be had. -/
inductive CapacityError where
  /-- The number of items fits into no word. -/
  | word
  /-- The row does not fit into memory. -/
  | memory
  /-- The items of all the rows together are more than a word can count. -/
  | joined
  /-- The numeral would have too many digits. -/
  | numeral
deriving DecidableEq, Repr

/-- The refusal as a text.  Nothing is said of memory. -/
def CapacityError.message : CapacityError → String
  | word => "cannot fit 'int' into an index-sized integer"
  | memory => ""
  | joined => "join() result is too long for a Python string"
  | numeral =>
    s!"Exceeds the limit ({maxDigits} digits) for integer string conversion; " ++
    "use sys.set_int_max_str_digits() to increase the limit"

/-- A row of `count` copies.  It is empty for a count below one. -/
def copies {α : Type} (host : Host) (count : Int) (x : α) : Except CapacityError (List α) :=
  if ¬FitsWord count then .error .word
  else if (host.memory : Int) < count then .error .memory
  else .ok (List.replicate count.toNat x)

/-- The rows behind each other. -/
def join {α : Type} (host : Host) (rows : List (List α)) : Except CapacityError (List α) :=
  if wordBound ≤ (rows.flatten.length : Int) then .error .joined
  else if host.HasRoomFor rows.flatten then .ok rows.flatten
  else .error .memory

theorem copies_of_le {α : Type} {host : Host} {count : Int} (hlow : -wordBound ≤ count)
    (hhigh : count ≤ host.memory) (x : α) :
    copies host count x = .ok (List.replicate count.toNat x) := by
  have hfits : FitsWord count := ⟨hlow, Int.lt_of_le_of_lt hhigh host.memory_lt⟩
  simp [copies, hfits, Int.not_lt.2 hhigh]

theorem join_of_hasRoomFor {α : Type} {host : Host} {rows : List (List α)}
    (h : host.HasRoomFor rows.flatten) : join host rows = .ok rows.flatten := by
  have hword : ¬wordBound ≤ (rows.flatten.length : Int) :=
    Int.not_le.2 (Int.lt_of_le_of_lt (Int.ofNat_le.2 h) host.memory_lt)
  rw [join, if_neg hword, if_pos h]

/-- What is joined is the rows behind each other, and memory holds it. -/
theorem join_eq_ok_iff {α : Type} {host : Host} {rows : List (List α)} {xs : List α} :
    join host rows = .ok xs ↔ rows.flatten = xs ∧ host.HasRoomFor xs := by
  constructor
  · intro h
    unfold join at h
    split at h
    · cases h
    · split at h <;> cases h
      exact ⟨rfl, ‹_›⟩
  · rintro ⟨rfl, h⟩
    exact join_of_hasRoomFor h

end Brainfuck
