import Brainfuck.Capacity

/-!
# The tape

A row of at least one cell, each of which holds a byte, and a cursor.  There are
no more cells than a word can count, and no tape is made that the memory of the
host does not hold.  Adding and storing count modulo 256.  `Tape.move?` keeps the
cursor on the tape, and refuses a move that would leave it.  The cursor may also
be set to any place: there, a place at most one tape's length before the first
cell stands for a cell counted from the end, and at every other place there is
no cell.

`Tape.perform` carries out one action and says what came of it.  An action
that is refused leaves the tape as it was.
-/

namespace Brainfuck

/-- A row of cells and a cursor. -/
structure Tape where
  /-- The cells. -/
  cells : Array UInt8
  /-- The place of the cursor. -/
  cursor : Int
  /-- There is at least one cell. -/
  cells_pos : 0 < cells.size
  /-- The number of cells fits into a word. -/
  cells_lt : (cells.size : Int) < wordBound := by decide
deriving DecidableEq, Repr

/-- Why an action on a tape is refused. -/
inductive Tape.Error where
  /-- A tape was asked for that has no cells. -/
  | tooSmall (size : Int)
  /-- The number of cells fits into no word. -/
  | tooLarge (size : Int)
  /-- The cursor would leave the tape.  The instruction that moves it, and the
  place where it stays, are part of the report. -/
  | outside (target : Int) (size : Nat) (ip cursor : Int)
  /-- There is no cell at the cursor. -/
  | noCell (cursor : Int) (size : Nat)
  /-- The place of the cursor fits into a word only if that has no sign. -/
  | cursorTooLarge (cursor : Int)
  /-- The place of the cursor fits into no word, so it cannot be looked for. -/
  | cursorNoIndex (cursor : Int)
  /-- There is no room for the cells, or for a number in the report. -/
  | capacity (e : CapacityError)
deriving DecidableEq, Repr

namespace Tape

/-- The report as a text. -/
def Error.message : Error → String
  | tooSmall size => s!"Tape size must be >= 1: {size}"
  | tooLarge _ => "Maximum allowed dimension exceeded"
  | outside target size _ _ =>
    s!"TapeBoundsError: cursor moved to {target}, outside [0, {size})"
  | noCell cursor size => s!"index {cursor} is out of bounds for axis 0 with size {size}"
  | cursorTooLarge _ => "Python int too large to convert to C long"
  | cursorNoIndex _ =>
    "only integers, slices (`:`), ellipsis (`...`), numpy.newaxis (`None`) and integer or " ++
    "boolean arrays are valid indices"
  | capacity e => e.message

/-- The number of cells. -/
def size (t : Tape) : Nat := t.cells.size

/-- A tape of zeros with the cursor at its first cell. -/
def blank (size : Nat) (h : 0 < size) (hlt : (size : Int) < wordBound := by decide) : Tape where
  cells := Array.replicate size 0
  cursor := 0
  cells_pos := by simpa using h
  cells_lt := by simpa using hlt

/-- A report with a number in it.  It comes about only if the number can be written. -/
def Error.written (number : Int) (e : Error) : Error :=
  if FitsNumeral number then e else .capacity .numeral

/-- A blank tape, unless it would have no cells or too many, or more than memory holds. -/
def ofSize (size : Int) (host : Host := .standard) : Except Error Tape :=
  if h : 1 ≤ size then
    if hlt : size < wordBound then
      if size ≤ host.memory then .ok (blank size.toNat (by omega) (by omega))
      else .error (.capacity .memory)
    else .error (.tooLarge size)
  else .error (.written size (.tooSmall size))

/-- The tape with all cells zero and the cursor at the first one. -/
def reset (t : Tape) : Tape :=
  blank t.size t.cells_pos t.cells_lt

/-- The index of the cell at the cursor, if there is one. -/
def index? (t : Tape) : Option Nat :=
  if 0 ≤ t.cursor then
    if t.cursor < t.size then some t.cursor.toNat else none
  else if 0 ≤ t.size + t.cursor then some (t.size + t.cursor).toNat else none

/-- The report that there is no cell at the cursor. -/
def absence (t : Tape) : Error :=
  if FitsWord t.cursor then .noCell t.cursor t.size
  else if 0 ≤ t.cursor ∧ t.cursor < 2 * wordBound then .cursorTooLarge t.cursor
  else .cursorNoIndex t.cursor

/-- The byte in the cell at the cursor, if there is one. -/
def current? (t : Tape) : Option UInt8 :=
  t.index?.bind fun i => t.cells[i]?

/-- The tape with another byte in the cell at the cursor, if there is one. -/
def put (t : Tape) (b : UInt8) : Tape :=
  match t.index? with
  | some i =>
    { t with
      cells := t.cells.setIfInBounds i b
      cells_pos := by simpa using t.cells_pos
      cells_lt := by simpa using t.cells_lt }
  | none => t

/-- The byte that is `n` more than `b`, modulo 256. -/
def sum (b : UInt8) (n : Int) : UInt8 :=
  UInt8.ofInt (b.toNat + n)

/-- The tape with the cursor at a place on the tape. -/
def move? (t : Tape) (delta : Int) : Option Tape :=
  if 0 ≤ t.cursor + delta ∧ t.cursor + delta < t.size then
    some { t with cursor := t.cursor + delta }
  else none

/-! ## Actions -/

/-- What can be asked of a tape. -/
inductive Action where
  /-- Moves the cursor, on behalf of the instruction at `ip`. -/
  | move (delta : Int) (ip : Int)
  /-- Adds to the current cell. -/
  | add (n : Int)
  /-- Puts a number into the current cell. -/
  | store (n : Int)
  /-- Asks for the byte in the current cell. -/
  | current
  /-- Clears the tape. -/
  | reset
  /-- Sets the cursor to any place. -/
  | setCursor (place : Int)
deriving DecidableEq, Repr

/-- Carries out an action.  It gives the tape afterwards and either a report or
what was asked for. -/
def perform (t : Tape) : Action → Tape × Except Error (Option UInt8)
  | .move delta ip =>
    match t.move? delta with
    | some t => (t, .ok none)
    | none =>
      (t, .error (.written (t.cursor + delta) (.outside (t.cursor + delta) t.size ip t.cursor)))
  | .add n =>
    match t.current? with
    | some b => (t.put (sum b n), .ok none)
    | none => (t, .error t.absence)
  | .store n =>
    match t.current? with
    | some _ => (t.put (UInt8.ofInt n), .ok none)
    | none => (t, .error t.absence)
  | .current =>
    match t.current? with
    | some b => (t, .ok (some b))
    | none => (t, .error t.absence)
  | .reset => (t.reset, .ok none)
  | .setCursor place => ({ t with cursor := place }, .ok none)

/-- Puts the cells below an index that are not zero in front of others. -/
def nonzeroBelow (cells : Array UInt8) : Nat → List (Nat × UInt8) → List (Nat × UInt8)
  | 0, found => found
  | i + 1, found =>
    match cells[i]? with
    | some b => nonzeroBelow cells i (if b = 0 then found else (i, b) :: found)
    | none => nonzeroBelow cells i found

/-- The cells that are not zero, with their indices, in rising order. -/
def nonzero (t : Tape) : List (Nat × UInt8) :=
  nonzeroBelow t.cells t.size []

@[simp] theorem size_reset (t : Tape) : t.reset.size = t.size := by
  simp [reset, blank, size]

@[simp] theorem size_put (t : Tape) (b : UInt8) : (t.put b).size = t.size := by
  unfold put
  split <;> simp [size]

@[simp] theorem cursor_put (t : Tape) (b : UInt8) : (t.put b).cursor = t.cursor := by
  unfold put
  split <;> rfl

@[simp] theorem index?_put (t : Tape) (b : UInt8) : (t.put b).index? = t.index? := by
  simp only [index?, size_put, cursor_put]

/-- The cell at the cursor is counted from the end if the cursor is in front of the first one. -/
theorem index?_eq_some_iff {t : Tape} {i : Nat} :
    t.index? = some i ↔ i < t.size ∧ (i = t.cursor ∨ t.cursor < 0 ∧ i = t.size + t.cursor) := by
  unfold index?
  split
  · split
    · rw [Option.some.injEq]
      omega
    · simp only [reduceCtorEq, false_iff]
      omega
  · split
    · rw [Option.some.injEq]
      omega
    · simp only [reduceCtorEq, false_iff]
      omega

theorem current?_put {t : Tape} {c : UInt8} (h : t.current? = some c) (b : UInt8) :
    (t.put b).current? = some b := by
  obtain ⟨i, hi, hc⟩ := Option.bind_eq_some_iff.1 h
  have hlt := (Array.getElem?_eq_some_iff.1 hc).1
  rw [current?, index?_put, hi, Option.bind_some, put, hi]
  exact Array.getElem?_setIfInBounds_self_of_lt hlt

theorem put_current {t : Tape} {b : UInt8} (h : t.current? = some b) : t.put b = t := by
  obtain ⟨i, hi, hb⟩ := Option.bind_eq_some_iff.1 h
  obtain ⟨hlt, rfl⟩ := Array.getElem?_eq_some_iff.1 hb
  have hcells : t.cells.setIfInBounds i t.cells[i] = t.cells := by
    rw [Array.setIfInBounds, dif_pos hlt, Array.set_getElem_self]
  rw [put, hi]
  simp only [hcells]

theorem put_put (t : Tape) (b c : UInt8) : (t.put b).put c = t.put c := by
  cases hi : t.index? with
  | none => simp [put, hi]
  | some i =>
    have hi' : (t.put b).index? = some i := by rw [index?_put, hi]
    rw [put, hi']
    simp [put, hi]

/-- Only the cell at the cursor changes. -/
theorem getElem?_put {t : Tape} {i : Nat} (h : t.index? ≠ some i) (b : UInt8) :
    (t.put b).cells[i]? = t.cells[i]? := by
  unfold put
  split
  · rename_i j hj
    apply Array.getElem?_setIfInBounds_ne
    rintro rfl
    exact h hj
  · rfl

/-- From a cell of the tape, a move by no more than a word counts leads to a place that can
be written. -/
theorem fitsNumeral_target {t : Tape} {delta : Int} (hnonneg : 0 ≤ t.cursor)
    (hlt : t.cursor < t.size) (hdelta : (delta.natAbs : Int) < wordBound) :
    FitsNumeral (t.cursor + delta) := by
  have hsize : (t.size : Int) < wordBound := t.cells_lt
  unfold wordBound at hdelta hsize
  apply fitsNumeral_of_lt
  omega

theorem toNat_sum (b : UInt8) (n : Int) : ((sum b n).toNat : Int) = (b.toNat + n) % 256 := by
  simp only [sum, UInt8.ofInt, UInt8.toNat_ofNat']
  omega

end Tape

end Brainfuck
