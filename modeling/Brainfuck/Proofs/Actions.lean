import Brainfuck.Proofs.Repetition
import Brainfuck.Proofs.Safety

/-!
# Actions on a tape

What can be said of a tape on which any actions have been carried out.  It may be any
tape, and its cursor may have been set to any place.

* An action many times over is one action.  `Tape.performTimes_move`: the one test
  that a long move makes at its destination decides as the tests of many short moves do
  along the way.  `Tape.performTimes_add`: adding a number many times over is adding a
  multiple, however large.  Both are inductions on the number of actions, with
  `Tape.move?_move` and `Tape.add_add` for the first two of them.
* `Tape.perform_of_error`: an action that is refused leaves the tape as it was.
* `Tape.Touches` says what adding and storing may change, which is one cell.  A cursor
  in front of the first cell stands for a cell counted from the end.
-/

namespace Brainfuck

namespace Tape

/-- The tape after an action, unless the action is refused. -/
def perform? (t : Tape) (a : Action) : Option Tape :=
  match t.perform a with
  | (t', .ok _) => some t'
  | (_, .error _) => none

/-- The tape after an action has been carried out `n` times, unless it is refused once. -/
def performTimes (a : Action) : (n : Nat) → Tape → Option Tape
  | 0, t => some t
  | n + 1, t => (t.perform? a).bind (performTimes a n)

/-- Between `t` and `t'` only the cell at the cursor of `t` may have changed.  A negative
place is counted from the end, and where there is no cell nothing has changed. -/
structure Touches (t t' : Tape) : Prop where
  cursor : t'.cursor = t.cursor
  size : t'.size = t.size
  others : ∀ i : Nat, ¬ (i = t.cursor ∨ t.cursor < 0 ∧ i = t.size + t.cursor) →
    t'.cells[i]? = t.cells[i]?

variable {t t' : Tape}

private theorem natCast_succ_mul (n : Nat) (d : Int) : ((n + 1 : Nat) : Int) * d = d + n * d := by
  rw [Int.natCast_succ, Int.add_mul, Int.one_mul, Int.add_comm]

/-! ## Moves -/

theorem perform?_move (t : Tape) (delta ip : Int) :
    t.perform? (.move delta ip) = t.move? delta := by
  rw [perform?, perform]
  cases t.move? delta with
  | some t' => rfl
  | none => rfl

theorem cells_of_move? {delta : Int} (h : t.move? delta = some t') : t'.cells = t.cells := by
  unfold move? at h
  split at h
  · cases h
    rfl
  · cases h

theorem move?_zero (h : t.Within) : t.move? 0 = some t := by
  have hon : 0 ≤ t.cursor + 0 ∧ t.cursor + 0 < t.size := by
    rw [Int.add_zero]
    exact ⟨h.nonneg, h.lt⟩
  rw [move?, if_pos hon]
  simp only [Int.add_zero]

/-- Two moves are one move, if the first one is not refused. -/
theorem move?_move {d : Int} (h : t.move? d = some t') (e : Int) :
    t'.move? e = t.move? (d + e) := by
  unfold move? at h
  split at h
  · cases h
    have hplace : t.cursor + d + e = t.cursor + (d + e) := Int.add_assoc _ _ _
    simp only [move?, size, hplace]
    rfl
  · cases h

/-- A move that is refused is refused all the more if it goes further the same way. -/
theorem move?_of_refused {d : Int} (ht : t.Within) (h : t.move? d = none) (n : Nat) :
    t.move? ((n + 1 : Nat) * d) = none := by
  have hnonneg := ht.nonneg
  have hlt := ht.lt
  have hout : ¬ (0 ≤ t.cursor + d ∧ t.cursor + d < t.size) := by
    intro hon
    rw [move?, if_pos hon] at h
    cases h
  rw [natCast_succ_mul, move?, if_neg]
  rcases Int.le_total 0 d with hright | hleft
  · have hmore : 0 ≤ (n : Int) * d := Int.mul_nonneg (Int.natCast_nonneg n) hright
    omega
  · have hmore : (n : Int) * d ≤ 0 :=
      Int.mul_nonpos_of_nonneg_of_nonpos (Int.natCast_nonneg n) hleft
    omega

/-- Moving `n` times is moving `n` times as far. -/
theorem performTimes_move (h : t.Within) (d ip : Int) (n : Nat) :
    performTimes (.move d ip) n t = t.move? (n * d) := by
  induction n generalizing t with
  | zero =>
    rw [performTimes, show ((0 : Nat) : Int) * d = 0 from Int.zero_mul d, move?_zero h]
  | succ n ih =>
    rw [performTimes, perform?_move]
    cases hfirst : t.move? d with
    | none => rw [move?_of_refused h hfirst, Option.bind_none]
    | some t' =>
      rw [Option.bind_some, ih (.of_move hfirst), move?_move hfirst, natCast_succ_mul]

/-! ## Sums -/

theorem perform?_add (t : Tape) (n : Int) :
    t.perform? (.add n) = t.current?.map fun b => t.put (sum b n) := by
  rw [perform?, perform]
  cases t.current? with
  | some b => rfl
  | none => rfl

/-- Adding two numbers is adding their sum, whether there is a cell or not. -/
theorem add_add (t : Tape) (a b : Int) :
    ((t.perform? (.add a)).bind fun t' => t'.perform? (.add b)) = t.perform? (.add (a + b)) := by
  rw [perform?_add, perform?_add]
  cases hc : t.current? with
  | none => rfl
  | some c =>
    rw [Option.map_some, Option.bind_some, perform?_add, current?_put hc, Option.map_some,
      Option.map_some, put_put, sum_add]

/-- Adding `n` times is adding `n` times as much, if there is a cell. -/
theorem performTimes_add {b : UInt8} (h : t.current? = some b) (d : Int) (n : Nat) :
    performTimes (.add d) n t = some (t.put (sum b (n * d))) := by
  induction n generalizing t b with
  | zero =>
    rw [performTimes, show ((0 : Nat) : Int) * d = 0 from Int.zero_mul d, sum_zero, put_current h]
  | succ n ih =>
    rw [performTimes, perform?_add, h, Option.map_some, Option.bind_some, ih (current?_put h _),
      put_put, ← sum_add, natCast_succ_mul]

/-! ## What is left alone -/

/-- An action that is refused leaves the tape as it was. -/
theorem perform_of_error {a : Action} {e : Error} (h : (t.perform a).2 = .error e) :
    (t.perform a).1 = t := by
  cases a with
  | move delta ip =>
    rw [perform] at h ⊢
    cases hmove : t.move? delta with
    | none => rfl
    | some t' =>
      rw [hmove] at h
      cases h
  | add n =>
    rw [perform] at h ⊢
    cases hb : t.current? with
    | none => rfl
    | some b =>
      rw [hb] at h
      cases h
  | store n =>
    rw [perform] at h ⊢
    cases hb : t.current? with
    | none => rfl
    | some b =>
      rw [hb] at h
      cases h
  | current =>
    rw [perform]
    cases t.current? with
    | none => rfl
    | some b => rfl
  | reset => cases h
  | setCursor place => cases h

/-- A move changes no cell, whether it is refused or not. -/
theorem cells_perform_move (t : Tape) (delta ip : Int) :
    (t.perform (.move delta ip)).1.cells = t.cells := by
  rw [perform]
  cases hmove : t.move? delta with
  | none => rfl
  | some t' => exact cells_of_move? hmove

theorem Touches.refl (t : Tape) : t.Touches t :=
  ⟨rfl, rfl, fun _ _ => rfl⟩

theorem touches_put (t : Tape) (b : UInt8) : t.Touches (t.put b) := by
  refine ⟨cursor_put t b, size_put t b, ?_⟩
  intro i hi
  apply getElem?_put
  intro hindex
  exact hi (index?_eq_some_iff.1 hindex).2

theorem touches_add (t : Tape) (n : Int) : t.Touches (t.perform (.add n)).1 := by
  rw [perform]
  cases t.current? with
  | none => exact .refl t
  | some b => exact touches_put t _

theorem touches_store (t : Tape) (n : Int) : t.Touches (t.perform (.store n)).1 := by
  rw [perform]
  cases t.current? with
  | none => exact .refl t
  | some b => exact touches_put t _

/-- No action changes the number of cells. -/
theorem size_perform (t : Tape) (a : Action) : (t.perform a).1.size = t.size := by
  cases a with
  | move delta ip => exact congrArg Array.size (t.cells_perform_move delta ip)
  | add n => exact (t.touches_add n).size
  | store n => exact (t.touches_store n).size
  | current =>
    rw [perform]
    cases t.current? with
    | none => rfl
    | some b => rfl
  | reset => exact size_reset t
  | setCursor place => rfl

/-! ## The byte at the cursor -/

theorem toNat_ofInt (n : Int) : ((UInt8.ofInt n).toNat : Int) = n % 256 := by
  have hsum := toNat_sum 0 n
  rwa [sum, show (0 : UInt8).toNat = 0 from rfl, Int.natCast_zero, Int.zero_add] at hsum

theorem current?_add {b : UInt8} (h : t.current? = some b) (n : Int) :
    (t.perform (.add n)).1.current? = some (sum b n) := by
  rw [perform, h]
  exact current?_put h _

theorem current?_store {b : UInt8} (h : t.current? = some b) (n : Int) :
    (t.perform (.store n)).1.current? = some (UInt8.ofInt n) := by
  rw [perform, h]
  exact current?_put h _

/-! ## The result -/

/-- Single moves and single sums, one after the other, are one long move and one large sum.
A move succeeds if and only if all single ones do, and a sum always succeeds. -/
structure RepeatsAsOne (t : Tape) : Prop where
  right : ∀ (n : Nat) (ip ip' : Int),
    performTimes (.move 1 ip) n t = t.perform? (.move n ip')
  left : ∀ (n : Nat) (ip ip' : Int),
    performTimes (.move (-1) ip) n t = t.perform? (.move (-n) ip')
  up : ∀ n : Nat, ∃ t', performTimes (.add 1) n t = some t' ∧ t.perform? (.add n) = some t'
  down : ∀ n : Nat, ∃ t', performTimes (.add (-1)) n t = some t' ∧ t.perform? (.add (-n)) = some t'
  both : ∀ a b : Int, ∃ t' t'', t.perform? (.add a) = some t' ∧ t'.perform? (.add b) = some t'' ∧
    t.perform? (.add (a + b)) = some t''

theorem Within.repeatsAsOne (h : t.Within) : t.RepeatsAsOne := by
  obtain ⟨c, hc⟩ := h.exists_current
  have hadd (n : Int) : t.perform? (.add n) = some (t.put (sum c n)) := by
    rw [perform?_add, hc, Option.map_some]
  refine ⟨?_, ?_, ?_, ?_, ?_⟩
  · intro n ip ip'
    rw [performTimes_move h, perform?_move, Int.mul_one]
  · intro n ip ip'
    rw [performTimes_move h, perform?_move, Int.mul_neg_one]
  · intro n
    exact ⟨_, performTimes_add hc 1 n, by rw [hadd, Int.mul_one]⟩
  · intro n
    exact ⟨_, performTimes_add hc (-1) n, by rw [hadd, Int.mul_neg_one]⟩
  · intro a b
    have hsum := add_add t a b
    rw [hadd a, hadd (a + b), Option.bind_some] at hsum
    exact ⟨_, _, hadd a, hsum, hadd (a + b)⟩

end Tape

/-- On any tape, with its cursor at a cell, actions repeat as one.  And wherever the cursor has
been set: an action that is refused leaves the tape as it was, a move changes no cell,
adding and storing change no cell but the one that the cursor stands for, which they keep
between 0 and 255 by counting modulo 256, and so all cells hold such numbers. -/
theorem actions_repeat_as_one (t : Tape) :
    (t.Within → t.RepeatsAsOne) ∧
    (∀ a e, (t.perform a).2 = .error e → (t.perform a).1 = t) ∧
    (∀ delta ip, (t.perform (.move delta ip)).1.cells = t.cells) ∧
    (∀ n, t.Touches (t.perform (.add n)).1 ∧ t.Touches (t.perform (.store n)).1) ∧
    (∀ n b, t.current? = some b →
      (∃ c, (t.perform (.add n)).1.current? = some c ∧ (c.toNat : Int) = (b.toNat + n) % 256) ∧
      ∃ c, (t.perform (.store n)).1.current? = some c ∧ (c.toNat : Int) = n % 256) ∧
    ∀ a, ∀ b ∈ (t.perform a).1.cells, b.toNat ≤ 255 := by
  refine ⟨fun h => h.repeatsAsOne, fun a e h => t.perform_of_error h, t.cells_perform_move,
    fun n => ⟨t.touches_add n, t.touches_store n⟩, ?_, ?_⟩
  · intro n b hb
    exact ⟨⟨_, Tape.current?_add hb n, Tape.toNat_sum b n⟩,
      _, Tape.current?_store hb n, Tape.toNat_ofInt n⟩
  · intro a b _
    exact Nat.le_of_lt_succ b.toNat_lt

/-- Six hundred is added to the second of three cells, from which two moves lead off the
tape.  Three places in front of the first cell the cursor still stands for that cell, and one
further on for none. -/
theorem actions_repeat_as_one_at_edges :
    let t : Tape := ⟨#[7, 250, 0], 1, by decide, by decide⟩
    let front : Tape := { t with cursor := -3 }
    let beyond : Tape := { t with cursor := -4 }
    (t.Within ∧ Tape.performTimes (.move 1 0) 2 t = none ∧
      Tape.performTimes (.add 1) 600 t = some ⟨#[7, 82, 0], 1, by decide, by decide⟩) ∧
    (front.current? = some 7 ∧ ∃ c, (front.perform (.add (-8))).1.current? = some c ∧
      (c.toNat : Int) = (7 - 8) % 256) ∧
    (beyond.perform (.store 1)).2 = .error (.noCell (-4) 3) ∧
      (beyond.perform (.store 1)).1 = beyond := by
  intro t front beyond
  have hwithin : t.Within := ⟨by decide, by decide⟩
  have hcurrent : front.current? = some 7 := by decide
  have hrefused : (beyond.perform (.store 1)).2 = .error (.noCell (-4) 3) := by decide
  have hrepeats := (actions_repeat_as_one t).1 hwithin
  obtain ⟨t', htimes, honce⟩ := hrepeats.up 600
  have hsum : t.perform? (.add (600 : Nat)) = some ⟨#[7, 82, 0], 1, by decide, by decide⟩ := by
    decide
  refine ⟨⟨hwithin, ?_, ?_⟩, ⟨hcurrent, ?_⟩, hrefused, ?_⟩
  · rw [hrepeats.right 2 0 0]
    decide
  · rw [htimes, ← honce, hsum]
  · exact ((actions_repeat_as_one front).2.2.2.2.1 (-8) 7 hcurrent).1
  · exact (actions_repeat_as_one beyond).2.1 _ _ hrefused

end Brainfuck
