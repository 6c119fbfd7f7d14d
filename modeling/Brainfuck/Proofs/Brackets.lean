import Mathlib.Data.List.Induction

/-!
# Rows with brackets

Nesting in a row of any items, of which one is an opening and one is a closing
bracket.  A text is such a row of characters, and a list of tokens is one of
tokens.

There are four groups.

* The depth of a row counts its opening brackets against its closing ones.  A
  row has no stray bracket if no beginning of it is below zero, and it is
  balanced if in addition the depth of the whole is zero.
* `exists_stray` finds the first stray bracket of a row that has one.
* An opening bracket is never closed if the row behind it has no stray
  bracket.  `unclosed` counts the opening brackets of this kind,
  `unclosed_eq_depth` says that the depth is their number, and
  `exists_opening` finds each of them by the depth before it.
  `exists_last_opening` finds the last one, and `length_le_of_depth_eq_zero`
  says that it is the last.
* A row may also be gone through without a stop, passing over each closing bracket
  that meets nothing open.  `strays` are the indices of these, and `kept` is the
  row without them.
-/

namespace Brainfuck

/-- An opening and a closing bracket among items of one type. -/
structure Brackets (α : Type) where
  /-- The opening bracket. -/
  opening : α
  /-- The closing bracket. -/
  closing : α
  /-- The two can be told apart. -/
  opening_ne_closing : opening ≠ closing

namespace Brackets

variable {α : Type} [DecidableEq α] (b : Brackets α)

/-! ## Depth -/

/-- How many more opening than closing brackets there are. -/
def depth (xs : List α) : Int :=
  (xs.count b.opening : Int) - xs.count b.closing

/-- No beginning of the row has more closing than opening brackets. -/
def NoStray (xs : List α) : Prop :=
  ∀ p, p <+: xs → 0 ≤ b.depth p

/-- No beginning has more closing than opening brackets, and the whole row has
as many of the one kind as of the other. -/
def Balanced (xs : List α) : Prop :=
  b.NoStray xs ∧ b.depth xs = 0

@[simp] theorem depth_nil : b.depth [] = 0 := by
  simp [depth]

@[simp] theorem depth_append (xs ys : List α) :
    b.depth (xs ++ ys) = b.depth xs + b.depth ys := by
  simp only [depth, List.count_append]
  omega

theorem depth_cons (x : α) (xs : List α) : b.depth (x :: xs) = b.depth [x] + b.depth xs :=
  b.depth_append [x] xs

@[simp] theorem depth_opening : b.depth [b.opening] = 1 := by
  have hne := b.opening_ne_closing
  simp [depth, hne]

@[simp] theorem depth_closing : b.depth [b.closing] = -1 := by
  have hne := b.opening_ne_closing
  simp [depth, hne.symm]

theorem depth_other {x : α} (ho : x ≠ b.opening) (hc : x ≠ b.closing) : b.depth [x] = 0 := by
  simp [depth, ho, hc]

/-- The three kinds of items. -/
theorem depth_singleton_cases (x : α) :
    x = b.opening ∧ b.depth [x] = 1 ∨ x = b.closing ∧ b.depth [x] = -1 ∨
      x ≠ b.opening ∧ x ≠ b.closing ∧ b.depth [x] = 0 := by
  by_cases ho : x = b.opening
  · subst ho
    exact Or.inl ⟨rfl, b.depth_opening⟩
  · by_cases hc : x = b.closing
    · subst hc
      exact Or.inr (Or.inl ⟨rfl, b.depth_closing⟩)
    · exact Or.inr (Or.inr ⟨ho, hc, b.depth_other ho hc⟩)

/-! ## Stray brackets -/

@[simp] theorem noStray_nil : b.NoStray [] := by
  intro p hp
  obtain rfl := List.prefix_nil.1 hp
  exact Int.le_of_eq b.depth_nil.symm

variable {b}

theorem NoStray.depth_nonneg {xs : List α} (h : b.NoStray xs) : 0 ≤ b.depth xs :=
  h xs (List.prefix_refl xs)

theorem NoStray.of_append {xs ys : List α} (h : b.NoStray (xs ++ ys)) : b.NoStray xs :=
  fun p hp => h p (hp.trans (List.prefix_append xs ys))

theorem noStray_append_singleton {xs : List α} {x : α} :
    b.NoStray (xs ++ [x]) ↔ b.NoStray xs ∧ 0 ≤ b.depth (xs ++ [x]) := by
  constructor
  · intro h
    exact ⟨h.of_append, h.depth_nonneg⟩
  · rintro ⟨hxs, hx⟩ p hp
    rcases List.prefix_concat_iff.1 hp with rfl | hp
    · exact hx
    · exact hxs p hp

theorem not_noStray_of_depth_eq_zero {xs : List α} (h : b.depth xs = 0) :
    ¬ b.NoStray (xs ++ [b.closing]) := by
  intro hn
  have hd := hn.depth_nonneg
  rw [depth_append, depth_closing, h] at hd
  omega

/-- A row with a stray bracket has a first one, and nothing is open before it. -/
theorem exists_stray {xs : List α} (h : ¬ b.NoStray xs) :
    ∃ before after, xs = before ++ b.closing :: after ∧ b.NoStray before ∧
      b.depth before = 0 := by
  induction xs using List.reverseRecOn with
  | nil => exact absurd b.noStray_nil h
  | append_singleton xs x ih =>
    by_cases hxs : b.NoStray xs
    · have hdepth : b.depth (xs ++ [x]) < 0 := by
        by_contra hd
        exact h (noStray_append_singleton.2 ⟨hxs, by omega⟩)
      have hpos := hxs.depth_nonneg
      rw [depth_append] at hdepth
      rcases b.depth_singleton_cases x with ⟨-, hx⟩ | ⟨rfl, hx⟩ | ⟨-, -, hx⟩
      · omega
      · exact ⟨xs, [], rfl, hxs, by omega⟩
      · omega
    · rcases ih hxs with ⟨before, after, rfl, hbefore, hzero⟩
      exact ⟨before, after ++ [x], by simp, hbefore, hzero⟩

variable (b)

/-- The depth of the deepest fall among the beginnings of a row. -/
def lowest : List α → Int
  | [] => 0
  | x :: xs => min 0 (b.depth [x] + lowest xs)

theorem le_lowest_iff {k : Int} {xs : List α} :
    k ≤ b.lowest xs ↔ ∀ p, p <+: xs → k ≤ b.depth p := by
  induction xs generalizing k with
  | nil => simp [lowest]
  | cons x xs ih =>
    have hstep : k ≤ b.depth [x] + b.lowest xs ↔ k - b.depth [x] ≤ b.lowest xs := by omega
    rw [lowest, Int.le_min, hstep, ih]
    constructor
    · rintro ⟨hzero, hrest⟩ p hp
      rcases List.prefix_cons_iff.1 hp with rfl | ⟨q, rfl, hq⟩
      · rw [depth_nil]
        exact hzero
      · have := hrest q hq
        rw [depth_cons]
        omega
    · intro h
      refine ⟨by simpa using h [] List.nil_prefix, ?_⟩
      intro q hq
      have := h (x :: q) (List.prefix_cons_iff.2 (Or.inr ⟨q, rfl, hq⟩))
      rw [depth_cons] at this
      omega

theorem noStray_iff_lowest {xs : List α} : b.NoStray xs ↔ 0 ≤ b.lowest xs :=
  b.le_lowest_iff.symm

instance decidableNoStray (xs : List α) : Decidable (b.NoStray xs) :=
  decidable_of_iff (0 ≤ b.lowest xs) b.noStray_iff_lowest.symm

instance decidableBalanced (xs : List α) : Decidable (b.Balanced xs) :=
  inferInstanceAs (Decidable (_ ∧ _))

/-! ## Brackets that are never closed -/

/-- How many opening brackets are never closed: what is behind such a bracket
has no beginning with more closing than opening ones. -/
def unclosed : List α → Nat
  | [] => 0
  | x :: xs => unclosed xs + if x = b.opening ∧ b.NoStray xs then 1 else 0

theorem unclosed_eq_sub (xs : List α) : (b.unclosed xs : Int) = b.depth xs - b.lowest xs := by
  induction xs with
  | nil => simp [unclosed, lowest]
  | cons x xs ih =>
    have hnonpos : b.lowest xs ≤ 0 := by
      cases xs with
      | nil => exact Int.le_refl 0
      | cons y ys => exact Int.min_le_left _ _
    rw [unclosed, lowest, depth_cons]
    rcases b.depth_singleton_cases x with ⟨rfl, hx⟩ | ⟨rfl, hx⟩ | ⟨ho, -, hx⟩
    · by_cases hn : b.NoStray xs
      · have hlow := b.noStray_iff_lowest.1 hn
        rw [if_pos ⟨rfl, hn⟩, hx]
        omega
      · have hlow : ¬ 0 ≤ b.lowest xs := fun h => hn (b.noStray_iff_lowest.2 h)
        rw [if_neg (fun h => hn h.2), hx]
        omega
    · rw [if_neg (fun h => b.opening_ne_closing h.1.symm), hx]
      omega
    · rw [if_neg (fun h => ho h.1), hx]
      omega

variable {b}

/-- Without a stray bracket the depth counts the brackets that are never closed. -/
theorem unclosed_eq_depth {xs : List α} (h : b.NoStray xs) :
    (b.unclosed xs : Int) = b.depth xs := by
  have hlow := b.noStray_iff_lowest.1 h
  have hempty : b.lowest xs ≤ b.depth [] := b.le_lowest_iff.1 (Int.le_refl _) [] List.nil_prefix
  rw [depth_nil] at hempty
  rw [unclosed_eq_sub]
  omega

/-- At each depth below that of the whole there is an opening bracket that is
never closed. -/
theorem exists_opening {xs : List α} (h : b.NoStray xs) {j : Int} (hlow : 0 ≤ j)
    (hj : j < b.depth xs) :
    ∃ before after, xs = before ++ b.opening :: after ∧ b.depth before = j ∧
      b.NoStray after := by
  induction xs using List.reverseRecOn with
  | nil =>
    rw [depth_nil] at hj
    omega
  | append_singleton xs x ih =>
    rcases noStray_append_singleton.1 h with ⟨hxs, -⟩
    rw [depth_append] at hj
    by_cases hlt : j < b.depth xs
    · rcases ih hxs hlt with ⟨before, after, rfl, hbefore, hafter⟩
      refine ⟨before, after ++ [x], by simp, hbefore, noStray_append_singleton.2 ⟨hafter, ?_⟩⟩
      -- The new item may close a later bracket, but `x` alone cannot reach below `j + 1`.
      have hsplit : b.depth (before ++ b.opening :: after) = j + 1 + b.depth after := by
        rw [depth_append, depth_cons, depth_opening, hbefore]
        omega
      rw [hsplit] at hj
      rw [depth_append]
      omega
    · rcases b.depth_singleton_cases x with ⟨rfl, hx⟩ | ⟨-, hx⟩ | ⟨-, -, hx⟩
      · exact ⟨xs, [], rfl, by omega, b.noStray_nil⟩
      · omega
      · omega

/-- If something is left open, the last bracket that is never closed has a
balanced row behind it. -/
theorem exists_last_opening {xs : List α} (h : b.NoStray xs) (hdepth : b.depth xs ≠ 0) :
    ∃ before after, xs = before ++ b.opening :: after ∧ b.Balanced after := by
  have hpos := h.depth_nonneg
  obtain ⟨before, after, rfl, hbefore, hafter⟩ :=
    exists_opening h (show 0 ≤ b.depth xs - 1 by omega) (by omega)
  refine ⟨before, after, rfl, hafter, ?_⟩
  rw [depth_append, depth_cons, depth_opening] at hbefore
  omega

/-- An opening bracket that is never closed is the last of its kind if nothing
is left open behind it. -/
theorem length_le_of_depth_eq_zero {before after before' after' : List α}
    (heq : before ++ b.opening :: after = before' ++ b.opening :: after')
    (hafter : b.NoStray after) (hzero : b.depth after = 0) (hafter' : b.NoStray after') :
    before'.length ≤ before.length := by
  rcases List.append_eq_append_iff.1 heq with ⟨mid, rfl, hmid⟩ | ⟨mid, rfl, -⟩
  · cases mid with
    | nil => simp
    | cons x mid =>
      rw [List.cons_append, List.cons.injEq] at hmid
      rcases hmid with ⟨rfl, rfl⟩
      have hpos := hafter.of_append.depth_nonneg
      have hpos' := hafter'.depth_nonneg
      rw [depth_append, depth_cons, depth_opening] at hzero
      omega
  · simp

/-! ## Passing over stray brackets -/

variable (b)

/-- How many brackets are open behind an item, if `k` are open before it.  A
closing bracket that meets nothing open is passed over. -/
def met (k : Nat) (x : α) : Nat :=
  if x = b.opening then k + 1 else if x = b.closing then k - 1 else k

/-- The indices of the closing brackets that meet nothing open, in rising order,
if `k` brackets are open before the row. -/
def strays (k : Nat) (xs : List α) : List Nat :=
  (List.range xs.length).filter fun i =>
    xs[i]? = some b.closing ∧ (xs.take i).foldl b.met k = 0

/-- The row without the closing brackets that meet nothing open, if `k` brackets
are open before it. -/
def kept (k : Nat) : List α → List α
  | [] => []
  | x :: xs =>
    if x = b.closing ∧ k = 0 then kept 0 xs else x :: kept (b.met k x) xs

theorem met_of_stray {x : α} (h : x = b.closing) : b.met 0 x = 0 := by
  have hne := b.opening_ne_closing
  simp [met, h, hne.symm]

theorem strays_cons (k : Nat) (x : α) (xs : List α) :
    b.strays k (x :: xs) =
      (if x = b.closing ∧ k = 0 then [0] else []) ++ (b.strays (b.met k x) xs).map (· + 1) := by
  unfold strays
  rw [List.length_cons, List.range_succ_eq_map, List.filter_cons, List.filter_map]
  simp only [List.getElem?_cons_zero, List.take_zero, List.foldl_nil, Option.some.injEq,
    decide_eq_true_eq]
  split <;> rfl

theorem kept_append (k : Nat) (xs ys : List α) :
    b.kept k (xs ++ ys) = b.kept k xs ++ b.kept (xs.foldl b.met k) ys := by
  induction xs generalizing k with
  | nil => rfl
  | cons x xs ih =>
    rw [List.cons_append, kept, kept, List.foldl_cons]
    split
    · rename_i h
      rw [ih, h.2, b.met_of_stray h.1]
    · rw [ih, List.cons_append]

end Brackets

end Brainfuck
