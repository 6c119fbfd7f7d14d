import Brainfuck.Program.Draft

/-!
# What a draft holds

A draft keeps its items with the latest one first and its open loops with the
innermost one first.  `Block.symbols` and `Draft.symbols` read both in the
order of the text, so that `Draft.symbols_add` can say what adding a token
does: it puts the token at the end, whether or not a command joins the one
before it.

`Block.All` says of every count of a block that it meets a condition, and
`Draft.all_add` that a draft keeps to such a condition.  For counts that are
positive this holds always; for counts of one it holds as long as nothing is
joined.

`Draft.add_cases` and `Draft.add_eq_none_iff` say all that `Draft.add` can do.
Nothing below them unfolds it.
-/

namespace Brainfuck

namespace Block

/-! ## The symbols of a block -/

/-- The tokens of a block in the order of the text. -/
def symbols : Block → List Token
  | nil => []
  | op c n rest => List.replicate n (.command c) ++ rest.symbols
  | loop body rest => .loopOpen :: body.symbols ++ .loopClose :: rest.symbols

theorem symbols_cons (i : Item) (b : Block) :
    (cons i b).symbols = (cons i nil).symbols ++ b.symbols := by
  cases i <;> simp [cons, symbols]

private theorem symbols_foldl_cons (items : List Item) (b : Block) :
    (items.foldl (fun b i => cons i b) b).symbols = (ofReversed items).symbols ++ b.symbols := by
  induction items generalizing b with
  | nil => rfl
  | cons i items ih =>
    rw [ofReversed, List.foldl_cons, List.foldl_cons, ih, ih, symbols_cons, List.append_assoc]

theorem symbols_ofReversed_cons (i : Item) (items : List Item) :
    (ofReversed (i :: items)).symbols = (ofReversed items).symbols ++ (cons i nil).symbols :=
  symbols_foldl_cons items (cons i nil)

/-! ## The counts of a block -/

/-- Every count of the block meets the condition. -/
def All (q : Nat → Prop) : Block → Prop
  | nil => True
  | op _ n rest => q n ∧ rest.All q
  | loop body rest => body.All q ∧ rest.All q

theorem all_cons {q : Nat → Prop} {i : Item} {b : Block} :
    (cons i b).All q ↔ (cons i nil).All q ∧ b.All q := by
  cases i <;> simp [cons, All]

private theorem all_foldl_cons (q : Nat → Prop) (items : List Item) (b : Block) :
    (items.foldl (fun b i => cons i b) b).All q ↔ (ofReversed items).All q ∧ b.All q := by
  induction items generalizing b with
  | nil => simp [ofReversed, All]
  | cons i items ih =>
    rw [ofReversed, List.foldl_cons, List.foldl_cons, ih, ih, all_cons]
    simp [and_assoc]

theorem all_ofReversed_cons {q : Nat → Prop} {i : Item} {items : List Item} :
    (ofReversed (i :: items)).All q ↔ (ofReversed items).All q ∧ (cons i nil).All q :=
  all_foldl_cons q items (cons i nil)

theorem All.imp {q r : Nat → Prop} {b : Block} (h : b.All q) (hqr : ∀ n, q n → r n) :
    b.All r := by
  induction b with
  | nil => trivial
  | op c n rest ih => exact ⟨hqr n h.1, ih h.2⟩
  | loop body rest ihb ihr => exact ⟨ihb h.1, ihr h.2⟩

/-- No count is larger than the number of symbols. -/
theorem all_le_length_symbols (b : Block) : b.All (· ≤ b.symbols.length) := by
  induction b with
  | nil => trivial
  | op c n rest ih =>
    refine ⟨by simp [symbols], ih.imp ?_⟩
    intro m hm
    simp only [symbols, List.length_append]
    omega
  | loop body rest ihb ihr =>
    refine ⟨ihb.imp ?_, ihr.imp ?_⟩
    all_goals
      intro m hm
      simp only [symbols, List.length_append, List.length_cons]
      omega

end Block

namespace Draft

/-! ## One more token -/

/-- A command either is an item of its own or joins the latest one. -/
theorem addCommand_cases (join : Bool) (c : Command) (items : List Block.Item) :
    addCommand join c items = .op c 1 :: items ∨
      ∃ n rest, join = true ∧ items = .op c n :: rest ∧
        addCommand join c items = .op c (n + 1) :: rest := by
  cases items with
  | nil => exact Or.inl rfl
  | cons i items =>
    cases i with
    | loop body => exact Or.inl rfl
    | op k n =>
      by_cases hjoin : join = true ∧ k = c
      · rcases hjoin with ⟨rfl, rfl⟩
        exact Or.inr ⟨n, items, rfl, rfl, by simp [addCommand]⟩
      · apply Or.inl
        rw [addCommand, if_neg (by simpa using hjoin)]

/-- The four things that adding a token can do. -/
theorem add_cases {join : Bool} {t : Token} {position : Position} {d d' : Draft}
    (h : d.add join t position = some d') :
    (∃ c, t = .command c ∧ d' = { d with items := addCommand join c d.items }) ∨
      (t = .loopOpen ∧ d' = { items := [], opened := ⟨position, d.items⟩ :: d.opened }) ∨
      (∃ l opened, t = .loopClose ∧ d.opened = l :: opened ∧
        d' = { items := .loop (.ofReversed d.items) :: l.before, opened }) ∨
      (t = .endOfText ∧ d' = d) := by
  cases t with
  | command c =>
    cases h
    exact Or.inl ⟨c, rfl, rfl⟩
  | loopOpen =>
    cases h
    exact Or.inr (Or.inl ⟨rfl, rfl⟩)
  | loopClose =>
    simp only [add] at h
    split at h
    · cases h
    · rename_i l opened hopened
      cases h
      exact Or.inr (Or.inr (Or.inl ⟨l, opened, rfl, hopened, rfl⟩))
  | endOfText =>
    cases h
    exact Or.inr (Or.inr (Or.inr ⟨rfl, rfl⟩))

/-- Only a closing bracket is refused, and only if no loop is open. -/
theorem add_eq_none_iff {join : Bool} {t : Token} {position : Position} {d : Draft} :
    d.add join t position = none ↔ t = .loopClose ∧ d.opened = [] := by
  cases t with
  | loopClose =>
    simp only [add, true_and]
    split <;> simp_all
  | command c => simp [add]
  | loopOpen => simp [add]
  | endOfText => simp [add]

/-! ## The symbols of a draft -/

/-- The tokens of a draft in the order of the text. -/
def symbols (d : Draft) : List Token :=
  d.opened.reverse.flatMap (fun l => (Block.ofReversed l.before).symbols ++ [.loopOpen]) ++
    (Block.ofReversed d.items).symbols

theorem symbols_addCommand (join : Bool) (c : Command) (items : List Block.Item) :
    (Block.ofReversed (addCommand join c items)).symbols =
      (Block.ofReversed items).symbols ++ [.command c] := by
  rcases addCommand_cases join c items with h | ⟨n, rest, -, rfl, h⟩
  · rw [h, Block.symbols_ofReversed_cons]
    rfl
  · rw [h, Block.symbols_ofReversed_cons, Block.symbols_ofReversed_cons, List.append_assoc]
    simp [Block.cons, Block.symbols, List.replicate_succ']

/-- Adding a token puts it at the end. -/
theorem symbols_add {join : Bool} {t : Token} {position : Position} {d d' : Draft}
    (ht : t ≠ .endOfText) (h : d.add join t position = some d') :
    d'.symbols = d.symbols ++ [t] := by
  rcases add_cases h with ⟨c, rfl, rfl⟩ | ⟨rfl, rfl⟩ | ⟨l, opened, rfl, hopened, rfl⟩ | ⟨rfl, rfl⟩
  · rw [symbols, symbols, symbols_addCommand, List.append_assoc]
  · simp [symbols, Block.ofReversed, Block.symbols]
  · rw [symbols, symbols, hopened, Block.symbols_ofReversed_cons]
    simp [Block.cons, Block.symbols]
  · exact absurd rfl ht

/-! ## The counts of a draft -/

/-- Every count of the draft meets the condition. -/
def All (q : Nat → Prop) (d : Draft) : Prop :=
  (Block.ofReversed d.items).All q ∧ ∀ l ∈ d.opened, (Block.ofReversed l.before).All q

theorem all_empty (q : Nat → Prop) : ({} : Draft).All q :=
  ⟨trivial, fun _ h => absurd h List.not_mem_nil⟩

private theorem all_addCommand {q : Nat → Prop} {join : Bool} {c : Command}
    {items : List Block.Item} (hone : q 1) (hjoin : join = true → ∀ n, q n → q (n + 1))
    (h : (Block.ofReversed items).All q) :
    (Block.ofReversed (addCommand join c items)).All q := by
  rcases addCommand_cases join c items with hadd | ⟨n, rest, hj, rfl, hadd⟩
  · rw [hadd, Block.all_ofReversed_cons]
    exact ⟨h, hone, trivial⟩
  · rw [Block.all_ofReversed_cons] at h
    rw [hadd, Block.all_ofReversed_cons]
    exact ⟨h.1, hjoin hj n h.2.1, trivial⟩

/-- Adding a token keeps a condition on counts that holds of one, and that is
kept by adding one if the token may be joined. -/
theorem all_add {q : Nat → Prop} {join : Bool} {t : Token} {position : Position} {d d' : Draft}
    (hone : q 1) (hjoin : join = true → ∀ n, q n → q (n + 1))
    (h : d.add join t position = some d') (hd : d.All q) : d'.All q := by
  rcases add_cases h with ⟨c, rfl, rfl⟩ | ⟨rfl, rfl⟩ | ⟨l, opened, rfl, hopened, rfl⟩ | ⟨rfl, rfl⟩
  · exact ⟨all_addCommand hone hjoin hd.1, hd.2⟩
  · refine ⟨trivial, ?_⟩
    intro k hk
    rcases List.mem_cons.1 hk with rfl | hk
    · exact hd.1
    · exact hd.2 k hk
  · have hopen : ∀ k ∈ l :: opened, (Block.ofReversed k.before).All q := hopened ▸ hd.2
    refine ⟨?_, fun k hk => hopen k (List.mem_cons_of_mem l hk)⟩
    rw [Block.all_ofReversed_cons]
    exact ⟨hopen l List.mem_cons_self, hd.1, trivial⟩
  · exact hd

end Draft

end Brainfuck
