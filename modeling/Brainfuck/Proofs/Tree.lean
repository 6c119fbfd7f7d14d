import Brainfuck.Proofs.Balance

/-!
# Texts as trees

The structured reading of a text: a sequence of commands and loops, with one
node for each command and one for each pair of brackets.  Nothing is counted
and nothing jumps.

* `Tree.tokens` spells a tree.  `Tree.tokens_injective` says that a sequence of
  tokens is read as at most one tree, and `Tree.exists_of_balanced` that
  balanced brackets are enough to read a text as one.
* `Block.tree` is the tree of a block, with each counted command written out.
  `Block.tokens_tree` says that block and tree are spelled alike, so the
  programs that a text builds with and without folding have one tree
  (`Program.exists_block_of_tree`).
-/

namespace Brainfuck

/-- A sequence of commands and loops. -/
inductive Tree where
  | nil
  | command (c : Command) (rest : Tree)
  | loop (body rest : Tree)
deriving DecidableEq, Repr

namespace Tree

/-- The tokens of a tree in the order of the text. -/
def tokens : Tree → List Token
  | nil => []
  | command c rest => .command c :: rest.tokens
  | loop body rest => .loopOpen :: (body.tokens ++ .loopClose :: rest.tokens)

/-! ## Reading tokens -/

-- What can stand behind a sequence: nothing, or the bracket that closes the loop around it.
private def Behind (xs : List Token) : Prop :=
  xs = [] ∨ ∃ rest, xs = .loopClose :: rest

private theorem not_behind_cons {x : Token} {xs : List Token} (hx : x ≠ .loopClose) :
    ¬ Behind (x :: xs) := by
  rintro (h | ⟨rest, h⟩)
  · cases h
  · exact hx (List.cons.inj h).1

private theorem tokens_append_injective {t u : Tree} {xs ys : List Token} (hxs : Behind xs)
    (hys : Behind ys) (h : t.tokens ++ xs = u.tokens ++ ys) : t = u ∧ xs = ys := by
  induction t generalizing u xs ys with
  | nil =>
    cases u with
    | nil => exact ⟨rfl, h⟩
    | command c rest =>
      rw [show xs = _ from h] at hxs
      exact absurd hxs (not_behind_cons (by simp))
    | loop body rest =>
      rw [show xs = _ from h] at hxs
      exact absurd hxs (not_behind_cons (by simp))
  | command c rest ih =>
    cases u with
    | nil =>
      rw [show ys = _ from h.symm] at hys
      exact absurd hys (not_behind_cons (by simp))
    | command k rest' =>
      obtain ⟨hc, hrest⟩ := List.cons.inj h
      obtain ⟨rfl, hbehind⟩ := ih hxs hys hrest
      cases hc
      exact ⟨rfl, hbehind⟩
    | loop body rest' => cases (List.cons.inj h).1
  | loop body rest ihb ihr =>
    cases u with
    | nil =>
      rw [show ys = _ from h.symm] at hys
      exact absurd hys (not_behind_cons (by simp))
    | command k rest' => cases (List.cons.inj h).1
    | loop body' rest' =>
      simp only [tokens, List.cons_append, List.append_assoc] at h
      obtain ⟨rfl, hclose⟩ := ihb (Or.inr ⟨_, rfl⟩) (Or.inr ⟨_, rfl⟩) (List.cons.inj h).2
      obtain ⟨rfl, hbehind⟩ := ihr hxs hys (List.cons.inj hclose).2
      exact ⟨rfl, hbehind⟩

/-- Tokens are read as one tree at most. -/
theorem tokens_injective {t u : Tree} (h : t.tokens = u.tokens) : t = u := by
  have hnil : t.tokens ++ [] = u.tokens ++ [] := by rw [h]
  exact (tokens_append_injective (Or.inl rfl) (Or.inl rfl) hnil).1

/-- The tree with a command in front, `n` times over. -/
def commands (c : Command) : (n : Nat) → Tree → Tree
  | 0, t => t
  | n + 1, t => command c (commands c n t)

theorem tokens_commands (c : Command) (n : Nat) (t : Tree) :
    (commands c n t).tokens = List.replicate n (.command c) ++ t.tokens := by
  induction n with
  | zero => rfl
  | succ n ih => rw [commands, tokens, ih, List.replicate_succ, List.cons_append]

end Tree

/-! ## Trees of blocks -/

namespace Block

/-- The tree of a block. -/
def tree : Block → Tree
  | nil => .nil
  | op c n rest => .commands c n rest.tree
  | loop body rest => .loop body.tree rest.tree

theorem tokens_tree (b : Block) : b.tree.tokens = b.symbols := by
  induction b with
  | nil => rfl
  | op c n rest ih => rw [tree, Tree.tokens_commands, ih, symbols]
  | loop body rest ihb ihr =>
    rw [tree, Tree.tokens, ihb, ihr, symbols]
    rfl

end Block

/-- Balanced brackets are all that it takes to read a text as a tree. -/
theorem Tree.exists_of_balanced {text : List Char} (h : Text.brackets.Balanced text) :
    ∃ t : Tree, t.tokens = Token.ofText text := by
  obtain ⟨p, hp⟩ := Program.ofText_of_balanced false h
  obtain ⟨b, -, hsymbols, -, -⟩ := Program.exists_block_of_ofText hp
  exact ⟨b.tree, b.tokens_tree.trans hsymbols⟩

/-- The program of a text is the layout of a block with the tree of the text. -/
theorem Program.exists_block_of_tree {text : List Char} {fold : Bool} {p : Program} {t : Tree}
    (hp : ofText text fold = .ok p) (ht : t.tokens = Token.ofText text) :
    ∃ b : Block, p = .ofBlock b ∧ b.tree = t ∧ b.All (1 ≤ ·) ∧ b.All (· ≤ text.length) ∧
      (fold = false → b.All (· = 1)) := by
  obtain ⟨b, hlayout, hsymbols, hpos, hone⟩ := exists_block_of_ofText hp
  refine ⟨b, hlayout, Tree.tokens_injective ?_, hpos, ?_, hone⟩
  · rw [b.tokens_tree, hsymbols, ht]
  · have hlength : b.symbols.length ≤ text.length := by
      rw [hsymbols]
      exact List.length_filterMap_le _ _
    exact b.all_le_length_symbols.imp fun n hn => Nat.le_trans hn hlength

end Brainfuck
