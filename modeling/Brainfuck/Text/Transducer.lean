/-!
# Transducers

A transducer reads items one at a time and answers each with some output that
may depend on what went before; at the end it may add a last piece.  Decoders
and the unification of line ends are transducers.  `feed_cons` and
`feed_append` say how the output is put together, so that facts about a whole
run follow from facts about one step.
-/

namespace Brainfuck.Text

/-- A machine that turns items into output, one item at a time. -/
structure Transducer (α β σ : Type) where
  /-- The state before the first item. -/
  start : σ
  /-- The state after an item, and the output for it. -/
  step : σ → α → σ × List β
  /-- The output after the last item. -/
  finish : σ → List β

namespace Transducer

variable {α β σ : Type}

/-- The output from a state on, put behind what has been written already. -/
def feed (t : Transducer α β σ) : σ → Array β → List α → List β
  | s, out, [] => (out ++ t.finish s).toList
  | s, out, x :: xs =>
    let answer := t.step s x
    t.feed answer.1 (out ++ answer.2) xs

/-- The output for a whole list of items. -/
def run (t : Transducer α β σ) (xs : List α) : List β :=
  t.feed t.start #[] xs

theorem feed_append (t : Transducer α β σ) (s : σ) (out : Array β) (xs : List α) :
    t.feed s out xs = out.toList ++ t.feed s #[] xs := by
  induction xs generalizing s out with
  | nil => simp [feed]
  | cons x xs ih =>
    simp only [feed]
    rw [ih (t.step s x).1 (out ++ (t.step s x).2), ih (t.step s x).1 (#[] ++ (t.step s x).2)]
    simp

@[simp] theorem feed_nil (t : Transducer α β σ) (s : σ) : t.feed s #[] [] = t.finish s := by
  simp [feed]

theorem feed_cons (t : Transducer α β σ) (s : σ) (x : α) (xs : List α) :
    t.feed s #[] (x :: xs) = (t.step s x).2 ++ t.feed (t.step s x).1 #[] xs := by
  rw [feed, feed_append]
  simp

end Transducer

end Brainfuck.Text
