import Brainfuck.Program.Draft
import Brainfuck.Program.LoopError
import Brainfuck.Source.Basic

/-!
# Building programs

An `Assembly` draws tokens from a source and keeps a draft of the program.
`Assembly.build` goes on to the next end mark and gives the program, or the
report of a bracket without a partner.  The draft and the source stay as they
are afterwards, so a further build goes on where the last one stopped: behind
a stray closing bracket, which is left out, or behind an end mark.

With `fold`, commands that follow each other within one build are joined into
one instruction; commands of two builds never are.
-/

namespace Brainfuck

/-- A program in the making. -/
structure Assembly where
  /-- Where the tokens come from. -/
  source : Source
  /-- Whether equal commands that follow each other become one instruction. -/
  fold : Bool := true
  /-- What has been built so far. -/
  draft : Draft := {}

namespace Assembly

/-- The outcome at an end mark: the program, unless a loop is still open. -/
def finish (a : Assembly) : Except LoopError Program :=
  match a.draft.opened with
  | [] => .ok a.draft.program
  | l :: opened =>
    .error (.leftOpen (opened.length + 1) a.source.consumed l.position.line l.position.column)

/-- Draws at most `rounds` tokens, up to an end mark or a stray bracket.
`continuing` says whether a token has been drawn in this build already. -/
def absorb : (rounds : Nat) → (continuing : Bool) → Assembly → Except LoopError Program × Assembly
  | 0, _, a => (a.finish, a)
  | rounds + 1, continuing, a =>
    let drawn := a.source.next
    let a := { a with source := drawn.2 }
    if drawn.1 = .endOfText then (a.finish, a)
    else match a.draft.add (a.fold && continuing) drawn.1 a.source.mark with
      | some draft => absorb rounds true { a with draft }
      | none => (.error (.stray a.source.consumed a.source.mark.line a.source.mark.column), a)

/-- Builds up to the next end mark.  The size of the source bounds the tokens before it. -/
def build (a : Assembly) : Except LoopError Program × Assembly :=
  a.absorb (a.source.size + 1) false

/-- Builds `n` times, one build after the other. -/
def builds (a : Assembly) : (n : Nat) → List (Except LoopError Program)
  | 0 => []
  | n + 1 =>
    let built := a.build
    built.1 :: builds built.2 n

end Assembly

/-- The program that a source gives up to its next end mark. -/
def Source.build (s : Source) (fold : Bool := true) : Except LoopError Program :=
  (Assembly.build { source := s, fold }).1

/-- The program that a text spells. -/
def Program.ofText (text : List Char) (fold : Bool := true) : Except LoopError Program :=
  (Source.text (.ofList text)).build fold

end Brainfuck
