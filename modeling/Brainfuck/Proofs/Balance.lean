import Brainfuck.Proofs.Building

/-!
# Which texts are programs

A text is a program if and only if its brackets are balanced, and a text that is
none is refused for the bracket that is to blame: the first closing bracket
without an opening one, or else the last opening bracket without a closing one.

* `Assembly.build_of_balanced`, `build_of_stray` and `build_of_leftOpen` decide
  a build by the tokens that are drawn.
* `depth_ofText` and `noStray_ofText` say that a text and its tokens have the
  same depth and the same stray brackets, so that the three lemmas can be told
  of characters.
* `Program.exists_ofText_iff` and `Source.exists_build_iff` say what is a program.
  The last theorem puts all together, for texts and for lists of tokens.
-/

namespace Brainfuck

/-! ## Builds by their tokens -/

namespace Assembly

/-- Balanced tokens make a program. -/
theorem build_of_balanced {a : Assembly} (hempty : a.draft = {})
    (h : Token.brackets.Balanced (a.source.drain.1.map Prod.fst)) : ∃ p, a.build.1 = .ok p := by
  obtain ⟨d, hd, -, hlength⟩ :=
    Draft.addAll_of_noStray a.fold false a.draft h.1
  rw [h.2, hempty, List.length_nil] at hlength
  have hopened : d.opened = [] := List.eq_nil_of_length_eq_zero (by omega)
  rw [build_of_ok hd]
  exact ⟨d.program, finish_eq_ok_iff.2 ⟨hopened, rfl⟩⟩

/-- Without a stray bracket all tokens are drawn. -/
theorem source_build_of_noStray {a : Assembly}
    (h : Token.brackets.NoStray (a.source.drain.1.map Prod.fst)) :
    a.build.2.source = a.source.drain.2 := by
  obtain ⟨d, hd, -⟩ := Draft.addAll_of_noStray a.fold false a.draft h
  exact source_build_of_ok hd

/-- A closing bracket is refused where it is drawn if no loop is open there, and
nothing behind it is drawn. -/
theorem build_of_stray {a : Assembly} {front rear : List (Token × Source)} {s : Source}
    (hempty : a.draft = {}) (hdrain : a.source.drain.1 = front ++ (.loopClose, s) :: rear)
    (hfront : Token.brackets.NoStray (front.map Prod.fst))
    (hzero : Token.brackets.depth (front.map Prod.fst) = 0) :
    a.build.1 = .error (.stray s.consumed s.mark.line s.mark.column) ∧ a.build.2.source = s := by
  obtain ⟨d, hd, -, hlength⟩ :=
    Draft.addAll_of_noStray a.fold false a.draft hfront
  rw [hzero, hempty, List.length_nil] at hlength
  have hopened : d.opened = [] := List.eq_nil_of_length_eq_zero (by omega)
  rcases Draft.addAll_append hd ((.loopClose, s) :: rear) with ⟨b, happend⟩
  have hnone : d.add (a.fold && b) .loopClose s.mark = none :=
    Draft.add_eq_none_iff.2 ⟨rfl, hopened⟩
  have hadd : a.draft.addAll a.fold false a.source.drain.1 = .error (d, s) := by
    rw [hdrain, happend]
    simp only [Draft.addAll, hnone]
  exact ⟨build_of_error hadd, source_build_of_error hadd⟩

/-- If loops are left open, the innermost of them is the one whose bracket has
balanced tokens behind it. -/
theorem build_of_leftOpen {a : Assembly} {front rear : List (Token × Source)} {s : Source}
    (hempty : a.draft = {}) (hdrain : a.source.drain.1 = front ++ (.loopOpen, s) :: rear)
    (hall : Token.brackets.NoStray (a.source.drain.1.map Prod.fst))
    (hrear : Token.brackets.Balanced (rear.map Prod.fst)) :
    a.build.1 = .error (.leftOpen (Token.brackets.unclosed (a.source.drain.1.map Prod.fst))
      a.source.drain.2.consumed s.mark.line s.mark.column) := by
  have hmap : a.source.drain.1.map Prod.fst =
      front.map Prod.fst ++ .loopOpen :: rear.map Prod.fst := by
    rw [hdrain, List.map_append, List.map_cons]
  have hcount : (Token.brackets.unclosed (a.source.drain.1.map Prod.fst) : Int) =
      Token.brackets.depth (front.map Prod.fst) + 1 := by
    have hone : Token.brackets.depth [.loopOpen] = 1 := rfl
    rw [Brackets.unclosed_eq_depth hall, hmap, Brackets.depth_append, Brackets.depth_cons, hone,
      hrear.2]
    omega
  rw [hmap] at hall
  obtain ⟨d₁, hd₁, -, hlength₁⟩ :=
    Draft.addAll_of_noStray a.fold false a.draft hall.of_append
  rcases Draft.addAll_append hd₁ ((.loopOpen, s) :: rear) with ⟨b, happend⟩
  let d₂ : Draft := { items := [], opened := ⟨s.mark, d₁.items⟩ :: d₁.opened }
  obtain ⟨d, hd, hsuffix, hlength⟩ :=
    Draft.addAll_of_noStray a.fold true d₂ hrear.1
  have hadd : a.draft.addAll a.fold false a.source.drain.1 = .ok d := by
    rw [hdrain, happend, Draft.addAll]
    exact hd
  -- The tokens behind the bracket close what they open, so nothing has changed above it.
  have hopened : d.opened = ⟨s.mark, d₁.items⟩ :: d₁.opened := by
    refine (hsuffix.eq_of_length ?_).symm
    rw [hrear.2] at hlength
    omega
  have hunclosed : Token.brackets.unclosed (a.source.drain.1.map Prod.fst) =
      d₁.opened.length + 1 := by
    rw [hempty, List.length_nil] at hlength₁
    omega
  rw [build_of_ok hadd, hunclosed, finish]
  simp only [hopened]

end Assembly

/-! ## Brackets of a text -/

/-- The brackets among characters. -/
def Text.brackets : Brackets Char :=
  ⟨'[', ']', by decide⟩

theorem Token.ofText_append (xs ys : List Char) : ofText (xs ++ ys) = ofText xs ++ ofText ys :=
  List.filterMap_append

/-- A character weighs as much as the token it is read as. -/
theorem depth_ofText_singleton (c : Char) :
    Token.brackets.depth (Token.ofText [c]) = Text.brackets.depth [c] := by
  cases hc : Token.ofChar? c with
  | none =>
    have hopen : c ≠ Text.brackets.opening := by
      rintro rfl
      cases hc
    have hclose : c ≠ Text.brackets.closing := by
      rintro rfl
      cases hc
    rw [Brackets.depth_other _ hopen hclose, Token.ofText, List.filterMap_cons_none hc]
    rfl
  | some t =>
    have hchar := Token.ofChar?_eq_some_iff.1 hc
    rw [Token.ofText, List.filterMap_cons_some hc, List.filterMap_nil]
    cases t with
    | command k => cases k <;> cases hchar <;> rfl
    | loopOpen | loopClose => cases hchar; rfl
    | endOfText => cases hchar

theorem depth_ofText (text : List Char) :
    Token.brackets.depth (Token.ofText text) = Text.brackets.depth text := by
  induction text with
  | nil => rfl
  | cons c text ih =>
    have hsplit : Token.ofText (c :: text) = Token.ofText [c] ++ Token.ofText text :=
      Token.ofText_append [c] text
    rw [hsplit, Brackets.depth_append, depth_ofText_singleton, ih, ← Brackets.depth_cons]

theorem noStray_ofText {text : List Char} :
    Token.brackets.NoStray (Token.ofText text) ↔ Text.brackets.NoStray text := by
  induction text using List.reverseRecOn with
  | nil =>
    have htext : Text.brackets.NoStray [] := Brackets.noStray_nil _
    exact iff_of_true (Brackets.noStray_nil _) htext
  | append_singleton text c ih =>
    rw [Brackets.noStray_append_singleton, ← ih, ← depth_ofText, Token.ofText_append]
    cases hc : Token.ofChar? c with
    | none =>
      rw [show Token.ofText [c] = [] from List.filterMap_cons_none hc, List.append_nil]
      exact ⟨fun h => ⟨h, h.depth_nonneg⟩, fun h => h.1⟩
    | some t =>
      rw [show Token.ofText [c] = [t] from List.filterMap_cons_some hc,
        Brackets.noStray_append_singleton]

theorem balanced_ofText {text : List Char} :
    Token.brackets.Balanced (Token.ofText text) ↔ Text.brackets.Balanced text := by
  rw [Brackets.Balanced, Brackets.Balanced, noStray_ofText, depth_ofText]

theorem unclosed_ofText {text : List Char} (h : Text.brackets.NoStray text) :
    Token.brackets.unclosed (Token.ofText text) = Text.brackets.unclosed text := by
  have htokens := Brackets.unclosed_eq_depth (noStray_ofText.2 h)
  have htext := Brackets.unclosed_eq_depth h
  rw [depth_ofText] at htokens
  omega

/-! ## Texts -/

/-- A reader anywhere in a text that comes to a stray bracket is refused for it.  The
report shows the text up to the bracket, and the reader stands behind it. -/
theorem Reader.Stands.build_of_stray {r : Reader} {before mid after : List Char}
    (h : r.Stands before (mid ++ ']' :: after)) (fold : Bool) (hmid : Text.brackets.NoStray mid)
    (hzero : Text.brackets.depth mid = 0) :
    let a : Assembly := { source := .text r, fold }
    a.build.1 = .error (.stray (String.ofList (before ++ mid ++ [']']))
        (Position.following (before ++ mid)).line (Position.following (before ++ mid)).column) ∧
      ∃ r', a.build.2.source = .text r' ∧ r'.Stands (before ++ mid ++ [']']) after := by
  intro a
  obtain ⟨front, r', rear, hdrain, hfront, -, hr, hmark⟩ :=
    h.drain_append_cons (t := .loopClose) rfl
  obtain ⟨hbuild, hsource⟩ := a.build_of_stray rfl hdrain (hfront ▸ noStray_ofText.2 hmid)
    (by rw [hfront, depth_ofText, hzero])
  rw [Position.ofText_append_singleton_eq (before ++ mid) (by decide)] at hmark
  simp only [Source.consumed, hr.consumed, Source.mark, hmark] at hbuild
  exact ⟨hbuild, r', hsource, hr⟩

/-- A reader anywhere in a text is refused for the last bracket that is left open, if
there is no stray one.  The report counts the open loops and shows the whole text, and
nothing is left to be read. -/
theorem Reader.Stands.build_of_leftOpen {r : Reader} {before mid after : List Char}
    (h : r.Stands before (mid ++ '[' :: after)) (fold : Bool)
    (hall : Text.brackets.NoStray (mid ++ '[' :: after)) (hafter : Text.brackets.Balanced after) :
    let a : Assembly := { source := .text r, fold }
    a.build.1 = .error (.leftOpen (Text.brackets.unclosed (mid ++ '[' :: after))
        (String.ofList (before ++ (mid ++ '[' :: after)))
        (Position.following (before ++ mid)).line (Position.following (before ++ mid)).column) := by
  intro a
  obtain ⟨front, r', rear, hdrain, -, hrear, -, hmark⟩ :=
    h.drain_append_cons (t := .loopOpen) rfl
  have hmap : a.source.drain.1.map Prod.fst = Token.ofText (mid ++ '[' :: after) := h.map_drain
  have hconsumed : a.source.drain.2.consumed = String.ofList (before ++ (mid ++ '[' :: after)) :=
    h.consumed_drain
  have hbuild := a.build_of_leftOpen rfl hdrain (hmap ▸ noStray_ofText.2 hall)
    (hrear ▸ balanced_ofText.2 hafter)
  rw [Position.ofText_append_singleton_eq (before ++ mid) (by decide)] at hmark
  rw [hmap, unclosed_ofText hall, hconsumed] at hbuild
  simp only [Source.mark, hmark] at hbuild
  exact hbuild

namespace Program

theorem ofText_of_balanced {text : List Char} (fold : Bool)
    (h : Text.brackets.Balanced text) : ∃ p, ofText text fold = .ok p := by
  let a : Assembly := { source := .text (.ofList text), fold }
  have hmap := (Reader.stands_ofList text).map_drain
  exact a.build_of_balanced rfl (hmap ▸ balanced_ofText.2 h)

/-- A text is refused for its first stray bracket, whatever stands behind it. -/
theorem ofText_of_stray {before : List Char} (hbefore : Text.brackets.NoStray before)
    (hzero : Text.brackets.depth before = 0) (after : List Char) (fold : Bool) :
    ofText (before ++ ']' :: after) fold = .error (.stray (String.ofList (before ++ [']']))
      (Position.following before).line (Position.following before).column) :=
  ((Reader.stands_ofList _).build_of_stray fold hbefore hzero).1

/-- A text with a stray bracket is refused for the first one.  The report shows
the text up to it. -/
theorem ofText_of_not_noStray {text : List Char} (fold : Bool)
    (h : ¬ Text.brackets.NoStray text) :
    ∃ before after, text = before ++ ']' :: after ∧ Text.brackets.NoStray before ∧
      Text.brackets.depth before = 0 ∧
      ofText text fold = .error (.stray (String.ofList (before ++ [']']))
        (Position.following before).line (Position.following before).column) := by
  obtain ⟨before, after, rfl, hbefore, hzero⟩ := Brackets.exists_stray h
  exact ⟨before, after, rfl, hbefore, hzero, ofText_of_stray hbefore hzero after fold⟩

/-- A text without a stray bracket that leaves loops open is refused for the
last of them.  The report counts them and shows the text around its place. -/
theorem ofText_of_noStray {text : List Char} (fold : Bool)
    (h : Text.brackets.NoStray text) (hdepth : Text.brackets.depth text ≠ 0) :
    ∃ before after, text = before ++ '[' :: after ∧ Text.brackets.Balanced after ∧
      ofText text fold = .error (.leftOpen (Text.brackets.unclosed text) (String.ofList text)
        (Position.following before).line (Position.following before).column) := by
  obtain ⟨before, after, rfl, hafter⟩ := Brackets.exists_last_opening h hdepth
  exact ⟨before, after, rfl, hafter, (Reader.stands_ofList _).build_of_leftOpen fold h hafter⟩

/-- What a text is refused for. -/
theorem ofText_error_cases {text : List Char} {fold : Bool} {e : LoopError}
    (h : ofText text fold = .error e) :
    (∃ before after, text = before ++ ']' :: after ∧ Text.brackets.NoStray before ∧
      Text.brackets.depth before = 0 ∧
      e = .stray (String.ofList (before ++ [']'])) (Position.following before).line
        (Position.following before).column) ∨
    ∃ before after, text = before ++ '[' :: after ∧ Text.brackets.NoStray text ∧
      Text.brackets.Balanced after ∧
      e = .leftOpen (Text.brackets.unclosed text) (String.ofList text)
        (Position.following before).line (Position.following before).column := by
  by_cases hstray : Text.brackets.NoStray text
  · right
    have hdepth : Text.brackets.depth text ≠ 0 := by
      intro hzero
      obtain ⟨p, hp⟩ := ofText_of_balanced fold ⟨hstray, hzero⟩
      rw [hp] at h
      cases h
    obtain ⟨before, after, htext, hafter, he⟩ := ofText_of_noStray fold hstray hdepth
    exact ⟨before, after, htext, hstray, hafter, Except.error.inj (h.symm.trans he)⟩
  · left
    obtain ⟨before, after, htext, hbefore, hzero, he⟩ := ofText_of_not_noStray fold hstray
    exact ⟨before, after, htext, hbefore, hzero, Except.error.inj (h.symm.trans he)⟩

end Program

theorem Program.exists_ofText_iff (text : List Char) (fold : Bool) :
    (∃ p, ofText text fold = .ok p) ↔ Text.brackets.Balanced text := by
  refine ⟨?_, ofText_of_balanced fold⟩
  rintro ⟨p, hp⟩
  by_contra hbalanced
  by_cases h : Text.brackets.NoStray text
  · rcases ofText_of_noStray fold h (fun hz => hbalanced ⟨h, hz⟩) with ⟨_, _, -, -, he⟩
    rw [hp] at he
    cases he
  · rcases ofText_of_not_noStray fold h with ⟨_, _, -, -, -, he⟩
    rw [hp] at he
    cases he

/-! ## Lists of tokens -/

theorem Source.build_of_balanced {ts : List Token} (fold : Bool) (hts : .endOfText ∉ ts)
    (h : Token.brackets.Balanced ts) : ∃ p, (tokens ts).build fold = .ok p := by
  let a : Assembly := { source := tokens ts, fold }
  exact a.build_of_balanced rfl (map_drain_tokens hts ▸ h)

/-- Tokens of a list have no place, and no text is shown. -/
theorem Source.build_of_not_noStray {ts : List Token} (fold : Bool) (hts : .endOfText ∉ ts)
    (h : ¬ Token.brackets.NoStray ts) : (tokens ts).build fold = .error (.stray "" 0 0) := by
  let a : Assembly := { source := tokens ts, fold }
  have hmap : a.source.drain.1.map Prod.fst = ts := map_drain_tokens hts
  rcases Brackets.exists_stray h with ⟨before, after, hsplit, hbefore, hzero⟩
  rcases List.map_eq_append_iff.1 (hmap.trans hsplit) with ⟨front, rest, hdrain, hfront, hrest⟩
  rcases List.map_eq_cons_iff.1 hrest with ⟨x, rear, rfl, hx, -⟩
  rcases (eq_tokens_of_drain_tokens ts).1 x (hdrain ▸ by simp) with ⟨us, hus⟩
  have hpair : x = (.loopClose, tokens us) := Prod.ext hx hus
  rw [hpair] at hdrain
  exact (a.build_of_stray rfl hdrain (hfront ▸ hbefore) (hfront ▸ hzero)).1

theorem Source.build_of_noStray {ts : List Token} (fold : Bool) (hts : .endOfText ∉ ts)
    (h : Token.brackets.NoStray ts) (hdepth : Token.brackets.depth ts ≠ 0) :
    (tokens ts).build fold = .error (.leftOpen (Token.brackets.unclosed ts) "" 0 0) := by
  let a : Assembly := { source := tokens ts, fold }
  have hmap : a.source.drain.1.map Prod.fst = ts := map_drain_tokens hts
  rcases Brackets.exists_last_opening h hdepth with ⟨before, after, hsplit, hafter⟩
  rcases List.map_eq_append_iff.1 (hmap.trans hsplit) with ⟨front, rest, hdrain, -, hrest⟩
  rcases List.map_eq_cons_iff.1 hrest with ⟨x, rear, rfl, hx, hrear⟩
  rcases (eq_tokens_of_drain_tokens ts).1 x (hdrain ▸ by simp) with ⟨us, hus⟩
  have hpair : x = (.loopOpen, tokens us) := Prod.ext hx hus
  rw [hpair] at hdrain
  have hbuild := a.build_of_leftOpen rfl hdrain (hmap ▸ h) (hrear ▸ hafter)
  rcases (eq_tokens_of_drain_tokens ts).2 with ⟨vs, hvs⟩
  have hconsumed : a.source.drain.2.consumed = "" := by
    rw [show a.source.drain.2 = tokens vs from hvs]
    rfl
  rw [hmap, hconsumed] at hbuild
  exact hbuild

theorem Source.exists_build_iff {ts : List Token} (fold : Bool) (hts : .endOfText ∉ ts) :
    (∃ p, (tokens ts).build fold = .ok p) ↔ Token.brackets.Balanced ts := by
  refine ⟨?_, build_of_balanced fold hts⟩
  rintro ⟨p, hp⟩
  by_contra hbalanced
  by_cases h : Token.brackets.NoStray ts
  · have he := build_of_noStray fold hts h (fun hz => hbalanced ⟨h, hz⟩)
    rw [hp] at he
    cases he
  · have he := build_of_not_noStray fold hts h
    rw [hp] at he
    cases he

/-! ## Reports -/

namespace LoopError

/-- The report is of this kind and names this place. -/
def At (e : LoopError) (kind : LoopError.Kind) (place : Position) : Prop :=
  e.kind = kind ∧ e.line = place.line ∧ e.column = place.column

/-- The message begins with this number of brackets left open. -/
def Counts (e : LoopError) (n : Nat) : Prop :=
  ∃ rest, e.message = s!"UnterminatedLoopError: {n} '[' left open at end of program" ++ rest

theorem at_stray (source : String) (place : Position) :
    (stray source place.line place.column).At .unbalanced place :=
  ⟨rfl, rfl, rfl⟩

theorem at_leftOpen (n : Nat) (source : String) (place : Position) :
    (leftOpen n source place.line place.column).At .unterminated place :=
  ⟨rfl, rfl, rfl⟩

theorem counts_leftOpen (n : Nat) (source : String) (line column : Nat) :
    (leftOpen n source line column).Counts n := by
  have htitle (s : String) :
      Kind.unterminated.title ++ (": " ++ s) = "UnterminatedLoopError: " ++ s := by
    rw [← String.append_assoc]
    rfl
  unfold Counts message leftOpen locate
  simp only [String.append_assoc, htitle]
  exact ⟨_, rfl⟩

end LoopError

/-! ## The result -/

/-- A text is a program if and only if its brackets are balanced.  Otherwise the
report is on the first closing bracket that has more of its kind than opening
ones before it, or, if there is none, on the last opening bracket that is never
closed, and counts these.  Tokens of a list are decided in the same way, without
a place. -/
theorem build_decides_balance (fold : Bool) :
    (∀ text : List Char,
      ((∃ p, Program.ofText text fold = .ok p) ↔ Text.brackets.Balanced text) ∧
      (¬ Text.brackets.NoStray text → ∃ before after e,
        text = before ++ ']' :: after ∧ Text.brackets.NoStray before ∧
        ¬ Text.brackets.NoStray (before ++ [']']) ∧
        Program.ofText text fold = .error e ∧ e.At .unbalanced (.following before)) ∧
      (Text.brackets.NoStray text → Text.brackets.depth text ≠ 0 → ∃ before after e,
        text = before ++ '[' :: after ∧ Text.brackets.NoStray after ∧
        (∀ before' after', text = before' ++ '[' :: after' → Text.brackets.NoStray after' →
          before'.length ≤ before.length) ∧
        Program.ofText text fold = .error e ∧ e.At .unterminated (.following before) ∧
        e.Counts (Text.brackets.unclosed text))) ∧
    ∀ ts : List Token, .endOfText ∉ ts →
      ((∃ p, (Source.tokens ts).build fold = .ok p) ↔ Token.brackets.Balanced ts) ∧
      (¬ Token.brackets.NoStray ts → ∃ e, (Source.tokens ts).build fold = .error e ∧
        e.At .unbalanced ⟨0, 0⟩ ∧ e.context = "") ∧
      (Token.brackets.NoStray ts → Token.brackets.depth ts ≠ 0 →
        ∃ e, (Source.tokens ts).build fold = .error e ∧ e.At .unterminated ⟨0, 0⟩ ∧
          e.context = "" ∧ e.Counts (Token.brackets.unclosed ts)) := by
  refine ⟨fun text => ⟨Program.exists_ofText_iff text fold, ?_, ?_⟩, fun ts hts =>
    ⟨Source.exists_build_iff fold hts, ?_, ?_⟩⟩
  · intro h
    rcases Program.ofText_of_not_noStray fold h with ⟨before, after, htext, hbefore, hzero, he⟩
    exact ⟨before, after, _, htext, hbefore, Brackets.not_noStray_of_depth_eq_zero hzero, he,
      LoopError.at_stray _ _⟩
  · intro h hdepth
    rcases Program.ofText_of_noStray fold h hdepth with ⟨before, after, htext, hafter, he⟩
    refine ⟨before, after, _, htext, hafter.1, ?_, he, LoopError.at_leftOpen _ _ _,
      LoopError.counts_leftOpen _ _ _ _⟩
    intro before' after' htext' hafter'
    exact Brackets.length_le_of_depth_eq_zero (htext.symm.trans htext') hafter.1 hafter.2 hafter'
  · intro h
    exact ⟨_, Source.build_of_not_noStray fold hts h, LoopError.at_stray _ ⟨0, 0⟩, rfl⟩
  · intro h hdepth
    exact ⟨_, Source.build_of_noStray fold hts h hdepth, LoopError.at_leftOpen _ _ ⟨0, 0⟩, rfl,
      LoopError.counts_leftOpen _ _ _ _⟩

/-- A closing bracket behind a loop, two loops that are left open behind one
that is not, and a list of one opening bracket. -/
theorem build_decides_balance_instances :
    (¬ Text.brackets.NoStray "[-]\n+]".toList ∧
      ∃ before after e, "[-]\n+]".toList = before ++ ']' :: after ∧
        Text.brackets.NoStray before ∧ ¬ Text.brackets.NoStray (before ++ [']']) ∧
        Program.ofText "[-]\n+]".toList = .error e ∧ e.At .unbalanced (.following before)) ∧
    (Text.brackets.NoStray "[-][\n[".toList ∧ Text.brackets.depth "[-][\n[".toList ≠ 0 ∧
      ∃ before after e, "[-][\n[".toList = before ++ '[' :: after ∧
        Text.brackets.NoStray after ∧
        (∀ before' after', "[-][\n[".toList = before' ++ '[' :: after' →
          Text.brackets.NoStray after' → before'.length ≤ before.length) ∧
        Program.ofText "[-][\n[".toList = .error e ∧ e.At .unterminated (.following before) ∧
        e.Counts (Text.brackets.unclosed "[-][\n[".toList)) ∧
    .endOfText ∉ [Token.loopOpen] ∧ Token.brackets.NoStray [.loopOpen] ∧
      Token.brackets.depth [.loopOpen] ≠ 0 ∧
      ∃ e, (Source.tokens [.loopOpen]).build = .error e ∧ e.At .unterminated ⟨0, 0⟩ ∧
        e.context = "" ∧ e.Counts (Token.brackets.unclosed [.loopOpen]) := by
  have hstray : ¬ Text.brackets.NoStray "[-]\n+]".toList := by decide
  have hopen : Text.brackets.NoStray "[-][\n[".toList := by decide
  have hdepth : Text.brackets.depth "[-][\n[".toList ≠ 0 := by decide
  have hend : .endOfText ∉ [Token.loopOpen] := by decide
  have htoken : Token.brackets.NoStray [.loopOpen] := by decide
  have hone : Token.brackets.depth [.loopOpen] ≠ 0 := by decide
  exact ⟨⟨hstray, ((build_decides_balance true).1 _).2.1 hstray⟩,
    ⟨hopen, hdepth, ((build_decides_balance true).1 _).2.2 hopen hdepth⟩,
    hend, htoken, hone, ((build_decides_balance true).2 _ hend).2.2 htoken hone⟩

end Brainfuck
