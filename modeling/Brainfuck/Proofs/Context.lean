import Brainfuck.Proofs.Balance

/-!
# The lines that a report shows

A report on the brackets of a text shows the line of the bracket and up to two lines
on both sides of it, as far as the text had been read.

* `Text.lines_eq_splitOn` makes the lines of a text known to the library, and
  `Text.lines_append` says what happens to lines where two texts meet.
* The line and the column of a character are read off the lines of the text before it
  (`Position.following_eq_lines`), so that `Text.getElem?_lines_of_following` finds the
  line again in the whole text.
* `Text.lines_excerpt` says that an excerpt is a row of rows: the numbered lines of its
  window, of which one is marked (`Text.countP_rows`).
* `LoopError.ShowsStray` and `LoopError.ShowsLeftOpen` are what there is to be said of
  the two kinds of reports.
-/

namespace Brainfuck

/-! ## Lines -/

namespace Text

theorem lines_ne_nil (cs : List Char) : lines cs ≠ [] := by
  cases cs with
  | nil => exact nofun
  | cons c cs =>
    rw [lines, List.foldr_cons]
    split
    · exact nofun
    · split <;> exact nofun

theorem lines_cons (c : Char) (cs : List Char) :
    lines (c :: cs) = if c = '\n' then [] :: lines cs else (lines cs).modifyHead (c :: ·) := by
  obtain ⟨line, rest, hlines⟩ := List.exists_cons_of_ne_nil (lines_ne_nil cs)
  have hfold : cs.foldr _ [[]] = line :: rest := hlines
  rw [hlines, lines, List.foldr_cons, hfold]
  rfl

/-- Lines are what line feeds stand between. -/
theorem lines_eq_splitOn (cs : List Char) : lines cs = cs.splitOn '\n' := by
  induction cs with
  | nil => rfl
  | cons c cs ih =>
    rw [lines_cons, List.splitOn_cons_eq_if_modifyHead, ih]
    simp only [beq_iff_eq]

theorem length_lines (cs : List Char) : (lines cs).length = cs.count '\n' + 1 := by
  induction cs with
  | nil => rfl
  | cons c cs ih =>
    rw [lines_cons]
    by_cases hc : c = '\n'
    · rw [if_pos hc, List.length_cons, ih, hc, List.count_cons_self]
    · rw [if_neg hc, List.length_modifyHead, ih, List.count_cons_of_ne hc]

theorem newline_notMem_of_mem_lines {cs line : List Char} (h : line ∈ lines cs) : '\n' ∉ line := by
  induction cs generalizing line with
  | nil =>
    rw [List.mem_singleton.1 h]
    exact List.not_mem_nil
  | cons c cs ih =>
    obtain ⟨head, rest, hlines⟩ := List.exists_cons_of_ne_nil (lines_ne_nil cs)
    rw [lines_cons, hlines] at h
    rw [hlines] at ih
    by_cases hc : c = '\n'
    · rw [if_pos hc, List.mem_cons] at h
      rcases h with rfl | h
      · exact List.not_mem_nil
      · exact ih h
    · rw [if_neg hc, List.modifyHead_cons, List.mem_cons] at h
      rcases h with rfl | h
      · rw [List.mem_cons]
        rintro (hfeed | hmem)
        · exact hc hfeed.symm
        · exact ih List.mem_cons_self hmem
      · exact ih (List.mem_cons_of_mem _ h)

/-- Where two texts meet, the last line of the one and the first line of the other are one. -/
theorem lines_append (xs ys : List Char) :
    lines (xs ++ ys) =
      (lines xs).dropLast ++
        ((lines xs).getLastD [] ++ (lines ys).headD []) :: (lines ys).tail := by
  induction xs with
  | nil =>
    obtain ⟨head, rest, hlines⟩ := List.exists_cons_of_ne_nil (lines_ne_nil ys)
    rw [List.nil_append, hlines]
    rfl
  | cons c xs ih =>
    rw [List.cons_append, lines_cons, lines_cons, ih]
    obtain ⟨line, rest, hlines⟩ := List.exists_cons_of_ne_nil (lines_ne_nil xs)
    rw [hlines]
    by_cases hc : c = '\n'
    · rw [if_pos hc, if_pos hc]
      rfl
    · rw [if_neg hc, if_neg hc]
      cases rest <;> rfl

/-- A character in the middle of a line cuts it. -/
theorem lines_append_cons (before : List Char) {c : Char} (hc : c ≠ '\n') (after : List Char) :
    lines (before ++ c :: after) = (lines before).dropLast ++
      ((lines before).getLastD [] ++ c :: (lines after).headD []) :: (lines after).tail := by
  obtain ⟨head, rest, hlines⟩ := List.exists_cons_of_ne_nil (lines_ne_nil after)
  rw [lines_append, lines_cons, if_neg hc, hlines]
  rfl

theorem length_dropLast_lines (cs : List Char) : (lines cs).dropLast.length = cs.count '\n' := by
  rw [List.length_dropLast, length_lines, Nat.add_sub_cancel]

end Text

/-- A text ends in its last line, at the end of it. -/
theorem Position.ofText_eq_lines (text : List Char) :
    ofText text = ⟨(Text.lines text).length, ((Text.lines text).getLastD []).length⟩ := by
  induction text using List.reverseRecOn with
  | nil => rfl
  | append_singleton text c ih =>
    rw [ofText_append_singleton, ih, advance, Text.lines_append]
    have hlength := Text.length_dropLast_lines text
    have hlines := Text.length_lines text
    by_cases hc : c = '\n'
    · have hnewline : Text.lines [c] = [[], []] := by rw [hc]; rfl
      rw [if_pos hc, hnewline]
      simp [hlength, hlines]
    · have hsingle : Text.lines [c] = [[c]] := by rw [Text.lines_cons, if_neg hc]; rfl
      rw [if_neg hc, hsingle]
      simp [hlength, hlines]

theorem Position.following_eq_lines (before : List Char) :
    following before =
      ⟨(Text.lines before).length, ((Text.lines before).getLastD []).length + 1⟩ := by
  have htext := ofText_eq before
  rw [ofText_eq_lines, Position.mk.injEq] at htext
  rw [following, htext.1, htext.2]

namespace Text

section Place

variable (before : List Char) {c : Char} (hc : c ≠ '\n') (after : List Char)

theorem length_dropLast_lines_eq_line :
    (lines before).dropLast.length = (Position.following before).line - 1 :=
  length_dropLast_lines before

theorem line_le_length_lines :
    (Position.following before).line ≤ (lines (before ++ after)).length := by
  rw [length_lines, List.count_append]
  show before.count '\n' + 1 ≤ _
  omega

include hc

/-- The lines before the one of a character are those of the text before it. -/
theorem take_lines_of_following :
    (lines (before ++ c :: after)).take ((Position.following before).line - 1) =
      (lines before).dropLast := by
  rw [lines_append_cons before hc, ← length_dropLast_lines_eq_line]
  exact List.take_left

/-- The line of a character. -/
theorem getElem?_lines_of_following :
    (lines (before ++ c :: after))[(Position.following before).line - 1]? =
      some ((lines before).getLastD [] ++ c :: (lines after).headD []) := by
  rw [lines_append_cons before hc, ← length_dropLast_lines_eq_line,
    List.getElem?_append_right (Nat.le_refl _), Nat.sub_self]
  rfl

end Place

/-! ## Windows -/

/-- Numbered items between two numbers are a piece of the row. -/
theorem filter_zipIdx {α : Type} (xs : List α) (n lo hi : Nat) :
    (xs.zipIdx n).filter (fun x => lo ≤ x.2 && x.2 ≤ hi) =
      ((xs.take (hi + 1 - n)).drop (lo - n)).zipIdx (max lo n) := by
  induction xs generalizing n with
  | nil => simp
  | cons x xs ih =>
    rw [List.zipIdx_cons, List.filter_cons, ih]
    by_cases hhi : hi < n
    · have hnone : hi + 1 - n = 0 := by omega
      have hnone' : hi + 1 - (n + 1) = 0 := by omega
      rw [if_neg (by simp; omega), hnone, hnone', List.take_zero, List.take_zero, List.drop_nil,
        List.drop_nil]
      rfl
    · have htake : hi + 1 - n = hi + 1 - (n + 1) + 1 := by omega
      rw [htake, List.take_succ_cons]
      by_cases hlo : lo ≤ n
      · have hdrop : lo - n = 0 := by omega
        have hdrop' : lo - (n + 1) = 0 := by omega
        rw [if_pos (by simp; omega), hdrop, hdrop', Nat.max_eq_right hlo,
          Nat.max_eq_right (by omega : lo ≤ n + 1)]
        rfl
      · have hdrop : lo - n = lo - (n + 1) + 1 := by omega
        rw [if_neg (by simp; omega), hdrop, List.drop_succ_cons,
          Nat.max_eq_left (by omega : n ≤ lo), Nat.max_eq_left (by omega : n + 1 ≤ lo)]

/-- The lines of a text from one number to another, both counted from one. -/
def linesBetween (cs : List Char) (first last : Nat) : List (List Char) :=
  ((lines cs).take last).drop (first - 1)

theorem length_linesBetween (cs : List Char) (first last : Nat) :
    (linesBetween cs first last).length = min last (lines cs).length - (first - 1) := by
  rw [linesBetween, List.length_drop, List.length_take]

/-- The window around a line of a text reaches from two lines before it to two lines
behind it, as far as there are such lines. -/
theorem window_lines (cs : List Char) (centre : Nat) :
    window ((lines cs).map String.ofList) centre 2 =
      ((linesBetween cs (max 1 (centre - 2)) (min (lines cs).length (centre + 2))).map
        String.ofList).zipIdx (max 1 (centre - 2)) := by
  have htest : (fun x : String × Nat =>
      decide ((centre : Int) - 2 ≤ x.2) && decide ((x.2 : Int) ≤ centre + 2)) =
      fun x => decide (centre - 2 ≤ x.2) && decide (x.2 ≤ centre + 2) := by
    funext x
    congr 1
    · exact decide_eq_decide.2 (by omega)
    · exact decide_eq_decide.2 (by omega)
  have hfirst : max 1 (centre - 2) - 1 = centre - 2 - 1 := by omega
  unfold window
  rw [htest, filter_zipIdx, linesBetween, hfirst, List.map_drop, List.map_take, Nat.max_comm]
  congr 2
  rw [← List.length_map String.ofList, Nat.min_comm, ← List.take_eq_take_min,
    Nat.add_sub_cancel]

/-! ## Rows -/

/-- The rows that show these lines.  They are numbered from `first` on, and the row with
the number `marked` is marked. -/
def rows (first marked : Nat) (shown : List (List Char)) : List (List Char) :=
  (shown.zipIdx first).map fun x => (excerptRow (x.2 = marked) x.2 (String.ofList x.1)).toList

theorem toList_excerptRow (marked : Bool) (number : Nat) (line : String) :
    (excerptRow marked number line).toList =
      (if marked then '>' else ' ') :: ' ' ::
        ((lineNumber number).toList ++ " | ".toList ++ line.toList) := by
  unfold excerptRow
  cases marked <;> simp

theorem newline_notMem_lineNumber (n : Nat) : '\n' ∉ (lineNumber n).toList := by
  unfold lineNumber
  simp only [String.toList_append, String.toList_ofList, List.mem_append, List.mem_replicate]
  rintro (⟨-, h⟩ | h)
  · exact absurd h (by decide)
  · rw [Nat.toString_eq_repr, Nat.toList_repr] at h
    exact absurd (Nat.isDigit_of_mem_toDigits (by decide) (by decide) h) (by decide)

theorem newline_notMem_of_mem_rows {first marked : Nat} {shown : List (List Char)}
    (h : ∀ line ∈ shown, '\n' ∉ line) : ∀ row ∈ rows first marked shown, '\n' ∉ row := by
  intro row hrow
  obtain ⟨⟨line, i⟩, hmem, rfl⟩ := List.mem_map.1 hrow
  have hline : '\n' ∉ line := h line (List.fst_mem_of_mem_zipIdx hmem)
  have hnumber := newline_notMem_lineNumber i
  have hmark : '\n' ≠ if i = marked then '>' else ' ' := by
    split <;> decide
  rw [toList_excerptRow, String.toList_ofList]
  simp [hline, hnumber, hmark]

/-- The last row is marked if its number is. -/
theorem head?_getLast?_rows {first marked : Nat} {front : List (List Char)} (line : List Char)
    (h : first + front.length = marked) :
    (rows first marked (front ++ [line])).getLast?.bind List.head? = some '>' := by
  rw [rows, List.zipIdx_append, List.map_append, List.zipIdx_singleton, List.map_singleton,
    List.getLast?_concat, Option.bind_some, toList_excerptRow, h]
  simp

/-- Only the row with the number `marked` is marked. -/
theorem countP_rows {first marked : Nat} {shown : List (List Char)} (hlow : first ≤ marked)
    (hhigh : marked < first + shown.length) :
    (rows first marked shown).countP (fun row => row.head? = some '>') = 1 := by
  have htest : ((fun row : List Char => decide (row.head? = some '>')) ∘ fun x : List Char × Nat =>
      (excerptRow (x.2 = marked) x.2 (String.ofList x.1)).toList) =
      fun x => decide (marked ≤ x.2) && decide (x.2 ≤ marked) := by
    funext x
    rw [Function.comp_apply, toList_excerptRow, List.head?_cons]
    by_cases hx : x.2 = marked
    · simp [hx]
    · have hbounds : ¬ (marked ≤ x.2 ∧ x.2 ≤ marked) := by omega
      simp [hx]
      omega
  rw [rows, List.countP_map, htest, List.countP_eq_length_filter, filter_zipIdx,
    List.length_zipIdx, List.length_drop, List.length_take]
  omega

/-- An excerpt is the rows of the lines in its window. -/
theorem lines_excerpt {cs : List Char} {centre : Nat} (hpos : 1 ≤ centre)
    (hle : centre ≤ (lines cs).length) :
    lines (excerpt ((lines cs).map String.ofList) centre).toList =
      rows (max 1 (centre - 2)) centre
        (linesBetween cs (max 1 (centre - 2)) (min (lines cs).length (centre + 2))) := by
  have hcondition : ¬ (((lines cs).map String.ofList).isEmpty || decide ((centre : Int) < 1)) =
      true := by
    simp [lines_ne_nil cs]
    omega
  have hcentre : min (centre : Int) ((lines cs).map String.ofList).length = centre := by
    rw [List.length_map]
    omega
  unfold excerpt
  rw [if_neg hcondition, hcentre]
  dsimp only
  rw [window_lines]
  generalize hshown : linesBetween cs _ _ = shown
  have hrows : (((shown.map String.ofList).zipIdx (max 1 (centre - 2))).map
      fun row => excerptRow ((row.2 : Int) = centre) row.2 row.1).map String.toList =
      rows (max 1 (centre - 2)) centre shown := by
    rw [List.zipIdx_map, List.map_map, List.map_map, rows]
    congr 1
    funext x
    simp only [Function.comp_apply, Prod.map, id, Int.natCast_inj]
  have hnewline : ∀ line ∈ shown, '\n' ∉ line := by
    intro line hline
    rw [← hshown] at hline
    exact newline_notMem_of_mem_lines (List.mem_of_mem_take (List.mem_of_mem_drop hline))
  have hne : rows (max 1 (centre - 2)) centre shown ≠ [] := by
    intro hnil
    have hlength := length_linesBetween cs (max 1 (centre - 2)) (min (lines cs).length (centre + 2))
    rw [hshown] at hlength
    have hcount : (rows (max 1 (centre - 2)) centre shown).countP
        (fun row => row.head? = some '>') = 1 := countP_rows (by omega) (by omega)
    rw [hnil] at hcount
    cases hcount
  -- No row has a line feed in it, so splitting at line feeds undoes the joining.
  rw [String.toList_intercalate]
  show lines (['\n'].intercalate ((List.map (fun row : String × Nat =>
    excerptRow ((row.2 : Int) = centre) row.2 row.1) _).map String.toList)) = _
  rw [hrows, lines_eq_splitOn]
  exact List.splitOn_intercalate '\n' (newline_notMem_of_mem_rows hnewline) hne

end Text

/-! ## Reports -/

/-- The context of the report shows these lines, numbered one after the other from two
lines before line `line` or from the first.  One of the rows is marked, and its number
is `line`. -/
structure LoopError.ShowsLines (e : LoopError) (line : Nat) (shown : List (List Char)) : Prop where
  rows : Text.lines e.context.toList = Text.rows (max 1 (line - 2)) line shown
  shows_line : max 1 (line - 2) ≤ line ∧ line < max 1 (line - 2) + shown.length
  one_marked : (Text.lines e.context.toList).countP (fun row => row.head? = some '>') = 1

/-- A report on a line of a text shows what of the text is around the line. -/
theorem LoopError.showsLines_locate {source : List Char} {line : Nat} (hpos : 1 ≤ line)
    (hle : line ≤ (Text.lines source).length) (hne : source ≠ []) (kind : LoopError.Kind)
    (detail : String) (column : Int) :
    (locate kind detail (String.ofList source) line column).ShowsLines line
      (Text.linesBetween source (max 1 (line - 2))
        (min (Text.lines source).length (line + 2))) := by
  have hcontext : (locate kind detail (String.ofList source) line column).context =
      Text.excerpt ((Text.lines source).map String.ofList) line := by
    have hempty : ¬ (String.ofList source).isEmpty = true := by
      simpa using hne
    rw [locate, contextOf, if_neg hempty, String.toList_ofList]
  have hrows := Text.lines_excerpt hpos hle
  have hlength := Text.length_linesBetween source (max 1 (line - 2))
    (min (Text.lines source).length (line + 2))
  have hbounds : max 1 (line - 2) ≤ line ∧ line < max 1 (line - 2) +
      (Text.linesBetween source (max 1 (line - 2))
        (min (Text.lines source).length (line + 2))).length := by omega
  rw [← hcontext] at hrows
  refine ⟨hrows, hbounds, ?_⟩
  rw [hrows]
  exact Text.countP_rows hbounds.1 hbounds.2

/-- What a report on a stray bracket at a place shows of the text: the lines before, and
line `place.line` up to the bracket.  What stands behind the bracket has no part in the
report. -/
structure LoopError.ShowsStray (text : List Char) (e : LoopError) (place : Position) : Prop where
  shown : e.ShowsLines place.line
    (Text.linesBetween text (max 1 (place.line - 2)) (place.line - 1) ++
      [((Text.lines text)[place.line - 1]?.getD []).take place.column])
  marked_last : (Text.lines e.context.toList).getLast?.bind List.head? = some '>'
  bracket : ∃ front,
    ((Text.lines text)[place.line - 1]?.getD []).take place.column = front ++ [']'] ∧
      front.length + 1 = place.column
  kept : ∃ before after, text = before ++ ']' :: after ∧ Position.following before = place ∧
    ∀ after' fold, Program.ofText (before ++ ']' :: after') fold = .error e

/-- What a report on a bracket that is left open shows of the text: all lines that are at
most two lines away, complete. -/
structure LoopError.ShowsLeftOpen (text : List Char) (e : LoopError) (place : Position) : Prop where
  shown : e.ShowsLines place.line (Text.linesBetween text (max 1 (place.line - 2))
    (min (Text.lines text).length (place.line + 2)))
  bracket : ((Text.lines text)[place.line - 1]?.getD [])[place.column - 1]? = some '['

/-- Of the line of a character, as many characters as its column counts are those up to
it. -/
theorem Text.take_column_of_following (before : List Char) {c : Char} (hc : c ≠ '\n')
    (after : List Char) :
    ((lines (before ++ c :: after))[(Position.following before).line - 1]?.getD []).take
      (Position.following before).column = (lines before).getLastD [] ++ [c] := by
  have hcolumn : (Position.following before).column = ((lines before).getLastD []).length + 1 := by
    rw [Position.following_eq_lines]
  rw [getElem?_lines_of_following before hc after, hcolumn, Option.getD_some,
    List.take_length_add_append]
  rfl

/-- What is shown of a text that ends with a stray bracket. -/
theorem Text.linesBetween_of_last (before : List Char) {c : Char} (hc : c ≠ '\n')
    (after : List Char) :
    let line := (Position.following before).line
    linesBetween (before ++ [c]) (max 1 (line - 2))
        (min (lines (before ++ [c])).length (line + 2)) =
      linesBetween (before ++ c :: after) (max 1 (line - 2)) (line - 1) ++
        [(lines before).getLastD [] ++ [c]] := by
  intro line
  have hlines : lines (before ++ [c]) =
      (lines before).dropLast ++ [(lines before).getLastD [] ++ [c]] :=
    lines_append_cons before hc []
  have hfront : (lines before).dropLast.length = line - 1 := length_dropLast_lines_eq_line before
  have hlength : (lines (before ++ [c])).length = line - 1 + 1 := by
    rw [hlines, List.length_append, hfront]
    rfl
  rw [linesBetween, linesBetween, take_lines_of_following before hc after,
    List.take_of_length_le (by omega), hlines, List.drop_append_of_le_length (by omega)]

namespace LoopError

/-- The line of a stray bracket is shown up to it. -/
theorem showsStray_stray {before : List Char} (hbefore : Text.brackets.NoStray before)
    (hzero : Text.brackets.depth before = 0) (after : List Char) :
    (stray (String.ofList (before ++ [']'])) (Position.following before).line
      (Position.following before).column).ShowsStray (before ++ ']' :: after)
      (.following before) := by
  have hbracket : ']' ≠ '\n' := by decide
  have hcut := Text.take_column_of_following before hbracket after
  have hpos : 1 ≤ (Position.following before).line := Nat.le_add_left 1 _
  have hshown := showsLines_locate hpos (Text.line_le_length_lines before [']'])
    (by simp) .unbalanced "']' without a matching '['" (Position.following before).column
  rw [Text.linesBetween_of_last before hbracket after] at hshown
  refine ⟨?_, ?_, ⟨_, hcut, ?_⟩, before, after, rfl, rfl, fun after' fold =>
    Program.ofText_of_stray hbefore hzero after' fold⟩
  · rw [hcut]
    exact hshown
  · have hlength := Text.length_linesBetween (before ++ ']' :: after)
      (max 1 ((Position.following before).line - 2)) ((Position.following before).line - 1)
    have hle := Text.line_le_length_lines before (']' :: after)
    rw [stray, hshown.rows]
    exact Text.head?_getLast?_rows _ (by omega)
  · rw [Position.following_eq_lines]

/-- The line of a bracket that is left open is shown with all lines around it. -/
theorem showsLeftOpen_leftOpen (before after : List Char) (count : Nat) :
    (leftOpen count (String.ofList (before ++ '[' :: after)) (Position.following before).line
      (Position.following before).column).ShowsLeftOpen (before ++ '[' :: after)
      (.following before) := by
  have hbracket : '[' ≠ '\n' := by decide
  constructor
  · exact showsLines_locate (Nat.le_add_left 1 _) (Text.line_le_length_lines before _)
      (by simp) _ _ _
  · rw [Text.getElem?_lines_of_following before hbracket after, Position.following_eq_lines,
      Nat.add_sub_cancel, Option.getD_some, List.getElem?_append_right (Nat.le_refl _),
      Nat.sub_self]
    rfl

end LoopError

/-- The report on a text that is no program shows the right lines. -/
theorem context_shows_lines {text : List Char} {fold : Bool} {e : LoopError}
    (h : Program.ofText text fold = .error e) :
    ∃ place : Position, 1 ≤ place.line ∧ 1 ≤ place.column ∧
      e.line = place.line ∧ e.column = place.column ∧
      (e.kind = .unbalanced → e.ShowsStray text place) ∧
      (e.kind = .unterminated → e.ShowsLeftOpen text place) := by
  obtain ⟨before, after, rfl, hbefore, hzero, rfl⟩ | ⟨before, after, rfl, hall, hafter, rfl⟩ :=
    Program.ofText_error_cases h
  · refine ⟨.following before, Nat.le_add_left 1 _, Nat.le_add_left 1 _, rfl, rfl, ?_, nofun⟩
    intro _
    exact LoopError.showsStray_stray hbefore hzero after
  · refine ⟨.following before, Nat.le_add_left 1 _, Nat.le_add_left 1 _, rfl, rfl, nofun, ?_⟩
    intro _
    exact LoopError.showsLeftOpen_leftOpen before after _

/-- A stray bracket on the fourth line, behind which the text could go on in any way, and
a bracket that is left open on the second of five lines. -/
theorem context_shows_lines_instances :
    (let text := "a\nb\n[-]\n+]],\n".toList
     let e := LoopError.stray "a\nb\n[-]\n+]" 4 2
     Program.ofText text = .error e ∧ e.ShowsStray text ⟨4, 2⟩ ∧
      e.context = "     2 | b\n     3 | [-]\n>    4 | +]") ∧
    (let text := "+\n,[\n[-]\n.\n".toList
     let e := LoopError.leftOpen 1 "+\n,[\n[-]\n.\n" 2 2
     Program.ofText text = .error e ∧ e.ShowsLeftOpen text ⟨2, 2⟩ ∧
      e.context = "     1 | +\n>    2 | ,[\n     3 | [-]\n     4 | .") := by
  have hstray : Program.ofText "a\nb\n[-]\n+]],\n".toList =
      .error (.stray "a\nb\n[-]\n+]" 4 2) := rfl
  have hopen : Program.ofText "+\n,[\n[-]\n.\n".toList =
      .error (.leftOpen 1 "+\n,[\n[-]\n.\n" 2 2) := rfl
  refine ⟨⟨hstray, ?_, rfl⟩, hopen, ?_, rfl⟩
  · obtain ⟨⟨line, column⟩, -, -, hline, hcolumn, hshows, -⟩ := context_shows_lines hstray
    obtain rfl : 4 = line := Int.ofNat.inj hline
    obtain rfl : 2 = column := Int.ofNat.inj hcolumn
    exact hshows rfl
  · obtain ⟨⟨line, column⟩, -, -, hline, hcolumn, -, hshows⟩ := context_shows_lines hopen
    obtain rfl : 2 = line := Int.ofNat.inj hline
    obtain rfl : 2 = column := Int.ofNat.inj hcolumn
    exact hshows rfl

end Brainfuck
