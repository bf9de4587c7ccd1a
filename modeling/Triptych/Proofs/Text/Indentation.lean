import Triptych.Proofs.Text.Search
import Triptych.Text.Indentation

/-!
# What taking away indentation does to a text

Taking away the common indentation drops blanks at the starts of lines and nothing else. `Reindents`
says so as a relation between the two texts, character by character, so that a reader that pays no
attention to such blanks can be followed through both at once; `reindents_dedent` is the fact.

Text that is put behind a visible character, and that holds no line feed, changes neither the lines
nor their indentation, so it can be put there before or after the indentation is taken away
(`dedent_insert`). The same goes for the blanks around a text (`trim_insert`).
-/

namespace Triptych.Text

/-! ### Lines -/

theorem splitLines_newline (text : List Char) :
    splitLines ('\n' :: text) = [] :: splitLines text := by
  simp [splitLines, List.splitOn_cons_eq_if_modifyHead]

/-- A character that is no line feed belongs to the first line. -/
theorem splitLines_cons {c : Char} {text line : List Char} {lines : List (List Char)}
    (hc : c ≠ '\n') (h : splitLines text = line :: lines) :
    splitLines (c :: text) = (c :: line) :: lines := by
  unfold splitLines at h ⊢
  rw [List.splitOn_cons_eq_if_modifyHead, if_neg (by simpa using hc), h, List.modifyHead_cons]

/-- There is a first line. -/
theorem exists_splitLines (text : List Char) : ∃ line lines, splitLines text = line :: lines :=
  List.exists_cons_of_ne_nil (List.splitOn_ne_nil '\n' text)

/-- A run without line feeds belongs to the first line. -/
theorem splitLines_run {run text line : List Char} {lines : List (List Char)} (hrun : '\n' ∉ run)
    (h : splitLines text = line :: lines) : splitLines (run ++ text) = (run ++ line) :: lines := by
  induction run with
  | nil => exact h
  | cons c cs ih =>
    rw [List.mem_cons, not_or] at hrun
    exact splitLines_cons (Ne.symm hrun.1) (ih hrun.2)

/-- The last line of a text goes on into the first line of what is put behind it. -/
theorem splitLines_append (before : List Char) :
    ∃ init last, ∀ {text line : List Char} {lines : List (List Char)},
      splitLines text = line :: lines →
      splitLines (before ++ text) = init ++ (last ++ line) :: lines := by
  induction before with
  | nil => exact ⟨[], [], fun h => h⟩
  | cons c cs ih =>
    obtain ⟨init, last, ih⟩ := ih
    by_cases hc : c = '\n'
    · refine ⟨[] :: init, last, fun h => ?_⟩
      rw [hc, List.cons_append, splitLines_newline, ih h, List.cons_append]
    · -- The character belongs to the first line, which is the last one if there is no other.
      cases init with
      | nil => exact ⟨[], c :: last, fun h => splitLines_cons hc (ih h)⟩
      | cons first init => exact ⟨(c :: first) :: init, last, fun h => splitLines_cons hc (ih h)⟩

/-- No line holds a line feed. -/
theorem not_mem_of_mem_splitLines {text line : List Char} (h : line ∈ splitLines text) :
    '\n' ∉ line := by
  induction text generalizing line with
  | nil =>
    obtain rfl : line = [] := List.mem_singleton.1 h
    exact List.not_mem_nil
  | cons c cs ih =>
    by_cases hc : c = '\n'
    · rw [hc, splitLines_newline, List.mem_cons] at h
      rcases h with rfl | h
      · exact List.not_mem_nil
      · exact ih h
    · -- The character goes to the front of the first line.
      obtain ⟨first, lines, hlines⟩ := exists_splitLines cs
      rw [splitLines_cons hc hlines, List.mem_cons] at h
      rw [hlines] at ih
      rcases h with rfl | h
      · rw [List.mem_cons, not_or]
        exact ⟨Ne.symm hc, ih List.mem_cons_self⟩
      · exact ih (List.mem_cons_of_mem _ h)

theorem joinLines_cons {lines : List (List Char)} (line : List Char) (h : lines ≠ []) :
    joinLines (line :: lines) = line ++ '\n' :: joinLines lines := by
  obtain ⟨next, rest, rfl⟩ := List.exists_cons_of_ne_nil h
  simp [joinLines, List.intercalate]

@[simp] theorem joinLines_singleton (line : List Char) : joinLines [line] = line := by
  simp [joinLines]

/-- Characters put in front of the first line are put in front of the text. -/
theorem joinLines_append_cons (run line : List Char) (lines : List (List Char)) :
    joinLines ((run ++ line) :: lines) = run ++ joinLines (line :: lines) := by
  by_cases h : lines = []
  · simp [h]
  · rw [joinLines_cons _ h, joinLines_cons _ h, List.append_assoc]

/-- The lines of a text make up the text. -/
theorem joinLines_splitLines (text : List Char) : joinLines (splitLines text) = text :=
  List.intercalate_splitOn '\n'

/-- A line may be cut in two, and the text with it. -/
theorem joinLines_cut (init lines : List (List Char)) (left right : List Char) :
    joinLines (init ++ (left ++ right) :: lines) =
      joinLines (init ++ [left]) ++ joinLines (right :: lines) := by
  induction init with
  | nil => rw [List.nil_append, joinLines_append_cons, List.nil_append, joinLines_singleton]
  | cons line init ih =>
    rw [List.cons_append, joinLines_cons line (by simp), ih, List.cons_append,
      joinLines_cons line (by simp), List.append_assoc, List.cons_append]

/-! ### The common indentation -/

theorem commonStart_prefix_left (xs ys : List Char) : commonStart xs ys <+: xs := by
  fun_induction commonStart xs ys with
  | case1 x xs ys ih => exact (List.cons_prefix_cons).2 ⟨rfl, ih⟩
  | case2 | case3 => exact List.nil_prefix

theorem commonStart_prefix_right (xs ys : List Char) : commonStart xs ys <+: ys := by
  fun_induction commonStart xs ys with
  | case1 x xs ys ih => exact (List.cons_prefix_cons).2 ⟨rfl, ih⟩
  | case2 | case3 => exact List.nil_prefix

/-- What a list of texts starts with in common, each of them starts with. -/
theorem foldl_commonStart_prefix (first : List Char) (others : List (List Char)) :
    ∀ text ∈ first :: others, others.foldl commonStart first <+: text := by
  induction others generalizing first with
  | nil =>
    intro text h
    obtain rfl := List.mem_singleton.1 h
    exact List.prefix_rfl
  | cons next others ih =>
    intro text h
    -- What is common to all is common to the start that the first two share.
    have hcommon := ih (commonStart first next) _ List.mem_cons_self
    rw [List.foldl_cons]
    rcases List.mem_cons.1 h with rfl | h
    · exact hcommon.trans (commonStart_prefix_left _ _)
    rcases List.mem_cons.1 h with rfl | h
    · exact hcommon.trans (commonStart_prefix_right _ _)
    · exact ih (commonStart first next) text (List.mem_cons_of_mem _ h)

/-- Every line with a visible character starts with the common indentation. -/
theorem commonIndent_leads {lines : List (List Char)} {line : List Char} (hmem : line ∈ lines)
    (hvisible : isBlankText line = false) : commonIndent lines <+: leadingBlanks line := by
  have hmem : leadingBlanks line ∈ (lines.filter fun line => !isBlankText line).map leadingBlanks :=
    List.mem_map_of_mem (List.mem_filter.2 ⟨hmem, by simp [hvisible]⟩)
  unfold commonIndent
  split
  next hnil => simp [hnil] at hmem
  next first others hlines =>
    rw [hlines] at hmem
    exact foldl_commonStart_prefix first others _ hmem

/-- The common indentation is told from the leading blanks of the lines with a visible character. -/
theorem commonIndent_congr {line line' : List Char} (init lines : List (List Char))
    (hline : isBlankText line = false) (hline' : isBlankText line' = false)
    (hblanks : leadingBlanks line = leadingBlanks line') :
    commonIndent (init ++ line :: lines) = commonIndent (init ++ line' :: lines) := by
  simp only [commonIndent, List.filter_append, List.filter_cons, hline, hline', Bool.not_false,
    if_true, List.map_append, List.map_cons, hblanks]

/-- Of each line, blanks are taken away and the rest is kept. -/
theorem dedentLine_split {indent line : List Char}
    (h : isBlankText line = false → indent <+: leadingBlanks line) :
    ∃ gone, line = gone ++ dedentLine indent line ∧ ∀ c ∈ gone, isBlank c = true := by
  unfold dedentLine
  split
  -- A line of blanks goes as a whole, even if it is shorter than the indentation.
  next hblank => exact ⟨line, by simp, by simpa [isBlankText] using hblank⟩
  next hvisible =>
    have hstart := h (by simpa using hvisible)
    refine ⟨indent, ?_, fun c hc => of_mem_takeWhile (hstart.subset hc)⟩
    obtain ⟨rest, hrest⟩ := hstart.trans (List.takeWhile_prefix _)
    rw [← hrest, List.drop_left]

/-! ### Texts that differ in their indentation -/

/-- **The second text is the first one without some blanks at the starts of lines.** The flag tells
whether the texts start a line. -/
inductive Reindents : Bool → List Char → List Char → Prop
  | nil (start : Bool) : Reindents start [] []
  | keep {start : Bool} {text text' : List Char} (c : Char) :
      Reindents (c == '\n') text text' → Reindents start (c :: text) (c :: text')
  | drop {c : Char} {text text' : List Char} :
      isBlank c = true → c ≠ '\n' → Reindents true text text' → Reindents true (c :: text) text'

namespace Reindents

variable {start : Bool} {run text text' : List Char}

/-- At the start of a line no less may be dropped than within it. -/
theorem mono {start' : Bool} (h : Reindents start text text') (hle : start ≤ start') :
    Reindents start' text text' := by
  cases h with
  | nil => exact .nil start'
  | keep c h => exact .keep c h
  | drop hblank hc h =>
    obtain rfl : start' = true := hle rfl
    exact .drop hblank hc h

/-- In the middle of a line the next character is kept. -/
theorem head?_eq (h : Reindents false text text') : text'.head? = text.head? := by
  cases h <;> rfl

/-- A run in front may be kept as it is. -/
theorem append (run : List Char) (h : Reindents false text text') :
    Reindents start (run ++ text) (run ++ text') := by
  induction run generalizing start with
  | nil => exact h.mono (Bool.false_le start)
  | cons c cs ih => exact .keep c ih

theorem refl (text : List Char) : Reindents start text text := by
  simpa using append text (.nil false)

/-- A run of blanks without a line feed may be dropped as a whole at the start of a line. -/
theorem dropRun (hblank : ∀ c ∈ run, isBlank c = true) (hrun : '\n' ∉ run)
    (h : Reindents true text text') :
    Reindents true (run ++ text) text' := by
  induction run with
  | nil => exact h
  | cons c cs ih =>
    rw [List.mem_cons, not_or] at hrun
    rw [List.forall_mem_cons] at hblank
    exact .drop hblank.1 (Ne.symm hrun.1) (ih hblank.2 hrun.2)

/-- Both texts have the same number of lines. -/
theorem count_newline (h : Reindents start text text') : text'.count '\n' = text.count '\n' := by
  induction h with
  | nil => rfl
  | keep c _ ih => simp only [List.count_cons, ih]
  | drop _ hc _ ih => rw [ih, List.count_cons_of_ne hc]

end Reindents

/-- Lines that each lose blanks at their start make up a text that does. -/
theorem reindents_joinLines {f : List Char → List Char} (lines : List (List Char))
    (h : ∀ line ∈ lines, '\n' ∉ line ∧ ∃ gone, line = gone ++ f line ∧ ∀ c ∈ gone,
      isBlank c = true) :
    Reindents true (joinLines lines) (joinLines (lines.map f)) := by
  induction lines with
  | nil => exact .nil true
  | cons line lines ih =>
    rw [List.forall_mem_cons] at h
    obtain ⟨⟨hline, gone, hgone, hblank⟩, hlines⟩ := h
    have hrun : '\n' ∉ gone := fun hmem => hline (hgone ▸ List.mem_append_left _ hmem)
    -- The last line has no line feed behind it.
    by_cases hlast : lines = []
    · rw [hlast, List.map_cons, List.map_nil, joinLines_singleton, joinLines_singleton]
      have hkept := Reindents.dropRun hblank hrun (.refl (f line))
      rwa [← hgone] at hkept
    · rw [List.map_cons, joinLines_cons _ hlast, joinLines_cons _ (by simpa using hlast)]
      have hkept :=
        Reindents.dropRun hblank hrun ((Reindents.keep '\n' (ih hlines)).append (f line))
      rwa [← List.append_assoc, ← hgone] at hkept

/-- **Taking away the common indentation drops blanks at the starts of lines, and nothing else.** -/
theorem reindents_dedent (text : List Char) : Reindents true text (dedent text) := by
  have h := reindents_joinLines (f := dedentLine (commonIndent (splitLines text))) (splitLines text)
    fun line hline => ⟨not_mem_of_mem_splitLines hline, dedentLine_split (commonIndent_leads hline)⟩
  rwa [joinLines_splitLines] at h

/-! ### Text put behind a visible character -/

theorem leadingBlanks_append_cons {c : Char} (hc : isBlank c = false) (before after : List Char) :
    leadingBlanks (before ++ c :: after) = leadingBlanks before := by
  induction before with
  | nil => exact List.takeWhile_cons_of_neg (by simp [hc])
  | cons b bs ih =>
    unfold leadingBlanks at ih ⊢
    rw [List.cons_append, List.takeWhile_cons, List.takeWhile_cons, ih]

theorem isBlankText_append_cons {c : Char} (hc : isBlank c = false) (before after : List Char) :
    isBlankText (before ++ c :: after) = false := by
  simp [isBlankText, hc]

/-- **Text put behind a visible character of a line is not touched when the indentation is taken
away**, and it does not change what is taken away elsewhere. -/
theorem dedent_insert {c : Char} (hc : isBlank c = false) (before after : List Char) :
    ∃ before' after', ∀ inserted : List Char, '\n' ∉ inserted →
      dedent (before ++ c :: (inserted ++ after)) = before' ++ c :: (inserted ++ after') := by
  have hnewline : c ≠ '\n' := by
    rintro rfl
    exact absurd hc (by decide)
  obtain ⟨init, last, hbefore⟩ := splitLines_append before
  obtain ⟨line, lines, hafter⟩ := exists_splitLines after
  -- The line with `c` is visible and has the leading blanks of `last`, whatever follows `c` in it.
  have hvisible (tail : List Char) := isBlankText_append_cons hc last tail
  have hblanks (tail : List Char) := leadingBlanks_append_cons hc last tail
  have hindent (tail : List Char) :
      commonIndent (init ++ (last ++ c :: tail) :: lines) =
          commonIndent (init ++ (last ++ [c]) :: lines) :=
    commonIndent_congr init lines (hvisible tail) (hvisible [])
      ((hblanks tail).trans (hblanks []).symm)
  generalize commonIndent (init ++ (last ++ [c]) :: lines) = indent at hindent
  -- The indentation is made of blanks before `c`, so taking it away stops before `c`.
  have hlength : indent.length ≤ last.length := by
    have hstart : commonIndent (init ++ (last ++ [c]) :: lines) <+: leadingBlanks (last ++ [c]) :=
      commonIndent_leads (List.mem_append_right init List.mem_cons_self) (hvisible [])
    rw [hindent, hblanks] at hstart
    exact (hstart.trans (List.takeWhile_prefix _)).length_le
  have hline (tail : List Char) :
      dedentLine indent (last ++ c :: tail) = last.drop indent.length ++ c :: tail := by
    rw [dedentLine, hvisible, if_neg (by simp), List.drop_append_of_le_length hlength]
  refine ⟨joinLines (init.map (dedentLine indent) ++ [last.drop indent.length]),
    joinLines (line :: lines.map (dedentLine indent)), fun inserted hinserted => ?_⟩
  have hlines := hbefore (splitLines_cons hnewline (splitLines_run hinserted hafter))
  have hkept := joinLines_append_cons (c :: inserted) line (lines.map (dedentLine indent))
  rw [List.cons_append, List.cons_append] at hkept
  rw [dedent, hlines, hindent, List.map_append, List.map_cons, hline, joinLines_cut, hkept]

/-- Blanks before a text that starts with a visible character are those of what stands before it. -/
theorem trimStart_append {before after : List Char} (h : Stops isBlank after) :
    trimStart (before ++ after) = trimStart before ++ after := by
  unfold trimStart
  rw [List.dropWhile_append]
  split
  next hempty => rw [dropWhile_eq_self_of_stops h, List.isEmpty_iff.1 hempty, List.nil_append]
  next => rfl

theorem exists_trimEnd_append (text : List Char) :
    ∃ blanks, (∀ c ∈ blanks, isBlank c = true) ∧ text = trimEnd text ++ blanks := by
  refine ⟨(text.reverse.takeWhile isBlank).reverse, fun c hc => ?_, ?_⟩
  · exact of_mem_takeWhile (List.mem_reverse.1 hc)
  · rw [trimEnd, dropEndWhile, ← List.reverse_append, List.takeWhile_append_dropWhile,
      List.reverse_reverse]

/-- Blanks after a text that ends in a visible character are those of what stands after it. -/
theorem trimEnd_append {before after : List Char} (h : Stops isBlank before.reverse) :
    trimEnd (before ++ after) = before ++ trimEnd after := by
  have hreverse : trimStart (after.reverse ++ before.reverse) =
      trimStart after.reverse ++ before.reverse :=
    trimStart_append h
  unfold trimStart at hreverse
  rw [trimEnd, dropEndWhile, List.reverse_append, hreverse, List.reverse_append,
    List.reverse_reverse]
  rfl

/-- **Text put behind a visible character is not touched by trimming** unless it ends in a blank. -/
theorem trim_insert {c : Char} (hc : isBlank c = false) (before after : List Char)
    {inserted : List Char} (hinserted : Stops isBlank inserted.reverse) :
    trim (before ++ c :: (inserted ++ after)) =
      trimStart before ++ c :: (inserted ++ trimEnd after) := by
  -- If nothing is inserted the visible character is `c` itself.
  have hend : Stops isBlank (trimStart before ++ c :: inserted).reverse := by
    have hnil : Stops isBlank (inserted.reverse ++ []) := by rwa [List.append_nil]
    rw [List.reverse_append, List.reverse_cons, List.append_assoc]
    exact hnil.cut (stops_cons hc _)
  rw [trim, trimStart_append (stops_cons hc _), ← List.cons_append, ← List.append_assoc,
    trimEnd_append hend, List.append_assoc, List.cons_append]

end Triptych.Text
