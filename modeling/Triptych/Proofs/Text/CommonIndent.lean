import Mathlib.Data.List.Forall2
import Triptych.Proofs.Text.Indentation
import Triptych.Proofs.Text.Slice

/-!
# The longest common indentation

`commonIndent` goes through the lines and keeps of what it has what the next line starts with too.
`IsCommonIndent` says what comes out of that without the way to it: the texts that it starts with
are those that all visible lines are indented by (`commonIndent_isCommonIndent`). No other text is
(`IsCommonIndent.unique`).

What `dedent` makes of a text is then known line by line (`dedentedBy_dedent`): a visible line is
the indentation and the line of the result, a line of blanks becomes empty. Of the lines of the
result nothing can be taken any more: what they had in common would have been in common before,
behind the indentation that is gone (`commonIndent_dedented`). That is why taking the indentation
away a second time changes nothing.
-/

namespace Triptych.Text

/-! ### Lines -/

/-- Lines without line feeds are the lines of the text that they make up. -/
theorem splitLines_joinLines {lines : List (List Char)} (hne : lines ≠ [])
    (h : ∀ line ∈ lines, '\n' ∉ line) :
    splitLines (joinLines lines) = lines :=
  List.splitOn_intercalate '\n' h hne

/-! ### What lines start with in common -/

/-- What the common beginning of two texts starts with is what both start with. -/
theorem prefix_commonStart_iff {other xs ys : List Char} :
    other <+: commonStart xs ys ↔ other <+: xs ∧ other <+: ys := by
  constructor
  · intro h
    exact ⟨h.trans (commonStart_prefix_left xs ys), h.trans (commonStart_prefix_right xs ys)⟩
  · rintro ⟨hxs, hys⟩
    -- Along the other text: as long as it goes on, both go on with its next character.
    induction other generalizing xs ys with
    | nil => exact List.nil_prefix
    | cons c other ih =>
      obtain ⟨xs, rfl⟩ := hxs
      obtain ⟨ys, rfl⟩ := hys
      rw [List.cons_append, List.cons_append, commonStart, if_pos rfl, List.cons_prefix_cons]
      exact ⟨rfl, ih (List.prefix_append _ _) (List.prefix_append _ _)⟩

theorem prefix_foldl_commonStart_iff {other first : List Char} {others : List (List Char)} :
    other <+: others.foldl commonStart first ↔ ∀ text ∈ first :: others, other <+: text := by
  induction others generalizing first with
  | nil => simp
  | cons next others ih =>
    rw [List.foldl_cons, ih]
    simp only [List.forall_mem_cons, prefix_commonStart_iff, and_assoc]

/-- A text that a line starts with is made of blanks if it is a part of the line's leading
blanks. -/
theorem prefix_leadingBlanks_iff {other line : List Char} :
    other <+: leadingBlanks line ↔ other <+: line ∧ ∀ c ∈ other, isBlank c = true := by
  constructor
  · intro h
    exact ⟨h.trans (List.takeWhile_prefix _), fun c hc => of_mem_takeWhile (h.subset hc)⟩
  · rintro ⟨⟨rest, rfl⟩, hblank⟩
    rw [leadingBlanks, List.takeWhile_append_of_pos hblank]
    exact List.prefix_append _ _

/-- **The longest common indentation of some lines**: the texts that it starts with are those that
the leading blanks of every visible line start with. Without a visible line it is empty. -/
structure IsCommonIndent (lines : List (List Char)) (indent : List Char) : Prop where
  prefix_iff : (∃ line ∈ lines, isBlankText line = false) →
    ∀ other, other <+: indent ↔ ∀ line ∈ lines, isBlankText line = false →
    other <+: leadingBlanks line
  eq_nil : (∀ line ∈ lines, isBlankText line = true) → indent = []

namespace IsCommonIndent

variable {lines : List (List Char)} {indent line : List Char}

theorem leads (h : IsCommonIndent lines indent) (hmem : line ∈ lines)
    (hvisible : isBlankText line = false) :
    indent <+: leadingBlanks line :=
  (h.prefix_iff ⟨line, hmem, hvisible⟩ indent).1 List.prefix_rfl line hmem hvisible

/-- The common indentation is made of blanks. -/
theorem isBlank (h : IsCommonIndent lines indent) : ∀ c ∈ indent, isBlank c = true := by
  by_cases hvisible : ∃ line ∈ lines, isBlankText line = false
  · obtain ⟨line, hmem, hvisible⟩ := hvisible
    exact (prefix_leadingBlanks_iff.1 (h.leads hmem hvisible)).2
  · rw [h.eq_nil (by simpa using hvisible)]
    simp

/-- There is one longest common indentation. -/
theorem unique {indent' : List Char} (h : IsCommonIndent lines indent)
    (h' : IsCommonIndent lines indent') :
    indent' = indent := by
  by_cases hvisible : ∃ line ∈ lines, isBlankText line = false
  · -- Each of the two leads all visible lines, so each is a beginning of the other.
    have hle : indent' <+: indent := (h.prefix_iff hvisible indent').2 fun line hmem hline =>
      h'.leads hmem hline
    have hge : indent <+: indent' := (h'.prefix_iff hvisible indent).2 fun line hmem hline =>
      h.leads hmem hline
    exact hle.eq_of_length_le hge.length_le
  · have hblank : ∀ line ∈ lines, isBlankText line = true := by simpa using hvisible
    rw [h.eq_nil hblank, h'.eq_nil hblank]

/-- Blanks that every visible line starts with are not longer than the common indentation. -/
theorem longest (h : IsCommonIndent lines indent)
    (hvisible : ∃ line ∈ lines, isBlankText line = false) {other : List Char}
    (hblank : ∀ c ∈ other, Text.isBlank c = true)
    (hleads : ∀ line ∈ lines, isBlankText line = false → other <+: line) : other <+: indent := by
  refine (h.prefix_iff hvisible other).2 ?_
  intro line hmem hline
  exact prefix_leadingBlanks_iff.2 ⟨hleads line hmem hline, hblank⟩

end IsCommonIndent

/-- **The fold over the lines finds the longest common indentation.** -/
theorem commonIndent_isCommonIndent (lines : List (List Char)) :
    IsCommonIndent lines (commonIndent lines) := by
  -- The fold runs over the indentations of the lines that are not blank.
  have hmem {blanks : List Char} :
      blanks ∈ (lines.filter fun line => !isBlankText line).map leadingBlanks ↔
        ∃ line ∈ lines, isBlankText line = false ∧ leadingBlanks line = blanks := by
    simp [and_assoc]
  unfold commonIndent
  split
  next hnone =>
    refine ⟨?_, fun _ => rfl⟩
    rintro ⟨line, hline, hvisible⟩
    -- No such line: whatever is asked of it holds.
    have hsome := hmem.2 ⟨line, hline, hvisible, rfl⟩
    rw [hnone] at hsome
    contradiction
  next first others hblanks =>
    rw [hblanks] at hmem
    constructor
    · intro _ other
      -- A prefix of all of them is a prefix of the fold, and the other way round.
      rw [prefix_foldl_commonStart_iff]
      constructor
      · intro h line hline hvisible
        exact h _ (hmem.2 ⟨line, hline, hvisible, rfl⟩)
      · intro h blanks hblanks
        obtain ⟨line, hline, hvisible, rfl⟩ := hmem.1 hblanks
        exact h line hline hvisible
    · intro hblank
      obtain ⟨line, hline, hvisible, -⟩ := hmem.1 List.mem_cons_self
      rw [hblank line hline] at hvisible
      contradiction

/-! ### Line by line -/

/-- **A line without an indentation**: a visible line is the indentation and what is left, cut
between two characters, and a line of blanks becomes empty. -/
structure DedentedBy (indent line line' : List Char) : Prop where
  blank : isBlankText line = true → line' = []
  visible : isBlankText line = false →
    line = indent ++ line' ∧ IsBoundary line (byteLength indent) ∧
      line' = dropBytes (byteLength indent) line

/-- Each of some lines loses their common indentation. -/
theorem dedentedBy_dedentLine {lines : List (List Char)} {line : List Char} (hmem : line ∈ lines) :
    DedentedBy (commonIndent lines) line (dedentLine (commonIndent lines) line) := by
  unfold dedentLine
  constructor
  · intro hblank
    exact if_pos hblank
  · intro hvisible
    obtain ⟨rest, hrest⟩ := (commonIndent_leads hmem hvisible).trans (List.takeWhile_prefix _)
    rw [hvisible, if_neg (by simp), ← hrest, List.drop_left, dropBytes_append]
    exact ⟨rfl, ⟨commonIndent lines, rest, rfl, rfl⟩, rfl⟩

/-- A line of blanks becomes one, and a visible line stays visible. -/
theorem DedentedBy.isBlankText_eq {indent line line' : List Char} (h : DedentedBy indent line line')
    (hindent : ∀ c ∈ indent, isBlank c = true) : isBlankText line' = isBlankText line := by
  cases hline : isBlankText line with
  | true =>
    rw [h.blank hline]
    rfl
  | false =>
    obtain ⟨hsplit, -⟩ := h.visible hline
    have hblanks : indent.all isBlank = true := List.all_eq_true.2 hindent
    rw [isBlankText, hsplit, List.all_append, hblanks, Bool.true_and] at hline
    exact hline

/-- The lines of a text without its common indentation. -/
theorem splitLines_dedent (text : List Char) :
    splitLines (dedent text) =
      (splitLines text).map (dedentLine (commonIndent (splitLines text))) := by
  refine splitLines_joinLines ?_ ?_
  · obtain ⟨line, lines, hlines⟩ := exists_splitLines text
    simp [hlines]
  · intro line' hline'
    obtain ⟨line, hline, rfl⟩ := List.mem_map.1 hline'
    obtain ⟨gone, hgone, -⟩ := dedentLine_split (commonIndent_leads hline)
    -- What is left of a line is a part of it.
    intro hmem
    refine not_mem_of_mem_splitLines hline ?_
    rw [hgone]
    exact List.mem_append_right gone hmem

theorem dedentedBy_dedent (text : List Char) :
    List.Forall₂ (DedentedBy (commonIndent (splitLines text))) (splitLines text)
      (splitLines (dedent text)) := by
  rw [splitLines_dedent, List.forall₂_map_right_iff, List.forall₂_same]
  intro line hline
  exact dedentedBy_dedentLine hline

/-! ### A second time -/

section SecondTime

variable {lines : List (List Char)}

theorem isBlankText_dedentLine {line : List Char} (hmem : line ∈ lines) :
    isBlankText (dedentLine (commonIndent lines) line) = isBlankText line :=
  (dedentedBy_dedentLine hmem).isBlankText_eq (commonIndent_isCommonIndent lines).isBlank

/-- **Lines whose common indentation is gone have none.** -/
theorem commonIndent_dedented :
    commonIndent (lines.map (dedentLine (commonIndent lines))) = [] := by
  have hindent := commonIndent_isCommonIndent lines
  have hindent' := commonIndent_isCommonIndent (lines.map (dedentLine (commonIndent lines)))
  generalize commonIndent (lines.map (dedentLine (commonIndent lines))) = indent' at hindent' ⊢
  by_cases hvisible : ∃ line ∈ lines, isBlankText line = false
  · -- Put behind the first indentation the second one would make a longer one of the lines as they
    -- were.
    have hlonger : commonIndent lines ++ indent' <+: commonIndent lines := by
      refine hindent.longest hvisible ?_ ?_
      · intro c hc
        exact (List.mem_append.1 hc).elim (hindent.isBlank c) (hindent'.isBlank c)
      · intro line hmem hline
        obtain ⟨hsplit, -⟩ := (dedentedBy_dedentLine hmem).visible hline
        have hvisible' : isBlankText (dedentLine (commonIndent lines) line) = false := by
          rw [isBlankText_dedentLine hmem, hline]
        have hleads :=
          (hindent'.leads (List.mem_map_of_mem hmem) hvisible').trans (List.takeWhile_prefix _)
        rw [hsplit, List.prefix_append_right_inj]
        exact hleads
    have hlength := hlonger.length_le
    rw [List.length_append] at hlength
    exact List.length_eq_zero_iff.1 (by omega)
  · refine hindent'.eq_nil ?_
    intro line' hmem'
    obtain ⟨line, hmem, rfl⟩ := List.mem_map.1 hmem'
    rw [isBlankText_dedentLine hmem]
    simpa using fun hline => hvisible ⟨line, hmem, hline⟩

/-- A line that has lost the common indentation has nothing more to lose. -/
theorem dedentLine_dedented {line : List Char} (hmem : line ∈ lines) :
    dedentLine [] (dedentLine (commonIndent lines) line) =
      dedentLine (commonIndent lines) line := by
  rw [dedentLine, isBlankText_dedentLine hmem]
  split
  next hblank => exact ((dedentedBy_dedentLine hmem).blank hblank).symm
  next => rfl

end SecondTime

theorem dedent_dedent (text : List Char) : dedent (dedent text) = dedent text := by
  have hsecond : (splitLines (dedent text)).map (dedentLine []) = splitLines (dedent text) := by
    rw [splitLines_dedent, List.map_map]
    exact List.map_congr_left fun line hmem => dedentLine_dedented hmem
  calc dedent (dedent text)
      = joinLines ((splitLines (dedent text)).map (dedentLine [])) := by
        rw [dedent, splitLines_dedent, commonIndent_dedented]
    _ = joinLines (splitLines (dedent text)) := by rw [hsecond]
    _ = dedent text := joinLines_splitLines _

/-- **Exactly the longest common indentation is taken away.** There is one text of blanks such that
each visible line is this text and the line of the result, in the same place of as many lines, while
lines of blanks become empty. What it starts with is what the leading blanks of all visible lines
start with, so that nothing longer could be taken away; and a second time nothing is. -/
theorem dedent_removes_commonIndent (text : List Char) :
    ∃! indent, IsCommonIndent (splitLines text) indent ∧ (∀ c ∈ indent, isBlank c = true) ∧
      (splitLines (dedent text)).length = (splitLines text).length ∧
      List.Forall₂ (DedentedBy indent) (splitLines text) (splitLines (dedent text)) ∧
      ((∃ line ∈ splitLines text, isBlankText line = false) →
        ∀ other, (∀ c ∈ other, isBlank c = true) →
          (∀ line ∈ splitLines text, isBlankText line = false → other <+: line) →
          other.length ≤ indent.length) ∧
      dedent (dedent text) = dedent text := by
  have hindent := commonIndent_isCommonIndent (splitLines text)
  have hlines := dedentedBy_dedent text
  refine ⟨commonIndent (splitLines text), ⟨hindent, hindent.isBlank, hlines.length_eq.symm, hlines,
    ?_, dedent_dedent text⟩, fun indent h => hindent.unique h.1⟩
  intro hvisible other hblank hleads
  exact (hindent.longest hvisible hblank hleads).length_le

example : dedent "\t  a\n \n\t\u3000b".toList = "  a\n\n\u3000b".toList := by decide

end Triptych.Text
