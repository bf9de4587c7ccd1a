import Triptych.Proofs.Text.Indentation

/-!
# Texts with fewer blanks

Taking away the indentation of a text, the line breaks before it and the blanks after it are three
ways to make blanks fewer. `Squeezes` has them all: a blank may go where another one before it
stays, at the start of the text, and at its end. Blanks are the five that separate the parts of a
tag.

What is no blank stays, and two such characters that were next to each other still are, and only
they are. So a text can be taken apart at a character that is no blank (`Squeezes.split`), a run of
visible characters is found where it was and nowhere else (`Squeezes.run`, `Squeezes.of_run`), and a
mark made of visible characters still ends the text before it (`Squeezes.endsFirst`).

`squeezes_dedent_trimEnd` says that the three ways are of this kind, if the text has no other
blanks.
-/

namespace Triptych.Text

/-- **The second text is the first one with fewer blanks.** `start` tells that blanks at the start
may go, because one before them stays or nothing is before them, and `ends` that blanks at the end
may. -/
inductive Squeezes (ends : Bool) : Bool → List Char → List Char → Prop
  | nil (start : Bool) : Squeezes ends start [] []
  | stop {text : List Char} (start : Bool) (hends : ends = true)
      (hblank : ∀ c ∈ text, isAsciiBlank c = true) :
    Squeezes ends start text []
  | keep {start : Bool} {text text' : List Char} (c : Char)
      (h : Squeezes ends (isAsciiBlank c) text text') :
    Squeezes ends start (c :: text) (c :: text')
  | drop {c : Char} {text text' : List Char} (hc : isAsciiBlank c = true)
      (h : Squeezes ends true text text') :
    Squeezes ends true (c :: text) text'

namespace Squeezes

variable {ends start : Bool} {text text' : List Char}

theorem refl (text : List Char) : Squeezes ends start text text := by
  induction text generalizing start with
  | nil => exact .nil start
  | cons c text ih => exact .keep c ih

/-- At the start of a line more may be dropped. -/
theorem mono {start' : Bool} (h : Squeezes ends start text text') (hle : start ≤ start') :
    Squeezes ends start' text text' := by
  cases h with
  | nil => exact .nil start'
  | stop _ hends hblank => exact .stop start' hends hblank
  | keep c h => exact .keep c h
  | drop hc h =>
    obtain rfl : start' = true := hle rfl
    exact .drop hc h

/-- Blanks at the end may stay where they may go. -/
theorem loosen (h : Squeezes false start text text') : Squeezes ends start text text' := by
  induction h with
  | nil start => exact .nil start
  | stop _ hends _ => contradiction
  | keep c _ ih => exact .keep c ih
  | drop hc _ ih => exact .drop hc ih

/-- Texts one behind the other are squeezed one behind the other. -/
theorem append {after after' : List Char} (h : Squeezes false start text text')
    (hafter : Squeezes ends false after after') :
    Squeezes ends start (text ++ after) (text' ++ after') := by
  induction h with
  | nil start => exact hafter.mono (Bool.false_le start)
  | stop _ hends _ => contradiction
  | keep c _ ih => exact .keep c ih
  | drop hc _ ih => exact .drop hc ih

/-- Squeezing brings no character in. -/
theorem mem {c : Char} (h : Squeezes ends start text text') (hc : c ∈ text') : c ∈ text := by
  induction h with
  | nil | stop => exact absurd hc List.not_mem_nil
  | keep d _ ih =>
    rcases List.mem_cons.1 hc with rfl | hmem
    · exact List.mem_cons_self
    · exact List.mem_cons_of_mem d (ih hmem)
  | drop _ _ ih => exact List.mem_cons_of_mem _ (ih hc)

theorem eq_nil (h : Squeezes ends start [] text') : text' = [] := by
  cases h <;> rfl

/-- Only blanks are lost. -/
theorem isAsciiBlank_of_forall (h : Squeezes ends start text text')
    (hblank : ∀ c ∈ text', isAsciiBlank c = true) :
    ∀ c ∈ text, isAsciiBlank c = true := by
  induction h with
  | nil => exact hblank
  | stop _ _ htext => exact htext
  | keep c _ ih =>
    rw [List.forall_mem_cons] at hblank ⊢
    exact ⟨hblank.1, ih hblank.2⟩
  | drop hc _ ih => exact List.forall_mem_cons.2 ⟨hc, ih hblank⟩

/-! ### Where a text can be taken apart -/

/-- A visible character stays, and what is before it keeps its blanks at the end. -/
theorem split {c : Char} {value after : List Char}
    (h : Squeezes ends start (value ++ c :: after) text') (hc : isAsciiBlank c = false) :
    ∃ value' after', text' = value' ++ c :: after' ∧ Squeezes false start value value' ∧
      Squeezes ends false after after' := by
  -- The end of the text has not come while a visible character is ahead.
  have hvisible (first : List Char) : ¬ ∀ d ∈ first ++ c :: after, isAsciiBlank d = true := by
    intro hblank
    rw [hblank c (List.mem_append_right first List.mem_cons_self)] at hc
    contradiction
  induction value generalizing start text' with
  | nil =>
    cases h with
    | stop _ _ hblank => exact absurd hblank (hvisible [])
    | keep _ h =>
      rw [hc] at h
      exact ⟨[], _, rfl, .nil start, h⟩
    | drop hblank _ =>
      rw [hc] at hblank
      contradiction
  | cons d value ih =>
    cases h with
    | stop _ _ hblank => exact absurd hblank (hvisible (d :: value))
    | keep _ h =>
      obtain ⟨value', after', rfl, hvalue, hafter⟩ := ih h
      exact ⟨d :: value', after', rfl, .keep d hvalue, hafter⟩
    | drop hd h =>
      obtain ⟨value', after', rfl, hvalue, hafter⟩ := ih h
      exact ⟨value', after', rfl, .drop hd hvalue, hafter⟩

/-- A visible character at the start stays there. -/
theorem cons {c : Char} {after : List Char} (h : Squeezes ends start (c :: after) text')
    (hc : isAsciiBlank c = false) :
    ∃ after', text' = c :: after' ∧ Squeezes ends false after after' := by
  cases h with
  | stop _ _ hblank =>
    rw [hblank c List.mem_cons_self] at hc
    contradiction
  | keep _ h =>
    rw [hc] at h
    exact ⟨_, rfl, h⟩
  | drop hblank _ =>
    rw [hc] at hblank
    contradiction

/-- Visible characters stay together. -/
theorem run {visible after : List Char} (h : Squeezes ends false (visible ++ after) text')
    (hrun : ∀ c ∈ visible, isAsciiBlank c = false) :
    ∃ after', text' = visible ++ after' ∧ Squeezes ends false after after' := by
  induction visible generalizing text' with
  | nil => exact ⟨text', rfl, h⟩
  | cons c visible ih =>
    obtain ⟨hc, hrun⟩ := List.forall_mem_cons.1 hrun
    obtain ⟨behind, rfl, hbehind⟩ := h.cons hc
    obtain ⟨after', rfl, hafter⟩ := ih hbehind hrun
    exact ⟨after', rfl, hafter⟩

/-- Visible characters that are together were so before. -/
theorem of_run {visible after' : List Char} (h : Squeezes ends false text (visible ++ after'))
    (hrun : ∀ c ∈ visible, isAsciiBlank c = false) :
    ∃ after, text = visible ++ after ∧ Squeezes ends false after after' := by
  induction visible generalizing text with
  | nil => exact ⟨text, rfl, h⟩
  | cons c visible ih =>
    obtain ⟨hc, hrun⟩ := List.forall_mem_cons.1 hrun
    cases h with
    | keep _ h =>
      rw [hc] at h
      obtain ⟨after, rfl, hafter⟩ := ih h hrun
      exact ⟨after, rfl, hafter⟩

/-- The first character behind a visible one stays, unless nothing does. -/
theorem head? {c : Char} (h : Squeezes ends false text text') (hc : text'.head? = some c) :
    text.head? = some c := by
  cases h with
  | nil | stop => contradiction
  | keep => exact hc

/-- A run stops in the squeezed text where it stopped. -/
theorem stops {p : Char → Bool} (h : Squeezes ends false text text') (hstop : Stops p text) :
    Stops p text' := by
  intro c hc
  exact hstop c (h.head? hc)

/-- What starts somewhere in the second text starts somewhere in the first. -/
theorem suffix {c : Char} {part' : List Char} (h : Squeezes ends start text text')
    (hpart : c :: part' <:+ text') :
    ∃ part, c :: part <:+ text ∧ Squeezes ends (isAsciiBlank c) part part' := by
  induction h with
  | nil | stop => exact absurd (List.suffix_nil.1 hpart) (List.cons_ne_nil c part')
  | @keep start text text' d h ih =>
    rcases List.suffix_cons_iff.1 hpart with heq | hpart
    · obtain ⟨rfl, rfl⟩ := List.cons.inj heq
      exact ⟨text, List.suffix_refl _, h⟩
    · obtain ⟨part, hmem, hpart⟩ := ih hpart
      exact ⟨part, hmem.trans (List.suffix_cons d text), hpart⟩
  | @drop d text text' _ _ ih =>
    obtain ⟨part, hmem, hpart⟩ := ih hpart
    exact ⟨part, hmem.trans (List.suffix_cons d text), hpart⟩

end Squeezes

/-! ### Marks -/

/-- A mark is the first one if it does not start at the first character, nor further on. -/
theorem endsFirst_cons {mark value : List Char} (c : Char) :
    EndsFirst mark (c :: value) ↔ ¬ mark <+: c :: (value ++ mark) ∧ EndsFirst mark value := by
  unfold EndsFirst
  rw [List.cons_append, breakOn]
  split
  next hmark => simp [List.isPrefixOf_iff_prefix.1 hmark]
  next hmark => simp [mt List.isPrefixOf_iff_prefix.2 hmark]

/-- A mark of visible characters ends the text with fewer blanks where it ended the text. -/
theorem Squeezes.endsFirst {start : Bool} {mark value value' : List Char}
    (h : Squeezes false start value value') (hmark : ∀ c ∈ mark, isAsciiBlank c = false)
    (hend : EndsFirst mark value) : EndsFirst mark value' := by
  induction h with
  | nil => exact hend
  | stop _ hends _ => contradiction
  | drop _ _ ih => exact ih ((endsFirst_cons _).1 hend).2
  | @keep start text text' c h ih =>
    rw [endsFirst_cons] at hend ⊢
    refine ⟨fun hearly => hend.1 ?_, ih hend.2⟩
    cases mark with
    | nil => exact List.nil_prefix
    | cons d mark =>
      -- The mark starts with `c`, so nothing was lost before its next character.
      obtain ⟨rfl, htail⟩ := List.cons_prefix_cons.1 hearly
      have hvisible := List.forall_mem_cons.1 hmark
      rw [hvisible.1] at h
      obtain ⟨more, hmore⟩ := htail
      have hwhole : Squeezes false false (text ++ d :: mark) (text' ++ d :: mark) :=
        h.append (.refl _)
      rw [← hmore] at hwhole
      obtain ⟨after, hafter, -⟩ := hwhole.of_run hvisible.2
      rw [hafter]
      exact List.cons_prefix_cons.2 ⟨rfl, List.prefix_append mark after⟩

/-! ### Where fewer blanks come from -/

/-- Texts whose blanks are all of the kind that separates the parts of a tag. -/
def PlainBlanks (text : List Char) : Prop :=
  ∀ c ∈ text, isBlank c = true → isAsciiBlank c = true

/-- **Taking indentation away is squeezing**, if all blanks in it are plain. -/
theorem Reindents.squeezes {start : Bool} {text text' : List Char} (h : Reindents start text text')
    (hblanks : PlainBlanks text) : Squeezes false start text text' := by
  induction h with
  | nil start => exact .nil start
  | keep c _ ih =>
    have hrest := ih (List.forall_mem_cons.1 hblanks).2
    refine .keep c (hrest.mono ?_)
    intro hnewline
    rw [beq_iff_eq.1 hnewline]
    rfl
  | drop hc _ _ ih =>
    obtain ⟨hplain, hrest⟩ := List.forall_mem_cons.1 hblanks
    exact .drop (hplain hc) (ih hrest)

namespace Squeezes

variable {ends start : Bool} {text text' : List Char}

/-- A blank at the start goes. -/
theorem tail {c : Char} (h : Squeezes ends true text (c :: text')) (hc : isAsciiBlank c = true) :
    Squeezes ends true text text' := by
  induction text with
  | nil => cases h
  | cons d text ih =>
    cases h with
    | keep _ h =>
      rw [hc] at h
      exact .drop hc h
    | drop hd h => exact .drop hd (ih h)

/-- Blanks at the start can be dropped from the squeezed text, too. -/
theorem dropWhile {p : Char → Bool} (h : Squeezes ends true text text')
    (hp : ∀ c, p c = true → isAsciiBlank c = true) :
    Squeezes ends true text (text'.dropWhile p) := by
  induction text' with
  | nil => exact h
  | cons c text' ih =>
    rw [List.dropWhile_cons]
    split
    next hc => exact ih (h.tail (hp c hc))
    next => exact h

/-- Blanks at the end go. -/
theorem dropEnd {blanks : List Char} (h : Squeezes false start text (text' ++ blanks))
    (hblanks : ∀ c ∈ blanks, isAsciiBlank c = true) : Squeezes true start text text' := by
  generalize hwhole : text' ++ blanks = whole at h
  induction h generalizing text' with
  | nil start =>
    rw [(List.append_eq_nil_iff.1 hwhole).1]
    exact .nil start
  | stop _ hends _ => contradiction
  | @keep start text rest c h ih =>
    cases text' with
    | nil =>
      -- Only blanks are left, and only blanks have been lost.
      obtain rfl : blanks = c :: rest := hwhole
      have hall : Squeezes false start (c :: text) (c :: rest) := .keep c h
      exact .stop start rfl (hall.isAsciiBlank_of_forall hblanks)
    | cons d text' =>
      obtain ⟨rfl, htail⟩ := List.cons.inj hwhole
      exact .keep d (ih htail)
  | drop hc _ ih => exact .drop hc (ih hwhole)

end Squeezes

theorem isAsciiBlank_of_isLineBreak {c : Char} (h : isLineBreak c = true) :
    isAsciiBlank c = true := by
  simp only [isLineBreak, Bool.or_eq_true, beq_iff_eq] at h
  rcases h with rfl | rfl <;> rfl

/-- **Without its indentation, the line breaks before it and the blanks after it a text has fewer
blanks**, if it has none but those that separate the parts of a tag. -/
theorem squeezes_dedent_trimEnd {text : List Char} (hblanks : PlainBlanks text) :
    Squeezes true true text (trimEnd ((dedent text).dropWhile isLineBreak)) := by
  have hdedent := (reindents_dedent text).squeezes hblanks
  have hstart := hdedent.dropWhile fun c => isAsciiBlank_of_isLineBreak
  obtain ⟨blanks, hend, hsplit⟩ := exists_trimEnd_append ((dedent text).dropWhile isLineBreak)
  rw [hsplit] at hstart
  refine hstart.dropEnd fun c hc => ?_
  exact hblanks c (hstart.mem (List.mem_append_right _ hc)) (hend c hc)

end Triptych.Text
