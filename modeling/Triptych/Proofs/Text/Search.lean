import Triptych.Text.Basic

/-!
# Finding where a run or a mark ends

Readers take characters of a class as long as they come, or everything up to the first occurrence of
a mark. Here is what they take when a text is known in parts. `Stops p rest` says that a run of the
class `p` cannot go on into `rest`, so that a run before it is what `takeWhile` takes; `EndsFirst
mark value` says that a mark behind `value` is the first one, so that `breakOn` finds it, whatever
comes later.
-/

namespace Triptych.Text

/-! ### Runs of characters -/

/-- The text does not start with a character of the class `p`. -/
def Stops (p : Char → Bool) (text : List Char) : Prop :=
  ∀ c ∈ text.head?, p c = false

theorem stops_cons {p : Char → Bool} {c : Char} (h : p c = false) (text : List Char) :
    Stops p (c :: text) := by
  intro d hd
  obtain rfl : c = d := by simpa using hd
  exact h

section Runs

variable {p : Char → Bool} {run rest : List Char}

theorem takeWhile_eq_nil_of_stops (h : Stops p rest) : rest.takeWhile p = [] := by
  cases rest with
  | nil => rfl
  | cons c cs => rw [List.takeWhile_cons_of_neg (by simp [h c rfl])]

theorem dropWhile_eq_self_of_stops (h : Stops p rest) : rest.dropWhile p = rest := by
  cases rest with
  | nil => rfl
  | cons c cs => rw [List.dropWhile_cons_of_neg (by simp [h c rfl])]

/-- A run that does not go on is what `takeWhile` takes. -/
theorem takeWhile_append_of_stops (hrun : ∀ c ∈ run, p c = true) (hstop : Stops p rest) :
    (run ++ rest).takeWhile p = run := by
  rw [List.takeWhile_append_of_pos hrun, takeWhile_eq_nil_of_stops hstop, List.append_nil]

/-- What follows a run that does not go on is what `dropWhile` leaves. -/
theorem dropWhile_append_of_stops (hrun : ∀ c ∈ run, p c = true) (hstop : Stops p rest) :
    (run ++ rest).dropWhile p = rest := by
  rw [List.dropWhile_append_of_pos hrun, dropWhile_eq_self_of_stops hstop]

/-- What `dropWhile` leaves does not go on. -/
theorem stops_dropWhile (text : List Char) : Stops p (text.dropWhile p) := by
  intro c hc
  have h := List.head?_dropWhile_not p text
  rw [hc] at h
  simpa using h

/-- The characters that `takeWhile` takes are of the class. -/
theorem of_mem_takeWhile {text : List Char} {c : Char} (h : c ∈ text.takeWhile p) : p c = true :=
  List.all_eq_true.1 List.all_takeWhile c h

end Runs

/-- Whether a class stops at a text is decided by the first character. -/
theorem Stops.cut {p : Char → Bool} {common tail tail' : List Char} (h : Stops p (common ++ tail))
    (htail : Stops p tail') : Stops p (common ++ tail') := by
  cases common with
  | nil => exact htail
  | cons c cs => exact h

/-- A mark of characters of the class stands before the end of the run if it stands there at all. -/
theorem prefix_of_stops {p : Char → Bool} {mark common tail : List Char}
    (h : mark <+: common ++ tail) (hmark : ∀ c ∈ mark, p c = true) (htail : Stops p tail) :
    mark <+: common := by
  -- Along what stands before the edge; there the mark has to be used up.
  induction common generalizing mark with
  | nil =>
    cases mark with
    | nil => exact List.nil_prefix
    | cons c mark =>
      obtain ⟨rest, rfl⟩ := h
      have hc := htail c rfl
      rw [hmark c List.mem_cons_self] at hc
      contradiction
  | cons d common ih =>
    cases mark with
    | nil => exact List.nil_prefix
    | cons c mark =>
      obtain ⟨rfl, hrest⟩ := List.cons_prefix_cons.1 h
      exact List.cons_prefix_cons.2 ⟨rfl, ih hrest fun d hd => hmark d (List.mem_cons_of_mem _ hd)⟩

/-- No blank is a letter. -/
theorem isAsciiLetter_of_isBlank {c : Char} (h : isBlank c = true) : isAsciiLetter c = false := by
  rw [Bool.eq_false_iff]
  intro hletter
  simp only [isAsciiLetter, isBlank, Bool.or_eq_true, Bool.and_eq_true, decide_eq_true_eq,
    beq_iff_eq, Char.le_def, UInt32.le_iff_toNat_le] at h hletter
  have ha : ('a'.val).toNat = 97 := by decide
  have hz : ('z'.val).toNat = 122 := by decide
  have hA : ('A'.val).toNat = 65 := by decide
  have hZ : ('Z'.val).toNat = 90 := by decide
  have hn : c.toNat = c.val.toNat := rfl
  omega

/-! ### The first occurrence of a mark -/

/-- The mark ends the text before its first occurrence there. -/
def EndsFirst (mark value : List Char) : Prop :=
  breakOn mark (value ++ mark) = some (value, mark)

/-- A mark that is not found occurs nowhere. -/
theorem breakOn_eq_none_iff {mark text : List Char} (hmark : mark ≠ []) :
    breakOn mark text = none ↔ ¬ mark <:+: text := by
  induction text with
  | nil => simp [breakOn, hmark]
  | cons c text ih =>
    rw [List.infix_cons_iff, not_or, ← ih, breakOn, ← List.isPrefixOf_iff_prefix]
    split
    next hstarts => simp [hstarts]
    next hstarts => simp [hstarts]

/-- Text put behind a text in which the mark occurs does not move its first occurrence. -/
theorem breakOn_append {mark text value found : List Char}
    (h : breakOn mark text = some (value, found)) (more : List Char) :
    breakOn mark (text ++ more) = some (value, found ++ more) := by
  induction text generalizing value with
  | nil =>
    simp only [breakOn] at h
    split at h
    next hempty =>
      obtain ⟨rfl, rfl⟩ : [] = value ∧ [] = found := by simpa using h
      obtain rfl := List.isEmpty_iff.1 hempty
      cases more <;> rfl
    next => contradiction
  | cons c cs ih =>
    simp only [breakOn] at h
    split at h
    next hmark =>
      obtain ⟨rfl, rfl⟩ : [] = value ∧ c :: cs = found := by simpa using h
      have hmark' : mark.isPrefixOf (c :: (cs ++ more)) = true := by
        rw [List.isPrefixOf_iff_prefix] at hmark ⊢
        exact hmark.trans (List.prefix_append _ _)
      rw [List.cons_append, breakOn, if_pos hmark']
    next hmark =>
      simp only [Option.map_eq_some_iff, Prod.mk.injEq, Prod.exists] at h
      obtain ⟨value', found', hrec, rfl, rfl⟩ := h
      -- The mark occurs in `cs`, so it is too short to reach from `c` into `more`.
      have hlength : mark.length ≤ (c :: cs).length := by
        obtain ⟨happend, hfound⟩ := breakOn_spec hrec
        have hsplit := congrArg List.length happend
        have hle := hfound.length_le
        simp only [List.length_append, List.length_cons] at hsplit ⊢
        omega
      have hmark' : ¬ mark.isPrefixOf (c :: (cs ++ more)) = true := by
        rw [List.isPrefixOf_iff_prefix] at hmark ⊢
        intro hlong
        exact hmark (List.prefix_of_prefix_length_le hlong
          (List.prefix_append (c :: cs) more) hlength)
      rw [List.cons_append, breakOn, if_neg hmark', ih hrec]
      rfl

/-- What stands before the first occurrence of a mark is ended by it. -/
theorem endsFirst_of_breakOn {mark text value tail : List Char}
    (h : breakOn mark text = some (value, mark ++ tail)) : EndsFirst mark value := by
  induction text generalizing value with
  | nil =>
    simp only [breakOn] at h
    split at h
    next hempty =>
      obtain rfl := List.isEmpty_iff.1 hempty
      obtain ⟨rfl, -⟩ : [] = value ∧ _ := by simpa using h
      rfl
    next => contradiction
  | cons c cs ih =>
    simp only [breakOn] at h
    split at h
    next hmark =>
      obtain ⟨rfl, -⟩ : [] = value ∧ _ := by simpa using h
      unfold EndsFirst
      cases mark with
      | nil => rfl
      | cons m ms => rw [List.nil_append, breakOn, if_pos (by simp)]
    next hmark =>
      simp only [Option.map_eq_some_iff, Prod.mk.injEq, Prod.exists] at h
      obtain ⟨value', found', hrec, rfl, rfl⟩ := h
      have hsplit := (breakOn_spec hrec).1
      -- An earlier occurrence across the border would be one in the text, where the same mark
      -- follows.
      have hmark' : ¬ mark.isPrefixOf (c :: (value' ++ mark)) = true := by
        rw [List.isPrefixOf_iff_prefix] at hmark ⊢
        intro hshort
        refine hmark (hshort.trans ⟨tail, ?_⟩)
        simp [← hsplit]
      have hvalue : breakOn mark (value' ++ mark) = some (value', mark) := ih hrec
      unfold EndsFirst
      rw [List.cons_append, breakOn, if_neg hmark', hvalue]
      rfl

end Triptych.Text
