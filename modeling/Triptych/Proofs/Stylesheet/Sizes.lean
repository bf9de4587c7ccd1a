import Triptych.Pipeline.Options
import Triptych.Proofs.Stylesheet.Values

/-!
# How large a smaller stylesheet is

Making a stylesheet smaller never makes it larger, whatever the text is: strings and comments may
lack their end, and nothing need be a declaration. So the step of a compile that does it reports a
loss that is exact (`minify_never_grows`).

A space is written late, when the item behind it comes, and long after the blank or the comment that
asks for it. What pays for it is kept with the item meanwhile: the *weight* of an item is its size,
and one byte more if blanks stand before it. Reading a text makes items of no more weight than the
text has bytes (`weightOf_items_le`), and writing them takes no more bytes than they weigh
(`byteLength_write_le`).
-/

namespace Triptych

open Text

namespace Stylesheet

open Code

/-! ### Weights -/

/-- The bytes that stand for blanks or comments before an item. -/
def spacing (spaced : Bool) : Nat :=
  if spaced then 1 else 0

/-- The bytes that an item can take with the space before it. -/
def Item.weight : Item → Nat
  | .string spaced chars | .word spaced chars => spacing spaced + byteLength chars
  | .delimiter spaced c => spacing spaced + c.utf8Size

/-- The weight of several items. -/
def weightOf (items : List Item) : Nat :=
  (items.map Item.weight).sum

theorem weightOf_cons (item : Item) (items : List Item) :
    weightOf (item :: items) = item.weight + weightOf items :=
  rfl

theorem spacing_le_one (spaced : Bool) : spacing spaced ≤ 1 := by
  cases spaced <;> decide

/-- **Items weigh no more than the text that they were read from.** -/
theorem weightOf_items_le (spaced : Bool) (text : List Char) :
    weightOf (items spaced text) ≤ spacing spaced + byteLength text := by
  -- The cases are the ways to read on: the end, a comment, a blank, a string, a delimiter and a
  -- word.
  fun_induction items spaced text with
  | case1 => exact Nat.zero_le _
  | case2 spaced text _ ih =>
    -- The two characters that open the comment are more than the byte of a space.
    have hcut := congrArg byteLength (scanBlockComment_append text)
    have hopen : byteLength ('/' :: '*' :: text) = 2 + byteLength text := by
      rw [byteLength_cons, byteLength_cons, ← Nat.add_assoc]
      rfl
    rw [byteLength_append] at hcut
    have hone := spacing_le_one true
    omega
  | case3 spaced c text _ _ _ _ ih =>
    -- A blank has the byte that the space for it takes.
    have hsize := c.utf8Size_pos
    have hone := spacing_le_one true
    rw [byteLength_cons]
    omega
  | case4 spaced c text _ _ _ _ _ ih =>
    -- From here on the space is the item's, and behind an item none is asked for.
    have hcut := congrArg byteLength (splitString_append c text)
    have hnone : spacing false = 0 := rfl
    rw [byteLength_append] at hcut
    rw [weightOf_cons, Item.weight, byteLength_cons, byteLength_cons]
    omega
  | case5 spaced c text _ _ _ _ _ _ ih =>
    have hnone : spacing false = 0 := rfl
    rw [weightOf_cons, Item.weight, byteLength_cons]
    omega
  | case6 spaced c text _ _ _ _ _ _ ih =>
    have hcut := congrArg byteLength (splitWord_append text)
    have hnone : spacing false = 0 := rfl
    rw [byteLength_append] at hcut
    rw [weightOf_cons, Item.weight, byteLength_cons, byteLength_cons]
    omega

/-! ### What is written -/

/-- Neither the order of characters nor their being fewer makes a text longer. -/
theorem byteLength_reverse (text : List Char) : byteLength text.reverse = byteLength text := by
  induction text with
  | nil => rfl
  | cons c text ih =>
    rw [List.reverse_cons, byteLength_append, ih, byteLength_cons, byteLength_cons, byteLength_nil]
    omega

theorem byteLength_le_of_sublist {xs ys : List Char} (h : xs.Sublist ys) :
    byteLength xs ≤ byteLength ys := by
  induction h with
  | slnil => exact Nat.le_refl _
  | cons c _ ih =>
    rw [byteLength_cons]
    omega
  | cons_cons c _ ih =>
    rw [byteLength_cons, byteLength_cons]
    omega

/-- Trimming does not make a text longer, and taking a semicolon back does not either. -/
theorem byteLength_trim_le (text : List Char) : byteLength (trim text) ≤ byteLength text := by
  have hend (text : List Char) : (trimEnd text).Sublist text := by
    have hreverse := (List.dropWhile_sublist (l := text.reverse) isBlank).reverse
    rwa [List.reverse_reverse] at hreverse
  exact byteLength_le_of_sublist ((hend _).trans (List.dropWhile_sublist isBlank))

/-- A space is written only if one is asked for. -/
theorem byteLength_separate_le (spaced : Bool) (written : List Char) :
    byteLength (separate spaced written) ≤ spacing spaced + byteLength written := by
  unfold separate
  split
  next hspace =>
    rw [Bool.and_eq_true] at hspace
    rw [hspace.1]
    exact Nat.le_refl _
  next => exact Nat.le_add_left _ _

theorem byteLength_dropSemicolon_le (delimiter : Char) (written : List Char) :
    byteLength (dropSemicolon delimiter written) ≤ byteLength written := by
  unfold dropSemicolon
  split
  next => exact Nat.le_add_left _ _
  next => exact Nat.le_refl _

/-- A space that is not wanted weighs nothing. -/
theorem spacing_and_le (spaced wanted : Bool) : spacing (spaced && wanted) ≤ spacing spaced := by
  cases spaced <;> cases wanted <;> decide

/-- **Writing items takes no more bytes than they weigh.** -/
theorem byteLength_write_le (inValue : Bool) (written : List Char) (items : List Item) :
    byteLength (write inValue written items) ≤ byteLength written + weightOf items := by
  -- Whatever has been written: an item adds the space that it asks for at most, and its own
  -- characters at most.
  induction items generalizing inValue written with
  | nil => exact Nat.le_refl _
  | cons item items ih =>
    rw [weightOf_cons]
    cases item with
    | string spaced chars =>
      have hrest := ih inValue (chars.reverse ++ separate spaced written)
      have hspace := byteLength_separate_le spaced written
      rw [byteLength_append, byteLength_reverse] at hrest
      rw [write, Item.weight]
      omega
    | delimiter spaced c =>
      have hrest := ih (inValueAfter c inValue)
        (c :: separate (spaced && !tightBefore.contains c) (dropSemicolon c written))
      have hspace := byteLength_separate_le (spaced && !tightBefore.contains c)
        (dropSemicolon c written)
      have hasked := spacing_and_le spaced (!tightBefore.contains c)
      -- The semicolon that the end of a block takes back is one of those already written.
      have hdropped := byteLength_dropSemicolon_le c written
      rw [byteLength_cons] at hrest
      rw [write, Item.weight]
      omega
    | word spaced chars =>
      have hrest :=
        ih inValue ((if inValue then shortenValue chars else chars).reverse ++
        separate spaced written)
      have hspace := byteLength_separate_le spaced written
      have hshown : byteLength (if inValue then shortenValue chars else chars) ≤
          byteLength chars := by
        split
        next => exact byteLength_shortenValue_le chars
        next => exact Nat.le_refl _
      rw [byteLength_append, byteLength_reverse] at hrest
      rw [write, Item.weight]
      omega

/-- **A smaller stylesheet is not larger.** -/
theorem byteLength_minify_le (source : List Char) :
    byteLength (minify source) ≤ byteLength source := by
  have hread : weightOf (items false source) ≤ 0 + byteLength source :=
    weightOf_items_le false source
  have hwritten : byteLength (write false [] (items false source)) ≤
      0 + weightOf (items false source) :=
    byteLength_write_le false [] (items false source)
  calc byteLength (minify source)
    _ ≤ byteLength (write false [] (items false source)).reverse := byteLength_trim_le _
    _ = byteLength (write false [] (items false source)) := byteLength_reverse _
    _ ≤ byteLength source := by omega

end Stylesheet

/-! ### What is reported -/

/-- `part` of `whole` in per cent, rounded as doubles are; nothing is no part of anything. -/
def percentOf (part whole : Nat) : Binary64 :=
  if whole = 0 then .zero
  else ((Binary64.ofNat part).div (Binary64.ofNat whole)).mul (Binary64.ofNat 100)

/-- **The share that is reported is that of the loss**, as long as there is one. -/
theorem savedPercent_eq_percentOf {before after saved : Nat} (h : after + saved = before) :
    Stylesheet.savedPercent before after = percentOf saved before := by
  have hloss : before - after = saved := by omega
  rw [Stylesheet.savedPercent, percentOf, hloss]

/-- **Stylesheets never grow when they are made smaller**, so the difference of the two sizes is the
loss.

The step of a compile that makes a stylesheet smaller always succeeds. What it enters into the
journal are the two sizes and the percentage of the bytes that were saved: those that, with the
bytes of what is left, make up those of the stylesheet. -/
theorem minify_never_grows (context : PluginContext) (css : String) :
    byteLength (Stylesheet.minify css.toList) ≤ byteLength css.toList ∧
    ∃ (small : String) (saved : Nat),
      small.toList = Stylesheet.minify css.toList ∧
      StylesheetPlugin.minify.process context css = .ok small ∧
      byteLength small.toList + saved = byteLength css.toList ∧
      StylesheetPlugin.minify.remark context css small =
        [.minified context.source (byteLength css.toList) (byteLength small.toList)
          (percentOf saved (byteLength css.toList)).tenths] := by
  have hle := Stylesheet.byteLength_minify_le css.toList
  obtain ⟨saved, hsaved⟩ := Nat.exists_eq_add_of_le hle
  have hsmall : (String.ofList (Stylesheet.minify css.toList)).toList =
      Stylesheet.minify css.toList :=
    String.toList_ofList
  have hsizes : byteLength (String.ofList (Stylesheet.minify css.toList)).toList + saved =
      byteLength css.toList := by
    rw [hsmall, hsaved]
  refine ⟨hle, String.ofList (Stylesheet.minify css.toList), saved, hsmall, rfl, hsizes, ?_⟩
  rw [← savedPercent_eq_percentOf hsizes]
  rfl

end Triptych
