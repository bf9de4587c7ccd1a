import Triptych.Proofs.Stylesheet.Preludes

/-!
# The spaces of the smaller stylesheet

Whether a space is written between two lexical items is decided by the two alone, and by whether
anything stood between them (`minify_spaces`). A comment that stood there counts as a blank does. So
where nothing but a comment kept two words apart a space is written in its place, although there was
none: a compound selector becomes one that looks for descendants (`comment_becomes_space`).
-/

namespace Triptych.Stylesheet

open Text Code

/-! ### Neighbours -/

/-- True of a delimiter after which no space is written. -/
def Lexeme.isLoose : Lexeme → Bool
  | .delimiter c => looseAfter.contains c
  | _ => false

/-- True of a delimiter before which no space is written. -/
def Lexeme.isTight : Lexeme → Bool
  | .delimiter c => tightBefore.contains c
  | _ => false

/-- The semicolon that is dropped before `following`, since a block ends there. -/
def Lexeme.IsEndSemicolon (following : List Lexeme) (lexeme : Lexeme) : Prop :=
  lexeme = .delimiter ';' ∧ closesBlock following = true

instance (following : List Lexeme) (lexeme : Lexeme) :
    Decidable (lexeme.IsEndSemicolon following) :=
  inferInstanceAs (Decidable (_ ∧ _))

/-- The lexical item as it is written behind `before`, the last one first. -/
def Lexeme.shownAfter (before : List Lexeme) (lexeme : Lexeme) : Lexeme :=
  if isValueAfter before then lexeme.shorten else lexeme

/-- What is written between two lexical items that had `between` between them. -/
def shownBetween (left : Lexeme) (between : List Part) (right : Lexeme) : List Part :=
  if !between.isEmpty && !left.isLoose && !right.isTight then [.blank ' '] else []

/-- Among the parts, `left` and `right` are lexical items next to each other, both of which are
written; blanks and comments may stand between them. -/
structure AreNeighbours (before : List Part) (left : Lexeme) (between : List Part) (right : Lexeme)
    (after : List Part) (parts : List Part) : Prop where
  parts_eq : parts = before ++ .item left :: (between ++ .item right :: after)
  apart : lexemesOf between = []
  left_kept : ¬ left.IsEndSemicolon (right :: lexemesOf after)
  right_kept : ¬ right.IsEndSemicolon (lexemesOf after)

/-- What has no short form is written as it is. -/
theorem Lexeme.shownAfter_of_shorten_eq {lexeme : Lexeme} (h : lexeme.shorten = lexeme)
    (before : List Lexeme) :
    lexeme.shownAfter before = lexeme := by
  rw [shownAfter, h, ite_self]

/-- Shortening changes no delimiter, so the neighbours of an item want the same spaces. -/
@[simp] theorem Lexeme.isLoose_shownAfter (before : List Lexeme) (lexeme : Lexeme) :
    (lexeme.shownAfter before).isLoose = lexeme.isLoose := by
  unfold shownAfter
  split
  · cases lexeme <;> rfl
  · rfl

@[simp] theorem Lexeme.isTight_shownAfter (before : List Lexeme) (lexeme : Lexeme) :
    (lexeme.shownAfter before).isTight = lexeme.isTight := by
  unfold shownAfter
  split
  · cases lexeme <;> rfl
  · rfl

/-- A short value is a whole word. -/
theorem Lexeme.Fits.shownAfter {lexeme : Lexeme} (h : lexeme.Fits []) (before : List Lexeme) :
    (lexeme.shownAfter before).Fits [] := by
  unfold Lexeme.shownAfter
  split
  · cases lexeme with
    | string chars | delimiter c => exact h
    | word chars => exact fits_shortenValue h
  · exact h

/-- An item wants a space where one was, unless it is tight. -/
theorem wantsSpace_toItem (spaced : Bool) (lexeme : Lexeme) :
    (lexeme.toItem spaced).wantsSpace = (spaced && !lexeme.isTight) := by
  cases lexeme with
  | string chars | word chars => exact (Bool.and_true spaced).symm
  | delimiter c => rfl

/-- A space may stand after a lexical item unless it is a loose delimiter. -/
theorem any_getLast?_of_fits {lexeme : Lexeme} (h : lexeme.Fits []) :
    lexeme.chars.getLast?.any (!looseAfter.contains ·) = !lexeme.isLoose := by
  obtain ⟨last, hlast, -, hdelimiter⟩ := getLast?_of_fits h
  have hloose : looseAfter.all isDelimiter = true := by decide
  have hplain (hne : lexeme ≠ .delimiter last) : looseAfter.contains last = false := by
    rw [List.contains_eq_mem, decide_eq_false_iff_not]
    exact fun hmem => hne (hdelimiter (List.all_eq_true.1 hloose last hmem))
  rw [hlast, Option.any_some]
  cases lexeme with
  | string chars | word chars => rw [hplain nofun]; rfl
  | delimiter c =>
    obtain rfl : c = last := Option.some.inj hlast
    rfl

/-! ### Where a lexical item is written -/

/-- Comments and blanks give no items; they leave the note that something stood there. -/
theorem itemsOf_append_of_apart {between : List Part} (h : lexemesOf between = []) (spaced : Bool)
    (parts : List Part) :
    itemsOf spaced (between ++ parts) = itemsOf (spaced || !between.isEmpty) parts := by
  induction between generalizing spaced with
  | nil => rw [List.nil_append, List.isEmpty_nil, Bool.not_true, Bool.or_false]
  | cons part between ih =>
    have hspaced : (spaced || !(part :: between).isEmpty) = (true || !between.isEmpty) :=
      Bool.or_true spaced
    match part with
    | .blank _ | .comment _ => rw [hspaced, ← ih h true]; rfl

/-- A lexical item that is not dropped is written first. -/
theorem shownItems_toItem_cons {lexeme : Lexeme} {items : List Item}
    (h : ¬ lexeme.IsEndSemicolon (items.map Item.lexeme)) (before : List Lexeme) (spaced : Bool) :
    shownItems (isValueAfter before) (lexeme.toItem spaced :: items) =
      (lexeme.shownAfter before).toItem spaced :: shownItems
        (isValueAfter (lexeme :: before)) items := by
  cases lexeme with
  | string chars =>
    rw [Lexeme.shownAfter_of_shorten_eq rfl]
    rfl
  | word chars =>
    rw [Lexeme.toItem, shownItems, isValueAfter_word, Lexeme.shownAfter]
    split <;> rfl
  | delimiter c =>
    rw [Lexeme.toItem, shownItems, isValueAfter_delimiter, Lexeme.shownAfter_of_shorten_eq rfl,
      if_neg fun hdrop => h ⟨congrArg _ hdrop.1, hdrop.2⟩]
    rfl

/-- The last semicolon of a block is left out, though it ends the value before it. -/
theorem shownItems_endSemicolon {lexeme : Lexeme} {items : List Item}
    (h : lexeme.IsEndSemicolon (items.map Item.lexeme)) (before : List Lexeme) (spaced : Bool) :
    shownItems (isValueAfter before) (lexeme.toItem spaced :: items) =
      shownItems (isValueAfter (lexeme :: before)) items := by
  obtain ⟨rfl, hcloses⟩ := h
  rw [Lexeme.toItem, shownItems, if_pos ⟨rfl, hcloses⟩]
  rfl

/-- What is written before a lexical item does not depend on what follows it, unless the item is
dropped. -/
theorem exists_shownItems_item (earlier : List Lexeme) (spaced : Bool) (before : List Part)
    (lexeme : Lexeme) :
    ∃ items spaced', ∀ after, ¬ lexeme.IsEndSemicolon (lexemesOf after) →
      shownItems (isValueAfter earlier) (itemsOf spaced (before ++ .item lexeme :: after)) =
        items ++ (lexeme.shownAfter ((lexemesOf before).reverse ++ earlier)).toItem spaced' ::
          shownItems (isValueAfter (lexeme :: ((lexemesOf before).reverse ++ earlier)))
            (itemsOf false after) := by
  induction before generalizing earlier spaced with
  | nil =>
    refine ⟨[], spaced, fun after hkept => ?_⟩
    rw [← map_lexeme_itemsOf false after] at hkept
    exact shownItems_toItem_cons hkept earlier spaced
  | cons part before ih =>
    match part with
    | .blank _ | .comment _ => exact ih earlier true
    | .item first =>
      obtain ⟨items, spaced', hitems⟩ := ih (first :: earlier) false
      -- Whether the first item is dropped is decided by the one behind it, which comes before
      -- `after`.
      have hnext (after : List Part) :
          closesBlock ((itemsOf false (before ++ .item lexeme :: after)).map Item.lexeme) =
            closesBlock (lexemesOf before ++ [lexeme]) := by
        rw [map_lexeme_itemsOf, lexemesOf_append, lexemesOf, closesBlock, closesBlock,
          List.head?_append, List.head?_append]
        rfl
      have hearlier : (lexemesOf (.item first :: before)).reverse ++ earlier =
          (lexemesOf before).reverse ++ first :: earlier := by
        rw [lexemesOf, List.reverse_cons, List.append_assoc]
        rfl
      rw [hearlier]
      by_cases hdrop : first.IsEndSemicolon (lexemesOf before ++ [lexeme])
      · refine ⟨items, spaced', fun after hkept => ?_⟩
        rw [← hitems after hkept]
        exact shownItems_endSemicolon ⟨hdrop.1, (hnext after).trans hdrop.2⟩ earlier spaced
      · refine ⟨(first.shownAfter earlier).toItem spaced :: items, spaced', fun after hkept => ?_⟩
        rw [List.cons_append, List.cons_append, ← hitems after hkept]
        exact shownItems_toItem_cons (fun h => hdrop ⟨h.1, (hnext after).symm.trans h.2⟩) earlier
          spaced

/-- **What is laid out before an item does not depend on what comes later**, and what comes later
sees nothing of the item but its last character. -/
theorem exists_layout_item (last : Option Char) (items : List Item) (item : Item) :
    ∃ before, lexemesOf before = items.map Item.lexeme ∧
      ∀ more, layout last (items ++ item :: more) =
        before ++ .item item.lexeme :: layout item.lexeme.chars.getLast? more := by
  have hgap (last : Option Char) (wanted : Bool) : lexemesOf (gap last wanted) = [] := by
    unfold gap
    split <;> rfl
  induction items generalizing last with
  | nil => exact ⟨gap last item.wantsSpace, hgap _ _, fun more => rfl⟩
  | cons first items ih =>
    obtain ⟨before, hbefore, hlayout⟩ := ih first.lexeme.chars.getLast?
    refine ⟨gap last first.wantsSpace ++ .item first.lexeme :: before, ?_, fun more => ?_⟩
    · rw [lexemesOf_append, hgap, lexemesOf, hbefore]
      rfl
    · rw [List.cons_append, layout, hlayout, List.append_assoc]
      rfl

/-! ### Spaces in the smaller stylesheet -/

/-- **Two neighbours are neighbours in the smaller stylesheet**, with at most one space between
them. -/
theorem AreNeighbours.smallParts {before between after parts : List Part} {left right : Lexeme}
    (h : AreNeighbours before left between right after parts) (hcut : WellCut parts) :
    ∃ before' after',
      Stylesheet.smallParts parts =
        before' ++ .item (left.shownAfter (lexemesOf before).reverse) ::
          (shownBetween left between right ++
            .item (right.shownAfter (left :: (lexemesOf before).reverse)) :: after') ∧
      lexemesOf before' ++ [left.shownAfter (lexemesOf before).reverse] =
        smaller (lexemesOf before ++ [left]) := by
  -- What comes before `left` is shown and laid out whatever follows it.
  obtain ⟨items, spaced, hitems⟩ := exists_shownItems_item [] false before left
  simp only [List.append_nil] at hitems
  obtain ⟨before', hbefore', hlayout⟩ := exists_layout_item none items
    ((left.shownAfter (lexemesOf before).reverse).toItem spaced)
  rw [Lexeme.lexeme_toItem] at hlayout
  have hleft : left.Fits [] := by
    have hmem : left ∈ (itemsOf false parts).map Item.lexeme := by
      rw [map_lexeme_itemsOf, h.parts_eq, lexemesOf_append]
      exact List.mem_append_right _ List.mem_cons_self
    obtain ⟨item, hitem, rfl⟩ := List.mem_map.1 hmem
    exact fits_itemsOf hcut false item hitem
  -- The two are kept: neither is the last semicolon of a block.
  have hfollowing : lexemesOf (between ++ .item right :: after) = right :: lexemesOf after := by
    rw [lexemesOf_append, h.apart]
    rfl
  have hright : ¬ right.IsEndSemicolon ((itemsOf false after).map Item.lexeme) := by
    rw [map_lexeme_itemsOf]
    exact h.right_kept
  refine ⟨before', layout (right.shownAfter (left :: (lexemesOf before).reverse)).chars.getLast?
    (shownItems (isValueAfter (right :: left :: (lexemesOf before).reverse)) (itemsOf false after)),
    ?_, ?_⟩
  · -- Up to `left` the layout is settled; what follows it starts with the space that `right` asks
    -- for.
    calc Stylesheet.smallParts parts
        = layout none (shownItems (isValueAfter [])
            (itemsOf false
              (before ++ .item left :: (between ++
              .item right :: after)))) := by rw [h.parts_eq]; rfl
      _ = before' ++ .item (left.shownAfter (lexemesOf before).reverse) ::
            layout (left.shownAfter (lexemesOf before).reverse).chars.getLast?
              (shownItems (isValueAfter (left :: (lexemesOf before).reverse))
                (right.toItem (!between.isEmpty) :: itemsOf false after)) := by
          rw [hitems _ (by rw [hfollowing]; exact h.left_kept), hlayout,
            itemsOf_append_of_apart h.apart, Bool.false_or]
          rfl
      _ = _ := by
          rw [shownItems_toItem_cons hright, layout, gap, wantsSpace_toItem,
            any_getLast?_of_fits (hleft.shownAfter _), Lexeme.isLoose_shownAfter,
            Lexeme.isTight_shownAfter, Lexeme.lexeme_toItem, Bool.and_right_comm]
          rfl
  · -- With nothing behind it, `left` is the last lexical item that is written.
    have halone :=
      congrArg (List.map Item.lexeme) (hitems [] fun hdrop => Bool.false_ne_true hdrop.2)
    rw [map_lexeme_shownItems, map_lexeme_itemsOf, lexemesOf_append] at halone
    rw [hbefore']
    simpa [smaller, lexemesOf, itemsOf, shownItems] using halone.symm

/-- **Where spaces are written.** A stylesheet that the checker accepts has one cutting, and so has
the smaller one. Two lexical items that follow each other and are both written follow each other in
the smaller stylesheet, and one space stands between them if anything stood there, blank or comment,
unless the first is a delimiter that needs no space after it or the second one that needs none
before it. -/
theorem minify_spaces {source : List Char} (h : check source = .ok ()) :
    ∃ parts small, (∀ cut, Cuts source cut ↔ cut = parts) ∧
      (∀ cut, Cuts (minify source) cut ↔ cut = small) ∧
      ∀ before left between right after, AreNeighbours before left between right after parts →
        ∃ before' after',
          small =
            before' ++ .item (left.shownAfter (lexemesOf before).reverse) ::
              (shownBetween left between right ++
                .item (right.shownAfter (left :: (lexemesOf before).reverse)) :: after') ∧
          lexemesOf before' ++ [left.shownAfter (lexemesOf before).reverse] =
            smaller (lexemesOf before ++ [left]) := by
  obtain ⟨parts, hcuts, -⟩ := check_eq_ok_iff.1 h
  refine ⟨parts, smallParts parts, ?_, ?_, fun _ _ _ _ _ hneighbours =>
    hneighbours.smallParts hcuts.2⟩
  · exact fun cut => ⟨fun hcut => hcut.unique hcuts, fun heq => heq ▸ hcuts⟩
  · exact fun cut => ⟨fun hcut => hcut.unique hcuts.minify, fun heq => heq ▸ hcuts.minify⟩

/-- Two classes and a block, with a comment before the second class and one before the block. -/
def commentedRule : List Char :=
  ".a/*c*/.b/**/{}".toList

/-- A comment leaves a space between two words, and none before a brace. -/
theorem minify_spaces_commentedRule :
    check commentedRule = .ok () ∧
      ∃ small, Cuts (minify commentedRule) small ∧
        (∃ before after,
          small = before ++ .item (.word ['.', 'a']) :: .blank ' ' :: .item
            (.word ['.', 'b']) :: after) ∧
        ∃ before after, small = before ++ .item (.word ['.', 'b']) :: .item
          (.delimiter '{') :: after := by
  have hcheck : check commentedRule = .ok () := by with_unfolding_all rfl
  obtain ⟨parts, small, hparts, hsmall, hspaces⟩ := minify_spaces hcheck
  have hcuts : Cuts commentedRule
      [.item (.word ['.', 'a']), .comment ['c'], .item (.word ['.', 'b']), .comment [],
        .item (.delimiter '{'), .item (.delimiter '}')] :=
    ⟨rfl, ⟨List.cons_ne_nil _ _, rfl, rfl, rfl⟩, rfl, ⟨List.cons_ne_nil _ _, rfl, rfl, rfl⟩, rfl,
      rfl, rfl, trivial⟩
  rw [← (hparts _).1 hcuts] at hspaces
  obtain ⟨before, after, hclasses, -⟩ :=
    hspaces [] _ [.comment ['c']] _ _ ⟨rfl, rfl, by decide, by decide⟩
  obtain ⟨before', after', hblock, -⟩ :=
    hspaces [.item (.word ['.', 'a']), .comment ['c']] _ [.comment []] _ _
      ⟨rfl, rfl, by decide, by decide⟩
  exact ⟨hcheck, small, (hsmall small).2 rfl, ⟨before, after, hclasses⟩, before', after', hblock⟩

/-- Leaving comments out can put a space between two lexical items that had none between them. -/
theorem comment_becomes_space :
    ¬ ∀ source, check source = .ok () → ∀ parts small, Cuts source parts →
      Cuts (minify source) small →
      ∀ before left between right after, AreNeighbours before left between right after parts →
        (∀ part ∈ between, ∃ body, part = .comment body) →
        ∀ before' left' between' right' after',
          small = before' ++ .item left' :: (between' ++ .item right' :: after') →
            lexemesOf between' = [] →
          lexemesOf before' ++ [left'] = smaller (lexemesOf before ++ [left]) → between' = [] := by
  have hcheck : check ".a/*c*/.b".toList = .ok () := by with_unfolding_all rfl
  have hcuts : Cuts ".a/*c*/.b".toList [.item (.word ['.', 'a']), .comment ['c'],
      .item (.word ['.', 'b'])] :=
    ⟨rfl, ⟨List.cons_ne_nil _ _, rfl, rfl, rfl⟩, rfl, ⟨List.cons_ne_nil _ _, rfl, rfl, trivial⟩,
      trivial⟩
  intro hnone
  have hspace := hnone _ hcheck _ _ hcuts hcuts.minify [] _ [.comment ['c']] _ []
    ⟨rfl, rfl, by decide, by decide⟩ (List.forall_mem_singleton.2 ⟨['c'], rfl⟩)
    [] (.word ['.', 'a']) [.blank ' '] (.word ['.', 'b']) [] (by decide) rfl (by decide)
  contradiction

end Triptych.Stylesheet
