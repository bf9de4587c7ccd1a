import Triptych.Proofs.Stylesheet.Minify

/-!
# Making a stylesheet smaller twice

A second run changes nothing, with one exception: where two semicolons stand before the end of a
block, the first run drops one of them and the second run the other (`minify_twice_iff`).

There are three things that a run does, and each of them is looked at alone. A space that was
written is written again, and no other is (`layout_itemsOf_layout`). A short form has no shorter one
(`shortenValue_shortenValue`), and the words that are values stay values
(`shortenValues_dropEndSemicolons`). So what is left to a second run is the semicolons, and those it
finds before the end of a block had another one behind them (`infix_dropEndSemicolons_iff`).
-/

namespace Triptych.Stylesheet

open Text Code

/-! ### Short forms -/

theorem isZeroLength_iff {word : List Char} :
    isZeroLength word = true ↔ ∃ ending ∈ zeroUnits, ∃ number, word = number ++ ending ∧
      isZero number = true := by
  unfold isZeroLength
  rw [List.any_eq_true]
  refine exists_congr fun ending => and_congr_right fun _ => ?_
  constructor
  · intro h
    obtain ⟨number, hnumber, hzero⟩ := (Option.any_eq_true _ _).1 h
    exact ⟨number, dropSuffix?_eq_some hnumber, hzero⟩
  · rintro ⟨number, rfl, hzero⟩
    have hsuffix : ending.isSuffixOf (number ++ ending) = true :=
      List.isSuffixOf_iff_suffix.2 (List.suffix_append number ending)
    rw [dropSuffix?, if_pos hsuffix]
    simpa using hzero

/-- A zero starts with a zero or a point. -/
theorem head_of_isZeroLength {c : Char} {word : List Char} (h : isZeroLength (c :: word) = true) :
    c = '0' ∨ c = '.' := by
  obtain ⟨ending, -, number, hword, hzero⟩ := isZeroLength_iff.1 h
  rw [isZero, Bool.and_eq_true, List.all_eq_true] at hzero
  cases number with
  | nil => exact absurd hzero.2 (by decide)
  | cons d number =>
    obtain ⟨rfl, -⟩ := List.cons.inj hword
    simpa using hzero.1 c List.mem_cons_self

/-- What starts with neither a zero nor a point is no zero. -/
theorem isZeroLength_of_ne {c : Char} (hzero : c ≠ '0') (hpoint : c ≠ '.') (rest : List Char) :
    isZeroLength (c :: rest) = false := by
  rw [Bool.eq_false_iff]
  intro h
  rcases head_of_isZeroLength h with hhead | hhead
  · exact hzero hhead
  · exact hpoint hhead

/-- A zero before a point does not make a zero of a word. -/
theorem isZeroLength_of_point {rest : List Char} (h : isZeroLength ('.' :: rest) = true) :
    isZeroLength ('0' :: '.' :: rest) = true := by
  obtain ⟨ending, hending, number, hword, hzero⟩ := isZeroLength_iff.1 h
  refine isZeroLength_iff.2 ⟨ending, hending, '0' :: number, by rw [hword]; rfl, ?_⟩
  rw [isZero, Bool.and_eq_true] at hzero ⊢
  exact ⟨by simpa using hzero.1, by simp⟩

theorem shortenValue_of_not_zero {word : List Char} (hzero : isZeroLength word = false)
    (hcolour : shortColour? word = none) : shortenValue word = dropLeadingZero word := by
  unfold shortenValue
  rw [hzero, hcolour]
  rfl

theorem shortenValue_of_colour {word short : List Char} (h : shortColour? word = some short) :
    shortenValue word = short := by
  have hzero : isZeroLength word = false := by
    obtain ⟨r₁, r₂, g₁, g₂, b₁, b₂, rfl, -⟩ := exists_of_shortColour? h
    exact isZeroLength_of_ne (by decide) (by decide) _
  unfold shortenValue
  rw [hzero, h]
  rfl

theorem dropLeadingZero_cases (word : List Char) :
    (∃ rest, word = '0' :: '.' :: rest ∧ dropLeadingZero word = '.' :: rest) ∨
    (∃ rest, word = '-' :: '0' :: '.' :: rest ∧ dropLeadingZero word = '-' :: '.' :: rest) ∨
    dropLeadingZero word = word := by
  unfold dropLeadingZero
  split
  next rest => exact .inl ⟨rest, rfl, rfl⟩
  next rest => exact .inr (.inl ⟨rest, rfl, rfl⟩)
  next => exact .inr (.inr rfl)

/-- **A short form has no shorter one.** -/
theorem shortenValue_shortenValue (word : List Char) :
    shortenValue (shortenValue word) = shortenValue word := by
  by_cases hzero : isZeroLength word = true
  · have hshort : shortenValue word = ['0'] := if_pos hzero
    rw [hshort]
    decide
  rw [Bool.not_eq_true] at hzero
  cases hcolour : shortColour? word with
  | some short =>
    rw [shortenValue_of_colour hcolour]
    -- The short form of a colour has four characters, and no colour to be shortened has.
    obtain ⟨r₁, _, g₁, _, b₁, _, -, -, -, rfl⟩ := exists_of_shortColour? hcolour
    exact shortenValue_of_not_zero (isZeroLength_of_ne (by decide) (by decide) _) rfl
  | none =>
    have hshort := shortenValue_of_not_zero hzero hcolour
    rw [hshort]
    obtain ⟨rest, rfl, hpoint⟩ | ⟨rest, rfl, hpoint⟩ | hsame := dropLeadingZero_cases word
    · have hnone : isZeroLength ('.' :: rest) = false := by
        rw [Bool.eq_false_iff]
        intro hyes
        rw [isZeroLength_of_point hyes] at hzero
        contradiction
      rw [hpoint]
      exact shortenValue_of_not_zero hnone rfl
    · rw [hpoint]
      exact shortenValue_of_not_zero (isZeroLength_of_ne (by decide) (by decide) _) rfl
    · rw [hsame, hshort, hsame]

/-! ### Values -/

theorem closesBlock_iff {lexemes : List Lexeme} :
    closesBlock lexemes = true ↔ ∃ rest, lexemes = .delimiter '}' :: rest := by
  rw [closesBlock, beq_iff_eq, List.head?_eq_some_iff]

/-- The end of a block is not dropped. -/
theorem dropEndSemicolons_brace (lexemes : List Lexeme) :
    dropEndSemicolons (.delimiter '}' :: lexemes) =
      .delimiter '}' :: dropEndSemicolons lexemes := by
  rw [dropEndSemicolons, if_neg (by simp)]

/-- **The values that a run has written have no shorter form**, as values of what was written. -/
theorem shortenValues_dropEndSemicolons {before before' : List Lexeme} {lexemes : List Lexeme}
    (h : closesBlock lexemes = false → isValueAfter before = isValueAfter before') :
    shortenValues before (dropEndSemicolons (shortenValues before' lexemes)) =
      dropEndSemicolons (shortenValues before' lexemes) := by
  -- A semicolon that is dropped would end the value; but a brace follows, and that ends it too.
  induction lexemes generalizing before before' with
  | nil => rfl
  | cons lexeme lexemes ih =>
    cases lexeme with
    | string chars =>
      have hrest : shortenValues before' (.string chars :: lexemes) =
          .string chars :: shortenValues (.string chars :: before') lexemes := rfl
      have hvalue : isValueAfter (.string chars :: before) =
        isValueAfter (.string chars :: before') := h rfl
      rw [hrest, dropEndSemicolons, if_neg (by simp), shortenValues, ih fun _ => hvalue]
      simp
    | word chars =>
      have hvalue : isValueAfter before = isValueAfter before' := h rfl
      have hafter (shown : List Char) :
          isValueAfter (.word shown :: before) = isValueAfter (.word chars :: before') := hvalue
      rw [shortenValues, dropEndSemicolons, if_neg (by simp), shortenValues,
        ih fun _ => hafter _, hvalue]
      split
      next => rw [shortenValue_shortenValue]
      next => rfl
    | delimiter c =>
      have hrest : shortenValues before' (.delimiter c :: lexemes) =
          .delimiter c :: shortenValues (.delimiter c :: before') lexemes := rfl
      rw [hrest, dropEndSemicolons]
      split
      next hdrop =>
        -- The two contexts may differ here, since only one of them has the semicolon.
        refine ih fun hopen => ?_
        rw [closesBlock_shortenValues] at hdrop
        rw [hdrop.2] at hopen
        contradiction
      next =>
        have hvalue : isValueAfter (.delimiter c :: before) =
            isValueAfter (.delimiter c :: before') := by
          rw [isValueAfter_delimiter, isValueAfter_delimiter]
          by_cases hbrace : c = '}'
          · rw [hbrace]
            rfl
          · rw [h (by simpa [closesBlock] using hbrace)]
        rw [shortenValues, ih fun _ => hvalue]
        simp

/-! ### Semicolons -/

theorem closesBlock_iff_prefix {lexemes : List Lexeme} :
    closesBlock lexemes = true ↔ [.delimiter '}'] <+: lexemes := by
  rw [closesBlock_iff, List.cons_prefix_iff]
  simp

theorem length_dropEndSemicolons_le (lexemes : List Lexeme) :
    (dropEndSemicolons lexemes).length ≤ lexemes.length := by
  induction lexemes with
  | nil => exact Nat.le_refl 0
  | cons lexeme lexemes ih =>
    rw [dropEndSemicolons]
    split
    next => exact Nat.le_succ_of_le ih
    next => exact Nat.succ_le_succ ih

/-- Nothing is dropped exactly if no semicolon stands right before the end of a block. -/
theorem dropEndSemicolons_eq_self_iff {lexemes : List Lexeme} :
    dropEndSemicolons lexemes = lexemes ↔ ¬ [.delimiter ';', .delimiter '}'] <:+: lexemes := by
  induction lexemes with
  | nil => simp [dropEndSemicolons]
  | cons lexeme lexemes ih =>
    rw [List.infix_cons_iff, List.cons_prefix_cons, ← closesBlock_iff_prefix, not_or, ← ih,
      dropEndSemicolons]
    split
    next hdrop =>
      -- A list that lost a semicolon is shorter, so it is another one.
      have hshorter : dropEndSemicolons lexemes ≠ lexeme :: lexemes := by
        intro heq
        have hlength := length_dropEndSemicolons_le lexemes
        rw [heq, List.length_cons] at hlength
        omega
      exact iff_of_false hshorter fun hkept => hkept.1 ⟨hdrop.1.symm, hdrop.2⟩
    next hkeep =>
      rw [List.cons_inj_right]
      exact ⟨fun heq => ⟨fun hdrop => hkeep ⟨hdrop.1.symm, hdrop.2⟩, heq⟩, And.right⟩

/-- What starts with the end of a block did so before, or there was a semicolon before it. -/
theorem closesBlock_dropEndSemicolons {lexemes : List Lexeme} :
    closesBlock (dropEndSemicolons lexemes) = true ↔
      closesBlock lexemes = true ∨ [.delimiter ';', .delimiter '}'] <+: lexemes := by
  cases lexemes with
  | nil => simp [dropEndSemicolons]
  | cons lexeme lexemes =>
    rw [List.cons_prefix_cons, ← closesBlock_iff_prefix, dropEndSemicolons]
    split
    next hdrop =>
      obtain ⟨rest, rfl⟩ := closesBlock_iff.1 hdrop.2
      rw [dropEndSemicolons_brace]
      exact iff_of_true rfl (.inr ⟨hdrop.1.symm, hdrop.2⟩)
    next hkeep =>
      exact ⟨.inl, Or.rec id fun hdrop => absurd ⟨hdrop.1.symm, hdrop.2⟩ hkeep⟩

/-- **A semicolon before the end of a block is left over only from two.** -/
theorem infix_dropEndSemicolons_iff {lexemes : List Lexeme} :
    [.delimiter ';', .delimiter '}'] <:+: dropEndSemicolons lexemes ↔
      [.delimiter ';', .delimiter ';', .delimiter '}'] <:+: lexemes := by
  induction lexemes with
  | nil => simp [dropEndSemicolons]
  | cons lexeme lexemes ih =>
    rw [List.infix_cons_iff, ← ih, List.cons_prefix_cons, dropEndSemicolons]
    split
    next hdrop =>
      -- The block ends behind the semicolon that is dropped, so it is not the first of two.
      have hone : ¬ [.delimiter ';', .delimiter '}'] <+: lexemes := by
        obtain ⟨rest, rfl⟩ := closesBlock_iff.1 hdrop.2
        rw [List.cons_prefix_cons]
        simp
      exact ⟨.inr, Or.rec (fun htwo => absurd htwo.2 hone) id⟩
    next hkeep =>
      rw [List.infix_cons_iff, List.cons_prefix_cons, ← closesBlock_iff_prefix,
        closesBlock_dropEndSemicolons]
      refine or_congr_left (and_congr_right fun hsemicolon =>
        ⟨fun h => h.resolve_left fun hcloses => ?_, .inr⟩)
      exact hkeep ⟨hsemicolon.symm, hcloses⟩

/-- Short forms do not touch a delimiter. -/
theorem delimiters_prefix_shortenValues {before : List Lexeme} (chars : List Char)
    {lexemes : List Lexeme} :
    chars.map Lexeme.delimiter <+: shortenValues before lexemes ↔
      chars.map Lexeme.delimiter <+: lexemes := by
  induction chars generalizing before lexemes with
  | nil => exact iff_of_true (List.nil_prefix) (List.nil_prefix)
  | cons c chars ih =>
    rw [List.map_cons]
    match lexemes with
    | [] => exact Iff.rfl
    | .string _ :: lexemes | .word _ :: lexemes =>
      exact iff_of_false (by simp [shortenValues]) (by simp)
    | .delimiter d :: lexemes =>
      rw [shortenValues, List.cons_prefix_cons, List.cons_prefix_cons, ih]
      simp

theorem delimiters_infix_shortenValues {before : List Lexeme} (chars : List Char)
    {lexemes : List Lexeme} :
    chars.map Lexeme.delimiter <:+: shortenValues before lexemes ↔
      chars.map Lexeme.delimiter <:+: lexemes := by
  induction lexemes generalizing before with
  | nil => exact Iff.rfl
  | cons lexeme lexemes ih =>
    rw [List.infix_cons_iff, ← delimiters_prefix_shortenValues, ← @ih (lexeme :: before)]
    cases lexeme <;> exact List.infix_cons_iff

/-! ### Spaces -/

theorem itemsOf_gap (last : Option Char) (wanted : Bool) (lexeme : Lexeme) (parts : List Part) :
    itemsOf false (gap last wanted ++ .item lexeme :: parts) =
      lexeme.toItem (wanted && last.any (!looseAfter.contains ·)) :: itemsOf false parts := by
  unfold gap
  split
  next hspace =>
    rw [hspace]
    rfl
  next hnone =>
    rw [Bool.not_eq_true] at hnone
    rw [hnone]
    rfl

/-- **A space that is written is wanted, and no other is.** -/
theorem layout_itemsOf_layout (last : Option Char) (items : List Item) :
    layout last (itemsOf false (layout last items)) = layout last items := by
  induction items generalizing last with
  | nil => rfl
  | cons item items ih =>
    -- A space is written where the item wants one and the character before it allows it. Asking
    -- twice changes nothing.
    have hwants :
      (item.lexeme.toItem (item.wantsSpace && last.any (!looseAfter.contains ·))).wantsSpace =
        (item.wantsSpace && last.any (!looseAfter.contains ·)) := by
      cases item with
      | string spaced chars | word spaced chars => rfl
      | delimiter spaced c =>
        show ((spaced && !tightBefore.contains c && last.any _) && !tightBefore.contains c) = _
        rw [Item.wantsSpace, Bool.and_right_comm, Bool.and_assoc spaced, Bool.and_self]
    have hgap : gap last (item.wantsSpace && last.any (!looseAfter.contains ·)) =
        gap last item.wantsSpace := by
      rw [gap, Bool.and_assoc, Bool.and_self]
      rfl
    rw [layout, itemsOf_gap, layout, hwants, hgap, Lexeme.lexeme_toItem, ih]

theorem length_shownItems_le (inValue : Bool) (items : List Item) :
    (shownItems inValue items).length ≤ items.length := by
  induction items generalizing inValue with
  | nil => exact Nat.le_refl 0
  | cons item items ih =>
    cases item with
    | string spaced chars | word spaced chars => exact Nat.succ_le_succ (ih inValue)
    | delimiter spaced c =>
      rw [shownItems]
      split
      next => exact Nat.le_succ_of_le (ih false)
      next => exact Nat.succ_le_succ (ih _)

/-- The items are written as they are if their lexical items are. -/
theorem shownItems_eq_self {items : List Item} {inValue : Bool}
    (h : (shownItems inValue items).map Item.lexeme = items.map Item.lexeme) :
    shownItems inValue items = items := by
  induction items generalizing inValue with
  | nil => rfl
  | cons item items ih =>
    cases item with
    | string spaced chars => exact congrArg _ (ih (List.cons.inj h).2)
    | word spaced chars =>
      obtain ⟨hword, hitems⟩ := List.cons.inj h
      rw [shownItems, ih hitems, Lexeme.word.inj hword]
    | delimiter spaced c =>
      rw [shownItems] at h ⊢
      split at h
      next =>
        -- A dropped semicolon would have made the list shorter.
        have hlength := congrArg List.length h
        have hle := length_shownItems_le false items
        rw [List.length_map, List.length_map, List.length_cons] at hlength
        omega
      next hkeep =>
        rw [if_neg hkeep, ih (List.cons.inj h).2]

/-! ### The second run -/

/-- The lexical items of a second run: all that is left to it is to drop a semicolon again. -/
theorem lexemesOf_smallParts_smallParts (parts : List Part) :
    lexemesOf (smallParts (smallParts parts)) =
      dropEndSemicolons (lexemesOf (smallParts parts)) := by
  rw [lexemesOf_smallParts, lexemesOf_smallParts, shortenValues_dropEndSemicolons fun _ => rfl]

/-- A second run changes nothing exactly if it changes no lexical item. -/
theorem smallParts_smallParts_iff {parts : List Part} :
    smallParts (smallParts parts) = smallParts parts ↔
      dropEndSemicolons (lexemesOf (smallParts parts)) = lexemesOf (smallParts parts) := by
  rw [← lexemesOf_smallParts_smallParts]
  refine ⟨congrArg lexemesOf, fun h => ?_⟩
  -- If no lexical item changes, no item does, and then the spaces between them are the same as
  -- well.
  have hshown : shownItems false (itemsOf false (smallParts parts)) =
      itemsOf false (smallParts parts) := by
    refine shownItems_eq_self ?_
    rw [map_lexeme_itemsOf, ← lexemesOf_layout none, ← h]
    rfl
  calc smallParts (smallParts parts)
      = layout none (itemsOf false (smallParts parts)) := congrArg (layout none) hshown
    _ = smallParts parts := layout_itemsOf_layout none _

/-- **Making a stylesheet smaller twice.** A stylesheet that the checker accepts has one cutting,
and a second run changes nothing exactly if no two semicolons in a row stand before the end of a
block, where comments and blanks between them do not count. -/
theorem minify_twice_iff {source : List Char} (h : check source = .ok ()) :
    ∃ parts, (∀ cut, Cuts source cut ↔ cut = parts) ∧
      (minify (minify source) = minify source ↔
        ¬ [.delimiter ';', .delimiter ';', .delimiter '}'] <:+: lexemesOf parts) := by
  obtain ⟨parts, hcuts, -⟩ := check_eq_ok_iff.1 h
  have hsmall : Cuts (minify source) (smallParts parts) := hcuts.minify
  have hsecond : Cuts (minify (minify source)) (smallParts (smallParts parts)) := hsmall.minify
  refine ⟨parts, fun cut => ⟨fun hcut => hcut.unique hcuts, fun heq => heq ▸ hcuts⟩, ?_⟩
  -- By the uniqueness of cuttings, texts can be compared by their items.
  calc minify (minify source) = minify source
      ↔ smallParts (smallParts parts) = smallParts parts := by
        refine ⟨fun heq => ?_, fun heq => ?_⟩
        · rw [heq] at hsecond
          exact hsecond.unique hsmall
        · rw [← hsecond.1, heq, hsmall.1]
    _ ↔ ¬ [.delimiter ';', .delimiter '}'] <:+: lexemesOf (smallParts parts) := by
        rw [smallParts_smallParts_iff, dropEndSemicolons_eq_self_iff]
    _ ↔ ¬ [.delimiter ';', .delimiter ';', .delimiter '}'] <:+: lexemesOf parts := by
        rw [lexemesOf_smallParts, infix_dropEndSemicolons_iff]
        exact not_congr (delimiters_infix_shortenValues [';', ';', '}'])

/-- A rule that has two semicolons before its end, though not next to each other. -/
def twiceEnded : List Char :=
  "p{x:0px;/**/ ;}".toList

/-- The second semicolon of this block goes in a second run only. -/
theorem minify_twice_iff_twiceEnded :
    check twiceEnded = .ok () ∧ minify (minify twiceEnded) ≠ minify twiceEnded := by
  have hcheck : check twiceEnded = .ok () := by with_unfolding_all rfl
  obtain ⟨parts, hparts, hiff⟩ := minify_twice_iff hcheck
  have hcuts : Cuts twiceEnded
      [.item (.word ['p']), .item (.delimiter '{'), .item (.word ['x']), .item (.delimiter ':'),
        .item (.word ['0', 'p', 'x']), .item (.delimiter ';'), .comment [], .blank ' ',
        .item (.delimiter ';'), .item (.delimiter '}')] :=
    ⟨rfl, ⟨List.cons_ne_nil _ _, rfl, rfl⟩, rfl, ⟨List.cons_ne_nil _ _, rfl, rfl⟩, rfl,
      ⟨List.cons_ne_nil _ _, rfl, rfl, rfl, rfl⟩, rfl, rfl, rfl, rfl, rfl, trivial⟩
  rw [← (hparts _).1 hcuts] at hiff
  refine ⟨hcheck, fun hsame => hiff.1 hsame ?_⟩
  exact ⟨[.word ['p'], .delimiter '{', .word ['x'], .delimiter ':', .word ['0', 'p', 'x']], [], rfl⟩

/-- The second run drops the semicolon that the first one leaves, so making a stylesheet smaller is
not idempotent. -/
theorem minify_twice_drops_two :
    ¬ ∀ source, check source = .ok () → minify (minify source) = minify source := by
  have hcheck : check "a{b:c;;}".toList = .ok () := by with_unfolding_all rfl
  have hcuts : Cuts "a{b:c;;}".toList
      [.item (.word ['a']), .item (.delimiter '{'), .item (.word ['b']), .item (.delimiter ':'),
        .item (.word ['c']), .item (.delimiter ';'), .item (.delimiter ';'),
            .item (.delimiter '}')] :=
    ⟨rfl, ⟨List.cons_ne_nil _ _, rfl, rfl⟩, rfl, ⟨List.cons_ne_nil _ _, rfl, rfl⟩, rfl,
      ⟨List.cons_ne_nil _ _, rfl, rfl⟩, rfl, rfl, rfl, trivial⟩
  have hfirst : minify "a{b:c;;}".toList = "a{b:c;}".toList := hcuts.minify.1.symm
  have hsecond : minify (minify "a{b:c;;}".toList) = "a{b:c}".toList := hcuts.minify.minify.1.symm
  intro hidem
  have hsame := hidem _ hcheck
  rw [hfirst] at hsecond hsame
  rw [hsecond] at hsame
  contradiction

end Triptych.Stylesheet
