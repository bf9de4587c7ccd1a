import Triptych.Proofs.Stylesheet.SecondRun

/-!
# The preludes of blocks

The prelude of a block is what stands before the brace that opens it, from the brace or semicolon
before: a selector, or an at-rule with its conditions. Whether a word is a value is decided by the
last colon, brace or semicolon before it alone, so a prelude is not told from a declaration before
its brace comes. Up to its first colon a prelude is written as it is, and from there on each word of
it takes its short form (`minify_preludes`), although it is not a value: an identifier in a selector
is shortened behind a pseudo-class as a colour would be (`minify_changes_selector`).
-/

namespace Triptych.Stylesheet

open Text Code

/-! ### Preludes -/

/-- True of the delimiters between which a prelude stands: the braces of blocks, and the
semicolon. -/
def Lexeme.isBoundary (lexeme : Lexeme) : Bool :=
  ['{', '}', ';'].any (lexeme == .delimiter ·)

/-- Among the lexical items, `prelude` is the prelude of a block, with `before` before it and
`after` behind the brace that opens the block. -/
structure IsPrelude (before prelude after lexemes : List Lexeme) : Prop where
  lexemes_eq : lexemes = before ++ (prelude ++ .delimiter '{' :: after)
  /-- The prelude starts behind a boundary, or is the first. -/
  starts : ∀ last ∈ before.getLast?, last.isBoundary = true
  /-- The prelude goes up to the next boundary. -/
  goesOn : ∀ lexeme ∈ prelude, lexeme.isBoundary = false

/-- The lexical item in short form, as if it belonged to a value. -/
def Lexeme.shorten : Lexeme → Lexeme
  | .word chars => .word (shortenValue chars)
  | lexeme => lexeme

/-- A prelude as it is written: from the first colon on, in short form. -/
def shownPrelude (prelude : List Lexeme) : List Lexeme :=
  prelude.takeWhile (· != .delimiter ':') ++ (prelude.dropWhile (· != .delimiter ':')).map
    Lexeme.shorten

/-- Lexical items as they are written from the start of a stylesheet, or behind a boundary. -/
def smaller (lexemes : List Lexeme) : List Lexeme :=
  dropEndSemicolons (shortenValues [] lexemes)

@[simp] theorem isBoundary_delimiter (c : Char) :
    (Lexeme.delimiter c).isBoundary = true ↔ c = '{' ∨ c = '}' ∨ c = ';' := by
  simp [Lexeme.isBoundary]

/-- Behind the first colon of a prelude every word is shortened, and before it none is. -/
theorem shownPrelude_colon (prelude : List Lexeme) :
    shownPrelude (.delimiter ':' :: prelude) = .delimiter ':' :: prelude.map Lexeme.shorten := by
  simp [shownPrelude, Lexeme.shorten]

theorem shownPrelude_cons {lexeme : Lexeme} (h : lexeme ≠ .delimiter ':') (prelude : List Lexeme) :
    shownPrelude (lexeme :: prelude) = lexeme :: shownPrelude prelude := by
  simp [shownPrelude, h]

/-- A prelude is written as it is exactly if from its first colon on every word is its own short
form. -/
theorem shownPrelude_eq_self_iff {prelude : List Lexeme} :
    shownPrelude prelude = prelude ↔
      ∀ chars, .word chars ∈ prelude.dropWhile (· != .delimiter ':') →
        shortenValue chars = chars := by
  have hsplit : prelude.takeWhile (· != .delimiter ':') ++ prelude.dropWhile (· != .delimiter ':') =
      prelude :=
    List.takeWhile_append_dropWhile
  -- Up to the colon nothing changes, and behind it every lexeme is shortened by itself.
  have hsame : shownPrelude prelude = prelude ↔
      ∀ lexeme ∈ prelude.dropWhile (· != .delimiter ':'), lexeme.shorten = lexeme := by
    calc shownPrelude prelude = prelude
        ↔ shownPrelude prelude =
            prelude.takeWhile (· != .delimiter ':') ++ prelude.dropWhile (· != .delimiter ':') := by
              rw [hsplit]
      _ ↔ (prelude.dropWhile (· != .delimiter ':')).map Lexeme.shorten =
            (prelude.dropWhile (· != .delimiter ':')).map id := by
          rw [shownPrelude, List.append_right_inj, List.map_id]
      _ ↔ ∀ lexeme ∈ prelude.dropWhile (· != .delimiter ':'), lexeme.shorten = id lexeme :=
        List.map_inj_left
  rw [hsame]
  constructor
  · intro h chars hmem
    exact Lexeme.word.inj (h _ hmem)
  · intro h lexeme hmem
    cases lexeme with
    | string chars | delimiter c => rfl
    | word chars => exact congrArg Lexeme.word (h chars hmem)

/-! ### Words in context -/

/-- No value goes on over the end of a declaration or a brace. -/
theorem isValueAfter_boundary {last : Lexeme} (h : last.isBoundary = true) (before : List Lexeme) :
    isValueAfter (last :: before) = false := by
  obtain ⟨c, hc, heq⟩ := List.any_eq_true.1 h
  obtain rfl : last = .delimiter c := beq_iff_eq.1 heq
  rw [isValueAfter_delimiter, inValueAfter]
  obtain rfl | rfl | rfl : c = '{' ∨ c = '}' ∨ c = ';' := by simpa using hc
  all_goals rfl

/-- Only a colon makes values of the words after it, and only a boundary ends that. -/
theorem isValueAfter_of_not_boundary {lexeme : Lexeme} (h : lexeme.isBoundary = false)
    (before : List Lexeme) :
    isValueAfter (lexeme :: before) = (lexeme == .delimiter ':' || isValueAfter before) := by
  cases lexeme with
  | string chars | word chars => rfl
  | delimiter c =>
    have hinside : ¬ (c = '{' ∨ c = '}' ∨ c = ';') := by
      rw [← isBoundary_delimiter, h]
      decide
    rw [isValueAfter_delimiter, inValueAfter]
    split
    next hcolon =>
      rw [hcolon]
      rfl
    next hcolon =>
      rw [if_neg (by simpa [or_assoc] using hinside)]
      simp [hcolon]

/-- Shortening goes from left to right, and what comes later sees what came before. -/
theorem shortenValues_append (before lexemes lexemes' : List Lexeme) :
    shortenValues before (lexemes ++ lexemes') =
      shortenValues before lexemes ++ shortenValues (lexemes.reverse ++ before) lexemes' := by
  induction lexemes generalizing before with
  | nil => rfl
  | cons lexeme lexemes ih =>
    cases lexeme <;> simp [shortenValues, ih]

/-- Words are values in one place as in another if a word is a value at the start of both. -/
theorem shortenValues_congr {before before' : List Lexeme}
    (h : isValueAfter before = isValueAfter before') (lexemes : List Lexeme) :
    shortenValues before lexemes = shortenValues before' lexemes := by
  induction lexemes generalizing before before' with
  | nil => rfl
  | cons lexeme lexemes ih =>
    cases lexeme with
    | string chars => exact congrArg (_ :: ·) (ih h)
    | delimiter c =>
      refine congrArg (_ :: ·) (ih ?_)
      rw [isValueAfter_delimiter, isValueAfter_delimiter, h]
    | word chars =>
      rw [shortenValues, shortenValues, h]
      exact congrArg (_ :: ·) (ih h)

/-- Behind a colon everything takes its short form, up to the next boundary. -/
theorem shortenValues_of_value {before lexemes : List Lexeme} (hvalue : isValueAfter before = true)
    (hinside : ∀ lexeme ∈ lexemes, lexeme.isBoundary = false) :
    shortenValues before lexemes = lexemes.map Lexeme.shorten := by
  induction lexemes generalizing before with
  | nil => rfl
  | cons lexeme lexemes ih =>
    obtain ⟨hlexeme, hlexemes⟩ := List.forall_mem_cons.1 hinside
    have hrest : shortenValues (lexeme :: before) lexemes = lexemes.map Lexeme.shorten := by
      refine ih ?_ hlexemes
      rw [isValueAfter_of_not_boundary hlexeme, hvalue, Bool.or_true]
    cases lexeme with
    | string chars | delimiter c => exact congrArg (_ :: ·) hrest
    | word chars =>
      rw [shortenValues, hvalue, hrest]
      rfl

/-- **A prelude is kept up to its first colon, and takes its short form from there on.** -/
theorem shortenValues_prelude {before prelude : List Lexeme} (hvalue : isValueAfter before = false)
    (hinside : ∀ lexeme ∈ prelude, lexeme.isBoundary = false) :
    shortenValues before prelude = shownPrelude prelude := by
  induction prelude generalizing before with
  | nil => rfl
  | cons lexeme prelude ih =>
    obtain ⟨hlexeme, hprelude⟩ := List.forall_mem_cons.1 hinside
    -- Whether the next word belongs to a value is decided by whether this item is a colon.
    have hafter := isValueAfter_of_not_boundary hlexeme before
    rw [hvalue, Bool.or_false] at hafter
    -- The item itself is not shortened, as no colon stands before it.
    have hkept : shortenValues before (lexeme :: prelude) =
        lexeme :: shortenValues (lexeme :: before) prelude := by
      cases lexeme with
      | string chars | delimiter c => rfl
      | word chars =>
        rw [shortenValues, hvalue]
        rfl
    rw [hkept]
    -- Behind the first colon everything is a value; before it the induction goes on.
    by_cases hcolon : lexeme = .delimiter ':'
    · have hrest : shortenValues (lexeme :: before) prelude = prelude.map Lexeme.shorten := by
        refine shortenValues_of_value ?_ hprelude
        rw [hafter, hcolon]
        rfl
      rw [hrest, hcolon, shownPrelude_colon]
    · rw [ih (by simpa [hafter] using hcolon) hprelude, shownPrelude_cons hcolon]

/-! ### Preludes in the smaller stylesheet -/

/-- Semicolons are dropped on both sides of a cut that no closing brace follows. -/
theorem dropEndSemicolons_append {lexemes lexemes' : List Lexeme}
    (h : closesBlock lexemes' = false) :
    dropEndSemicolons (lexemes ++ lexemes') =
      dropEndSemicolons lexemes ++ dropEndSemicolons lexemes' := by
  induction lexemes with
  | nil => rfl
  | cons lexeme lexemes ih =>
    have hcloses : closesBlock (lexemes ++ lexemes') = closesBlock lexemes := by
      cases lexemes with
      | nil => exact h
      | cons => rfl
    rw [List.cons_append, dropEndSemicolons, dropEndSemicolons, hcloses, ih]
    split <;> rfl

/-- The last item is never dropped, as no brace comes behind it. -/
theorem getLast?_dropEndSemicolons (lexemes : List Lexeme) :
    (dropEndSemicolons lexemes).getLast? = lexemes.getLast? := by
  induction lexemes with
  | nil => rfl
  | cons lexeme lexemes ih =>
    rw [dropEndSemicolons]
    split
    next hdrop =>
      obtain ⟨rest, rfl⟩ := closesBlock_iff.1 hdrop.2
      rw [ih, List.getLast?_cons_cons]
    next => rw [List.getLast?_cons, List.getLast?_cons, ih]

/-- Behind a boundary the stylesheet is written as if it started there. -/
theorem smaller_append {lexemes lexemes' : List Lexeme}
    (hlast : ∀ last ∈ lexemes.getLast?, last.isBoundary = true)
    (hcloses : closesBlock lexemes' = false) :
    smaller (lexemes ++ lexemes') = smaller lexemes ++ smaller lexemes' := by
  -- No word is a value right behind a boundary, nor is one at the start.
  have hvalue : isValueAfter (lexemes.reverse ++ []) = isValueAfter [] := by
    cases hreverse : lexemes.reverse with
    | nil => rfl
    | cons last rest =>
      have hmem : last ∈ lexemes.getLast? := by
        rw [List.getLast?_eq_head?_reverse, hreverse]
        rfl
      exact isValueAfter_boundary (hlast last hmem) _
  rw [smaller, shortenValues_append, shortenValues_congr hvalue,
    dropEndSemicolons_append (by rwa [closesBlock_shortenValues])]
  rfl

/-- Shortening keeps the ends of declarations. -/
theorem map_isBoundary_shortenValues (before lexemes : List Lexeme) :
    (shortenValues before lexemes).map Lexeme.isBoundary = lexemes.map Lexeme.isBoundary := by
  induction lexemes generalizing before with
  | nil => rfl
  | cons lexeme lexemes ih =>
    cases lexeme with
    | string chars | delimiter c => exact congrArg (_ :: ·) (ih _)
    | word chars => exact congrArg (false :: ·) (ih _)

/-- **A prelude of a stylesheet is one of the smaller stylesheet**, as it is written. -/
theorem IsPrelude.smaller {before prelude after lexemes : List Lexeme}
    (h : IsPrelude before prelude after lexemes) :
    IsPrelude (smaller before) (shownPrelude prelude) (smaller after) (smaller lexemes) := by
  have hshown : shortenValues [] prelude = shownPrelude prelude :=
    shortenValues_prelude rfl h.goesOn
  have hgoesOn : ∀ lexeme ∈ shownPrelude prelude, lexeme.isBoundary = false := by
    have hall : ∀ boundary ∈ prelude.map Lexeme.isBoundary, boundary = false :=
      List.forall_mem_map.2 h.goesOn
    rw [← map_isBoundary_shortenValues [], hshown] at hall
    exact List.forall_mem_map.1 hall
  have hstarts : ∀ last ∈ (Stylesheet.smaller before).getLast?, last.isBoundary = true := by
    have hall : ∀ boundary ∈ (before.map Lexeme.isBoundary).getLast?, boundary = true := by
      rw [List.getLast?_map]
      simpa using h.starts
    rw [← map_isBoundary_shortenValues [], List.getLast?_map, ← getLast?_dropEndSemicolons] at hall
    intro last hlast
    exact hall _ (Option.mem_map_of_mem _ hlast)
  refine ⟨?_, hstarts, hgoesOn⟩
  -- No semicolon of a prelude is dropped, since there is none; and the block that follows is no end
  -- of a block.
  have hkept : dropEndSemicolons (shownPrelude prelude) = shownPrelude prelude := by
    rw [dropEndSemicolons_eq_self_iff]
    intro hpair
    have hmem : .delimiter ';' ∈ shownPrelude prelude := hpair.subset List.mem_cons_self
    exact absurd (hgoesOn _ hmem) (by decide)
  have hcloses : closesBlock (prelude ++ .delimiter '{' :: after) = false := by
    cases prelude with
    | nil => rfl
    | cons lexeme prelude =>
      have hlexeme : lexeme ≠ .delimiter '}' := by
        rintro rfl
        exact absurd (h.goesOn _ List.mem_cons_self) (by decide)
      simpa [closesBlock] using hlexeme
  have hblock : Stylesheet.smaller (prelude ++ .delimiter '{' :: after) =
      shownPrelude prelude ++ .delimiter '{' :: Stylesheet.smaller after := by
    have hvalue : isValueAfter (.delimiter '{' :: (prelude.reverse ++ [])) = isValueAfter [] :=
      isValueAfter_boundary rfl _
    rw [Stylesheet.smaller, shortenValues_append, hshown, shortenValues, shortenValues_congr hvalue,
      dropEndSemicolons_append rfl, hkept, dropEndSemicolons, if_neg (by simp)]
    · rfl
    · simp
  rw [h.lexemes_eq, smaller_append h.starts hcloses, hblock]

/-- **What becomes of preludes.** A stylesheet that the checker accepts has one cutting, and so has
the smaller one. The prelude of each block is written up to its first colon as it is, and from there
on with the short form of each word; so it stays as it is exactly if each word from the first colon
on is its own short form. -/
theorem minify_preludes {source : List Char} (h : check source = .ok ()) :
    ∃ parts small, (∀ cut, Cuts source cut ↔ cut = parts) ∧
      (∀ cut, Cuts (minify source) cut ↔ cut = small) ∧
      ∀ before prelude after, IsPrelude before prelude after (lexemesOf parts) →
        IsPrelude (smaller before) (shownPrelude prelude) (smaller after) (lexemesOf small) ∧
        (shownPrelude prelude = prelude ↔
          ∀ chars, .word chars ∈ prelude.dropWhile (· != .delimiter ':') →
            shortenValue chars = chars) := by
  obtain ⟨parts, hcuts, -⟩ := check_eq_ok_iff.1 h
  refine ⟨parts, smallParts parts, ?_, ?_, fun before prelude after hprelude =>
    ⟨?_, shownPrelude_eq_self_iff⟩⟩
  · exact fun cut => ⟨fun hcut => hcut.unique hcuts, fun heq => heq ▸ hcuts⟩
  · exact fun cut => ⟨fun hcut => hcut.unique hcuts.minify, fun heq => heq ▸ hcuts.minify⟩
  · rw [lexemesOf_smallParts]
    exact hprelude.smaller

/-- A block in a block; the prelude of the inner one has a word before its colon and one behind it
that have short forms. -/
def nestedRule : List Char :=
  "i\x7b0px:q 0px\x7b\x7d\x7d".toList

/-- Only the word behind the colon is shortened, although both are zero lengths. -/
theorem minify_preludes_nestedRule :
    check nestedRule = .ok () ∧
      ∃ parts small, Cuts nestedRule parts ∧ Cuts (minify nestedRule) small ∧
        IsPrelude [.word ['i'], .delimiter '{']
          [.word ['0', 'p', 'x'], .delimiter ':', .word ['q'], .word ['0', 'p', 'x']]
          [.delimiter '}', .delimiter '}'] (lexemesOf parts) ∧
        IsPrelude [.word ['i'], .delimiter '{']
          [.word ['0', 'p', 'x'], .delimiter ':', .word ['q'], .word ['0']]
          [.delimiter '}', .delimiter '}'] (lexemesOf small) := by
  have hcheck : check nestedRule = .ok () := by with_unfolding_all rfl
  obtain ⟨parts, small, hparts, hsmall, hpreludes⟩ := minify_preludes hcheck
  have hcuts : Cuts nestedRule
      [.item (.word ['i']), .item (.delimiter '{'), .item (.word ['0', 'p', 'x']),
        .item (.delimiter ':'), .item (.word ['q']), .blank ' ', .item (.word ['0', 'p', 'x']),
        .item (.delimiter '{'), .item (.delimiter '}'), .item (.delimiter '}')] :=
    ⟨rfl, ⟨List.cons_ne_nil _ _, rfl, rfl⟩, rfl, ⟨List.cons_ne_nil _ _, rfl, rfl, rfl, rfl⟩, rfl,
      ⟨List.cons_ne_nil _ _, rfl, rfl⟩, rfl, ⟨List.cons_ne_nil _ _, rfl, rfl, rfl, rfl⟩, rfl, rfl,
      rfl, trivial⟩
  have hprelude : IsPrelude [.word ['i'], .delimiter '{']
      [.word ['0', 'p', 'x'], .delimiter ':', .word ['q'], .word ['0', 'p', 'x']]
        [.delimiter '}', .delimiter '}']
      (lexemesOf parts) := by
    rw [← (hparts _).1 hcuts]
    exact ⟨rfl, by decide, by decide⟩
  refine ⟨hcheck, parts, small, (hparts parts).2 rfl, (hsmall small).2 rfl, hprelude, ?_⟩
  exact (hpreludes _ _ _ hprelude).1

/-- The words of a selector are not all kept: behind the colon of a pseudo-class, an identifier that
could be a colour takes the short form of that colour. -/
theorem minify_changes_selector :
    ¬ ∀ source, check source = .ok () → ∀ parts small, Cuts source parts →
      Cuts (minify source) small →
      ∀ before prelude after, IsPrelude before prelude after (lexemesOf parts) →
        (∀ chars, prelude.head? = some (.word chars) → chars.head? ≠ some '@') →
        ∀ chars, .word chars ∈ prelude → .word chars ∈ lexemesOf small := by
  have hcheck : check "a:hover #aabbcc{}".toList = .ok () := by with_unfolding_all rfl
  have hcuts : Cuts "a:hover #aabbcc{}".toList
      [.item (.word ['a']), .item (.delimiter ':'), .item (.word "hover".toList), .blank ' ',
        .item (.word "#aabbcc".toList), .item (.delimiter '{'), .item (.delimiter '}')] :=
    ⟨rfl, ⟨List.cons_ne_nil _ _, rfl, rfl⟩, rfl,
      ⟨List.cons_ne_nil _ _, rfl, rfl, rfl, rfl, rfl, rfl⟩, rfl,
      ⟨List.cons_ne_nil _ _, rfl, rfl, rfl, rfl, rfl, rfl, rfl, rfl⟩, rfl, rfl, trivial⟩
  -- The prelude is that of the only rule, and it has both a pseudo-class and an identifier.
  have hprelude : IsPrelude []
      [.word ['a'], .delimiter ':', .word "hover".toList, .word "#aabbcc".toList] [.delimiter '}']
      [.word ['a'], .delimiter ':', .word "hover".toList, .word "#aabbcc".toList, .delimiter '{',
        .delimiter '}'] :=
    ⟨rfl, by decide, by decide⟩
  have hselector : ∀ chars, some (Lexeme.word ['a']) = some (.word chars) →
      chars.head? ≠ some '@' := by
    rintro _ ⟨⟩
    decide
  intro hkeeps
  -- By the cutting of the output, the identifier would have to be one of its items.
  have hkept := hkeeps _ hcheck _ _ hcuts hcuts.minify _ _ _ hprelude hselector "#aabbcc".toList
    (by decide)
  rw [lexemesOf_smallParts] at hkept
  exact absurd hkept (by decide)

end Triptych.Stylesheet
