import Triptych.Proofs.Stylesheet.Parts
import Triptych.Proofs.Text.Indentation
import Triptych.Stylesheet.Minify

/-!
# What making a stylesheet smaller keeps

The lexical items of a stylesheet that the checker accepts are those of the smaller one, string for
string, delimiter for delimiter and word for word, but for the last semicolon of a block and the
short forms of values (`minify_keeps_lexemes`).

The writer puts characters behind what it has written, looks at the last of them, and takes a
semicolon back when a block ends. The argument first takes this apart: what is written is a *layout*
of items that were chosen beforehand (`laysOut`), each as the writer shows it, with one space at
most before it. The rest is about layouts. A layout is cut where its items meet (`wellCut_layout`),
since two words of it never touch (`WordsApart`), so whoever reads the smaller stylesheet finds the
same items, and no comment between them.
-/

namespace Triptych.Stylesheet

open Text Code

/-! ### What is to be kept -/

/-- True when a word after the lexical items `before`, the last one first, belongs to a value: there
is a colon, and no bracket of a block and no semicolon after it. -/
def isValueAfter (before : List Lexeme) : Bool :=
  before.find? (fun lexeme => [':', '{', '}', ';'].any (lexeme == .delimiter ·)) ==
    some (.delimiter ':')

/-- The lexical items with their values in short form, where `before` stands before them, the last
one first. -/
def shortenValues (before : List Lexeme) : List Lexeme → List Lexeme
  | [] => []
  | .word chars :: lexemes =>
    .word (if isValueAfter before then shortenValue chars else chars) :: shortenValues
      (.word chars :: before) lexemes
  | lexeme :: lexemes => lexeme :: shortenValues (lexeme :: before) lexemes

/-- True when the first of the lexical items ends a block. -/
def closesBlock (lexemes : List Lexeme) : Bool :=
  lexemes.head? == some (.delimiter '}')

/-- The lexical items without a semicolon right before the end of a block. -/
def dropEndSemicolons : List Lexeme → List Lexeme
  | [] => []
  | lexeme :: lexemes =>
    if lexeme = .delimiter ';' ∧ closesBlock lexemes = true then dropEndSemicolons lexemes
    else lexeme :: dropEndSemicolons lexemes

/-- True of a string. -/
def Lexeme.isString : Lexeme → Bool
  | .string _ => true
  | _ => false

/-- Strings are not shortened, and none of them is dropped. -/
theorem filter_shortenValues (before lexemes : List Lexeme) :
    (shortenValues before lexemes).filter Lexeme.isString = lexemes.filter Lexeme.isString := by
  induction lexemes generalizing before with
  | nil => rfl
  | cons lexeme lexemes ih =>
    cases lexeme with
    | string chars => exact congrArg (_ :: ·) (ih _)
    | delimiter c => exact ih _
    | word chars => exact ih _

theorem filter_dropEndSemicolons (lexemes : List Lexeme) :
    (dropEndSemicolons lexemes).filter Lexeme.isString = lexemes.filter Lexeme.isString := by
  induction lexemes with
  | nil => rfl
  | cons lexeme lexemes ih =>
    rw [dropEndSemicolons]
    split
    next hdrop =>
      rw [hdrop.1]
      exact ih
    next => rw [List.filter_cons, List.filter_cons, ih]

/-- A brace is no value, so it closes a block before and after. -/
theorem closesBlock_shortenValues (before lexemes : List Lexeme) :
    closesBlock (shortenValues before lexemes) = closesBlock lexemes := by
  match lexemes with
  | [] | .string _ :: _ | .delimiter _ :: _ | .word _ :: _ => rfl

theorem isValueAfter_string (chars : List Char) (before : List Lexeme) :
    isValueAfter (.string chars :: before) = isValueAfter before := rfl

theorem isValueAfter_word (chars : List Char) (before : List Lexeme) :
    isValueAfter (.word chars :: before) = isValueAfter before := rfl

/-- A delimiter decides whether what follows is a value as the writer does. -/
theorem isValueAfter_delimiter (c : Char) (before : List Lexeme) :
    isValueAfter (.delimiter c :: before) = inValueAfter c (isValueAfter before) := by
  unfold inValueAfter
  by_cases hcolon : c = ':'
  · rw [if_pos hcolon, hcolon]
    rfl
  rw [if_neg hcolon]
  by_cases hends : c = '{' ∨ c = '}' ∨ c = ';'
  · rw [if_pos (by simpa [or_assoc] using hends)]
    rcases hends with rfl | rfl | rfl <;> rfl
  · rw [if_neg (by simpa [or_assoc] using hends), isValueAfter, isValueAfter,
      List.find?_cons_of_neg]
    rw [not_or, not_or] at hends
    simp [hcolon, hends.1, hends.2.1, hends.2.2]

/-! ### Short forms -/

/-- The characters of short forms that are not taken over from the word. -/
def shortChars : List Char :=
  '#' :: "0123456789abcdef".toList

/-- The hexadecimal digits, in either case. -/
def hexDigits : List Char :=
  "0123456789abcdefABCDEF".toList

/-- There are few enough hexadecimal digits to try them all. -/
theorem mem_hexDigits {c : Char} (h : isHexDigit c = true) : c ∈ hexDigits := by
  have hascii : c.toNat < 128 := by
    have hle {d : Char} (hd : c ≤ d) : c.toNat ≤ d.toNat := hd
    simp only [isHexDigit, isAsciiDigit, Bool.or_eq_true, Bool.and_eq_true, decide_eq_true_eq] at h
    rcases h with (⟨-, hc⟩ | ⟨-, hc⟩) | ⟨-, hc⟩
    · exact Nat.lt_of_le_of_lt (hle hc) (by decide)
    · exact Nat.lt_of_le_of_lt (hle hc) (by decide)
    · exact Nat.lt_of_le_of_lt (hle hc) (by decide)
  have hall : ∀ n < 128, isHexDigit (Char.ofNat n) = true → Char.ofNat n ∈ hexDigits := by
    decide +kernel
  have hc := hall c.toNat hascii
  rw [Char.ofNat_toNat] at hc
  exact hc h

/-- A hexadecimal digit is no bracket, and in lower case it may stand in a short value. -/
theorem toLower_mem_of_isHexDigit {c : Char} (h : isHexDigit c = true) :
    isBracket c = false ∧ c.toLower ∈ shortChars := by
  have hall : hexDigits.all (fun c => !isBracket c && shortChars.contains c.toLower) = true := by
    decide
  simpa using List.all_eq_true.1 hall c (mem_hexDigits h)

/-- An ending is dropped where it stands. -/
theorem dropSuffix?_eq_some {ending text number : List Char}
    (h : dropSuffix? ending text = some number) :
    text = number ++ ending := by
  unfold dropSuffix? at h
  split at h
  next hsuffix =>
    obtain ⟨start, rfl⟩ := List.isSuffixOf_iff_suffix.1 hsuffix
    obtain rfl : start = number := by simpa using h
    rfl
  next => contradiction

/-- The words that are shortened hold no brackets, and nothing comes in but letters, digits and the
like: zero lengths, numbers with leading zeros, and colours. -/
theorem isBracket_of_isZeroLength {word : List Char} (h : isZeroLength word = true) :
    ∀ c ∈ word, isBracket c = false := by
  obtain ⟨ending, hending, hzero⟩ := List.any_eq_true.1 h
  cases hnumber : dropSuffix? ending word with
  | none =>
    rw [hnumber] at hzero
    contradiction
  | some number =>
    rw [hnumber, Option.any_some, isZero, Bool.and_eq_true, List.all_eq_true] at hzero
    have hunits : zeroUnits.all (·.all (!isBracket ·)) = true := by decide
    simp only [List.all_eq_true, Bool.not_eq_true'] at hunits
    intro c hc
    rw [dropSuffix?_eq_some hnumber, List.mem_append] at hc
    rcases hc with hc | hc
    · have hdigit := hzero.1 c hc
      rw [Bool.or_eq_true, beq_iff_eq, beq_iff_eq] at hdigit
      rcases hdigit with rfl | rfl <;> rfl
    · exact hunits ending hending c hc

/-- What has a short form as a colour, and which. -/
theorem exists_of_shortColour? {word short : List Char} (h : shortColour? word = some short) :
    ∃ r₁ r₂ g₁ g₂ b₁ b₂, word = ['#', r₁, r₂, g₁, g₂, b₁, b₂] ∧
      (∀ c ∈ [r₁, r₂, g₁, g₂, b₁, b₂], isHexDigit c = true) ∧
      (r₁.toLower = r₂.toLower ∧ g₁.toLower = g₂.toLower ∧ b₁.toLower = b₂.toLower) ∧
      short = ['#', r₁.toLower, g₁.toLower, b₁.toLower] := by
  unfold shortColour? at h
  split at h
  next r₁ r₂ g₁ g₂ b₁ b₂ =>
    split at h
    next hdigits =>
      simp only [Bool.and_eq_true, List.all_eq_true, beq_iff_eq, and_assoc] at hdigits
      exact ⟨r₁, r₂, g₁, g₂, b₁, b₂, rfl, hdigits.1, hdigits.2, (Option.some.inj h).symm⟩
    next => contradiction
  next => contradiction

/-- A colour is a hash and digits, before and after. -/
theorem shortColour?_eq_some {word short : List Char} (h : shortColour? word = some short) :
    (∀ c ∈ word, isBracket c = false) ∧ short ≠ [] ∧ ∀ c ∈ short, c ∈ shortChars := by
  obtain ⟨r₁, r₂, g₁, g₂, b₁, b₂, rfl, hdigits, -, rfl⟩ := exists_of_shortColour? h
  have hhex : ∀ c ∈ [r₁, r₂, g₁, g₂, b₁, b₂], isBracket c = false ∧ c.toLower ∈ shortChars :=
    fun c hc => toLower_mem_of_isHexDigit (hdigits c hc)
  refine ⟨?_, List.cons_ne_nil _ _, ?_⟩
  · rintro c (_ | ⟨_, hc⟩)
    · rfl
    · exact (hhex c hc).1
  · simp only [List.forall_mem_cons] at hhex ⊢
    exact ⟨by decide, hhex.1.2, hhex.2.2.1.2, hhex.2.2.2.2.1.2, by simp⟩

/-- How a word gets its short form: as a zero with a unit, as a colour, by the zero before its
point, or not at all. -/
theorem shortenValue_forms (word : List Char) :
    (isZeroLength word = true ∧ shortenValue word = ['0']) ∨
    shortColour? word = some (shortenValue word) ∨
    (∃ sign rest, (sign = [] ∨ sign = ['-']) ∧ word = sign ++ '0' :: '.' :: rest ∧
      shortenValue word = sign ++ '.' :: rest) ∨
    shortenValue word = word := by
  unfold shortenValue
  split
  next hzero => exact .inl ⟨hzero, rfl⟩
  next =>
    refine .inr ?_
    cases hcolour : shortColour? word with
    | some short => exact .inl rfl
    | none =>
      refine .inr ?_
      dsimp only
      unfold dropLeadingZero
      split
      next rest _ => exact .inl ⟨[], rest, .inl rfl, rfl, rfl⟩
      next rest _ => exact .inl ⟨['-'], rest, .inr rfl, rfl, rfl⟩
      next => exact .inr rfl

/-- What the short form of a word can be: made of the characters of numbers and colours, the word
without a zero before a point, or the word. -/
theorem shortenValue_cases (word : List Char) :
    ((∀ c ∈ word, isBracket c = false) ∧ shortenValue word ≠ [] ∧ ∀ c ∈ shortenValue word,
      c ∈ shortChars) ∨
    (∃ sign rest, (sign = [] ∨ sign = ['-']) ∧ word = sign ++ '0' :: '.' :: rest ∧
      shortenValue word = sign ++ '.' :: rest) ∨
    shortenValue word = word := by
  rcases shortenValue_forms word with ⟨hzero, hshort⟩ | hcolour | hform
  · refine .inl ⟨isBracket_of_isZeroLength hzero, ?_⟩
    rw [hshort]
    exact ⟨List.cons_ne_nil _ _, List.forall_mem_singleton.2 (by decide)⟩
  · exact .inl (shortColour?_eq_some hcolour)
  · exact .inr hform

/-- **Shortening keeps the brackets of a word.** -/
theorem filter_shortenValue (word : List Char) :
    (shortenValue word).filter isBracket = word.filter isBracket := by
  obtain ⟨hword, -, hshort⟩ | ⟨sign, rest, -, hword, hshort⟩ | hsame := shortenValue_cases word
  · have hall : shortChars.all (!isBracket ·) = true := by decide
    have hplain : ∀ c ∈ shortChars, isBracket c = false := by
      simpa only [List.all_eq_true, Bool.not_eq_true'] using hall
    rw [List.filter_eq_nil_iff.2 fun c hc => by simp [hplain c (hshort c hc)],
      List.filter_eq_nil_iff.2 fun c hc => by simp [hword c hc]]
  · rw [hshort, hword, List.filter_append, List.filter_append]
    rfl
  · rw [hsame]

/-- A word is one that can end, before a text that no word goes on into. -/
theorem wordBefore_iff {text chars : List Char} :
    WordBefore text chars ↔ WordBefore [] chars ∧ StopsWord text := by
  induction chars with
  | nil => exact ⟨fun h => ⟨trivial, h⟩, And.right⟩
  | cons c chars ih =>
    rw [WordBefore, WordBefore, ih, List.append_nil, endsWord_eq_false_iff, endsWord_eq_false_iff]
    constructor
    · rintro ⟨⟨hblank, hquote, hdelimiter, hcomment⟩, hchars, hstops⟩
      refine ⟨⟨⟨hblank, hquote, hdelimiter, fun hslash hstar => ?_⟩, hchars⟩, hstops⟩
      exact hcomment hslash (by rw [List.head?_append, hstar]; rfl)
    · rintro ⟨⟨⟨hblank, hquote, hdelimiter, hcomment⟩, hchars⟩, hstops⟩
      refine ⟨⟨hblank, hquote, hdelimiter, fun hslash => ?_⟩, hchars, hstops⟩
      cases chars with
      | cons d chars => exact hcomment hslash
      | nil =>
        -- A star would go on with the word.
        rintro (hstar : text.head? = some '*')
        obtain ⟨tail, rfl⟩ := List.head?_eq_some_iff.1 hstar
        exact absurd hstops (by simp [StopsWord, endsWord, isBlank, isDelimiter, delimiters])

/-- What a short value is made of can stand in a word. -/
theorem wordBefore_of_mem_shortChars {chars : List Char} (h : ∀ c ∈ chars, c ∈ shortChars) :
    WordBefore [] chars := by
  have hall : shortChars.all (fun c => !isBlank c && !isQuote c && !isDelimiter c && c != '/') =
    true := by decide
  have hplain : ∀ c ∈ shortChars, isBlank c = false ∧ isQuote c = false ∧ isDelimiter c = false ∧
      c ≠ '/' := by
    intro c hc
    simpa [and_assoc] using List.all_eq_true.1 hall c hc
  induction chars with
  | nil => trivial
  | cons c chars ih =>
    obtain ⟨hc, hchars⟩ := List.forall_mem_cons.1 h
    obtain ⟨hblank, hquote, hdelimiter, hslash⟩ := hplain c hc
    exact ⟨endsWord_eq_false_iff.2 ⟨hblank, hquote, hdelimiter, fun hc => absurd hc hslash⟩,
      ih hchars⟩

/-- **The short form of a word is a word.** -/
theorem fits_shortenValue {chars : List Char} (h : (Lexeme.word chars).Fits []) :
    (Lexeme.word (shortenValue chars)).Fits [] := by
  obtain ⟨hne, hword⟩ := h
  obtain ⟨-, hne', hshort⟩ | ⟨sign, rest, hsign, rfl, hshort⟩ | hsame := shortenValue_cases chars
  · exact ⟨hne', wordBefore_of_mem_shortChars hshort⟩
  · rw [hshort]
    rcases hsign with rfl | rfl
    · exact ⟨List.cons_ne_nil _ _, hword.2⟩
    · exact ⟨List.cons_ne_nil _ _, rfl, hword.2.2⟩
  · rw [hsame]
    exact ⟨hne, hword⟩

/-- A word is a word as it is shown, as a value or not. -/
theorem fits_shown_word {chars : List Char} (h : (Lexeme.word chars).Fits []) (inValue : Bool) :
    (Lexeme.word (if inValue then shortenValue chars else chars)).Fits [] := by
  split
  next => exact fits_shortenValue h
  next => exact h

theorem filter_codeOf_cons (lexeme : Lexeme) (lexemes : List Lexeme) :
    (codeOf (lexeme :: lexemes)).filter isBracket =
      lexeme.code.filter isBracket ++ (codeOf lexemes).filter isBracket := by
  rw [codeOf, List.flatMap_cons, List.filter_append]
  rfl

/-- **Minification keeps the brackets of the code**, and so their nesting: first where it shortens
values, and then where it drops semicolons. -/
theorem filter_codeOf_shortenValues (before lexemes : List Lexeme) :
    (codeOf (shortenValues before lexemes)).filter isBracket =
      (codeOf lexemes).filter isBracket := by
  induction lexemes generalizing before with
  | nil => rfl
  | cons lexeme lexemes ih =>
    -- An item that is kept as it is. Only the words of values are not, and what they become has no
    -- brackets either.
    have hkept : shortenValues before (lexeme :: lexemes) =
      lexeme :: shortenValues (lexeme :: before) lexemes →
        (codeOf (shortenValues before (lexeme :: lexemes))).filter isBracket =
          (codeOf (lexeme :: lexemes)).filter isBracket := by
      intro heq
      rw [heq, filter_codeOf_cons, filter_codeOf_cons, ih]
    cases lexeme with
    | string chars | delimiter c => exact hkept rfl
    | word chars =>
      by_cases hvalue : isValueAfter before
      · rw [shortenValues, if_pos hvalue, filter_codeOf_cons, filter_codeOf_cons, ih]
        exact congrArg (· ++ _) (filter_shortenValue chars)
      · exact hkept (by rw [shortenValues, if_neg hvalue])

theorem filter_codeOf_dropEndSemicolons (lexemes : List Lexeme) :
    (codeOf (dropEndSemicolons lexemes)).filter isBracket = (codeOf lexemes).filter isBracket := by
  induction lexemes with
  | nil => rfl
  | cons lexeme lexemes ih =>
    rw [dropEndSemicolons]
    split
    next hsemicolon =>
      rw [ih, hsemicolon.1]
      rfl
    next => rw [filter_codeOf_cons, filter_codeOf_cons, ih]

/-- **Neither short forms nor dropped semicolons touch a bracket.** -/
theorem nested_codeOf_shortenValues (before lexemes : List Lexeme) :
    nested [] (codeOf (dropEndSemicolons (shortenValues before lexemes))) =
      nested [] (codeOf lexemes) := by
  rw [← nested_filter, filter_codeOf_dropEndSemicolons, filter_codeOf_shortenValues, nested_filter]

/-! ### The items that are written -/

/-- The lexical item of an item. -/
def Item.lexeme : Item → Lexeme
  | .string _ chars => .string chars
  | .delimiter _ c => .delimiter c
  | .word _ chars => .word chars

/-- True when the writer is asked for a space before the item. -/
def Item.wantsSpace : Item → Bool
  | .string spaced _ | .word spaced _ => spaced
  | .delimiter spaced c => spaced && !tightBefore.contains c

/-- The items as they are written, given whether words are values: values in short form, and no
semicolon right before the end of a block. -/
def shownItems (inValue : Bool) : List Item → List Item
  | [] => []
  | .string spaced chars :: items => .string spaced chars :: shownItems inValue items
  | .word spaced chars :: items =>
    .word spaced (if inValue then shortenValue chars else chars) :: shownItems inValue items
  | .delimiter spaced c :: items =>
    if c = ';' ∧ closesBlock (items.map Item.lexeme) = true then shownItems false items
    else .delimiter spaced c :: shownItems (inValueAfter c inValue) items

/-- The space before an item, where `last` is the character before it. -/
def gap (last : Option Char) (wanted : Bool) : List Part :=
  if wanted && last.any (!looseAfter.contains ·) then [.blank ' '] else []

/-- The items one after the other, with a space where one is wanted and may stand. -/
def layout (last : Option Char) : List Item → List Part
  | [] => []
  | item :: items => gap last item.wantsSpace ++
      .item item.lexeme :: layout item.lexeme.chars.getLast? items

/-- What is written are the items, in order. -/
theorem lexemesOf_layout (last : Option Char) (items : List Item) :
    lexemesOf (layout last items) = items.map Item.lexeme := by
  induction items generalizing last with
  | nil => rfl
  | cons item items ih =>
    unfold layout gap
    split <;> exact congrArg (_ :: ·) (ih _)

/-- No comment is written. -/
theorem comment_notMem_layout (last : Option Char) (items : List Item) (body : List Char) :
    .comment body ∉ layout last items := by
  induction items generalizing last with
  | nil => exact List.not_mem_nil
  | cons item items ih =>
    unfold layout gap
    split <;> simp [ih]

/-- The items that are written are those that are to be kept. -/
theorem map_lexeme_shownItems (before : List Lexeme) (items : List Item) :
    (shownItems (isValueAfter before) items).map Item.lexeme =
      dropEndSemicolons (shortenValues before (items.map Item.lexeme)) := by
  induction items generalizing before with
  | nil => rfl
  | cons item items ih =>
    cases item with
    | string spaced chars =>
      rw [shownItems, List.map_cons, ← isValueAfter_string chars before, ih]
      rfl
    | word spaced chars =>
      rw [shownItems, List.map_cons, ← isValueAfter_word chars before, ih]
      rfl
    | delimiter spaced c =>
      show (shownItems _ (.delimiter spaced c :: items)).map Item.lexeme =
        dropEndSemicolons (.delimiter c :: shortenValues (.delimiter c :: before)
          (items.map Item.lexeme))
      -- Only a semicolon before the end of a block can go, and shortening values does not move that
      -- end.
      rw [shownItems, dropEndSemicolons, ← ih, isValueAfter_delimiter, closesBlock_shortenValues]
      by_cases hdrop : c = ';' ∧ closesBlock (items.map Item.lexeme) = true
      · rw [if_pos hdrop, if_pos ⟨congrArg _ hdrop.1, hdrop.2⟩, hdrop.1]
        rfl
      · rw [if_neg hdrop, if_neg fun h => hdrop ⟨Lexeme.delimiter.inj h.1, h.2⟩]
        rfl

/-! ### The writer -/

/-- A word holds no blanks and no delimiters. -/
theorem of_mem_word {text chars : List Char} (h : WordBefore text chars) {c : Char}
    (hc : c ∈ chars) :
    isBlank c = false ∧ isDelimiter c = false := by
  induction chars with
  | nil => exact absurd hc List.not_mem_nil
  | cons d chars ih =>
    rcases List.mem_cons.1 hc with rfl | hc
    · obtain ⟨hblank, -, hdelimiter, -⟩ := endsWord_eq_false_iff.1 h.1
      exact ⟨hblank, hdelimiter⟩
    · exact ih h.2 hc

/-- A lexical item ends in a visible character, which is a delimiter only if it is the item
itself. -/
theorem getLast?_of_fits {text : List Char} {lexeme : Lexeme} (h : lexeme.Fits text) :
    ∃ last, lexeme.chars.getLast? = some last ∧ isBlank last = false ∧
      (isDelimiter last = true → lexeme = .delimiter last) := by
  match lexeme with
  | .string chars =>
    obtain ⟨mark, body, rfl, hmark, -⟩ := h
    refine ⟨mark, ?_, not_isBlank_of_isQuote hmark, fun hdelimiter => ?_⟩
    · rw [Lexeme.chars, ← List.cons_append, List.getLast?_concat]
    · rw [(isDelimiter_cases hdelimiter).2.1] at hmark
      contradiction
  | .delimiter c => exact ⟨c, rfl, (isDelimiter_cases h).1, fun _ => rfl⟩
  | .word chars =>
    obtain ⟨last, hlast⟩ := Option.ne_none_iff_exists'.1 (mt List.getLast?_eq_none_iff.1 h.1)
    obtain ⟨hblank, hdelimiter⟩ := of_mem_word h.2 (List.mem_of_getLast? hlast)
    exact ⟨last, hlast, hblank, fun hyes => absurd hyes (by rw [hdelimiter]; decide)⟩

/-- What has been written, less the semicolon that the end of a block takes back. -/
def keptBefore (written : List Char) (items : List Item) : List Char :=
  if closesBlock (items.map Item.lexeme) then dropSemicolon '}' written else written

/-- Where no semicolon was written last, none is taken back. -/
theorem dropSemicolon_of_head?_ne {written : List Char} (h : written.head? ≠ some ';') (c : Char) :
    dropSemicolon c written = written := by
  unfold dropSemicolon
  split
  next => exact absurd rfl h
  next => rfl

theorem keptBefore_of_head?_ne {written : List Char} (h : written.head? ≠ some ';')
    (items : List Item) :
    keptBefore written items = written := by
  rw [keptBefore, dropSemicolon_of_head?_ne h, ite_self]

/-- The space is written as a part of its own, or not at all. -/
theorem separate_eq (wanted : Bool) (written : List Char) :
    separate wanted written = (textOf (gap written.head? wanted)).reverse ++ written := by
  have hadmits : admitsSpace written = written.head?.any (!looseAfter.contains ·) := by
    cases written <;> rfl
  rw [separate, gap, hadmits]
  split <;> rfl

/-- Behind whatever has been written, the writer lays out the items it shows. It may have written a
semicolon that it takes back now, so the layout stands behind what it keeps. -/
def LaysOut (inValue : Bool) (items : List Item) : Prop :=
  ∀ written, write inValue written items =
    (textOf (layout (keptBefore written items).head? (shownItems inValue items))).reverse ++
      keptBefore written items

/-- One item that is shown, and that is not a semicolon which will be taken back. -/
theorem LaysOut.write_item {item : Item} {items : List Item} {inValue : Bool}
    (h : LaysOut inValue items) (hfits : item.lexeme.Fits [])
    (hends : item.lexeme = .delimiter ';' → closesBlock (items.map Item.lexeme) = false)
    (written : List Char) :
    write inValue (item.lexeme.chars.reverse ++ separate item.wantsSpace written) items =
      (textOf (layout written.head? (item :: shownItems inValue items))).reverse ++ written := by
  obtain ⟨last, hlast, -, hdelimiter⟩ := getLast?_of_fits hfits
  have hhead : (item.lexeme.chars.reverse ++ separate item.wantsSpace written).head? =
      some last := by
    rw [List.head?_append, List.head?_reverse, hlast]
    rfl
  -- The writer takes back a semicolon only, and this one is to stay.
  have hkept : keptBefore (item.lexeme.chars.reverse ++ separate item.wantsSpace written) items =
      item.lexeme.chars.reverse ++ separate item.wantsSpace written := by
    by_cases hsemicolon : last = ';'
    · subst hsemicolon
      rw [keptBefore, hends (hdelimiter rfl)]
      rfl
    · exact keptBefore_of_head?_ne (by simpa [hhead] using hsemicolon) items
  rw [h, hkept, hhead, separate_eq, layout, hlast]
  simp only [textOf_append, textOf_cons, List.reverse_append, List.append_assoc]
  rfl

/-- **What the writer writes.** -/
theorem laysOut {items : List Item} (hfits : ∀ item ∈ items, item.lexeme.Fits []) (inValue : Bool) :
    LaysOut inValue items := by
  -- Whatever has been written is left open, since the next item sees it with this one behind it.
  induction items generalizing inValue with
  | nil => exact fun written => rfl
  | cons item items ih =>
    obtain ⟨hitem, hitems⟩ := List.forall_mem_cons.1 hfits
    have hrest := ih hitems
    intro written
    match item with
    | .string spaced chars => exact (hrest inValue).write_item hitem nofun written
    | .word spaced chars =>
      have hshown := fits_shown_word hitem inValue
      exact @LaysOut.write_item (.word spaced _) _ _ (hrest inValue) hshown nofun written
    | .delimiter spaced c =>
      have hkept : dropSemicolon c written = keptBefore written (.delimiter spaced c :: items) := by
        unfold keptBefore
        split
        next hcloses =>
          obtain rfl : c = '}' := by simpa [closesBlock, Item.lexeme] using hcloses
          rfl
        next hcloses =>
          unfold dropSemicolon
          split
          next => exact absurd rfl hcloses
          next => rfl
      rw [write, shownItems, hkept]
      by_cases hdrop : c = ';' ∧ closesBlock (items.map Item.lexeme) = true
      · -- The semicolon is written, and the block that ends right after it takes it back.
        obtain ⟨rfl, hcloses⟩ := hdrop
        have hself : keptBefore written (.delimiter spaced ';' :: items) = written := rfl
        have htight (wanted : Bool) : (wanted && !tightBefore.contains ';') = false := by
          cases wanted <;> rfl
        have hback : keptBefore (';' :: written) items = written := by
          rw [keptBefore, if_pos hcloses]
          rfl
        have hwrite := hrest false (';' :: written)
        rw [hback] at hwrite
        rw [if_pos ⟨rfl, hcloses⟩, hself, htight]
        exact hwrite
      · rw [if_neg hdrop]
        refine @LaysOut.write_item (.delimiter spaced c) _ _ (hrest _) hitem (fun heq => ?_) _
        obtain rfl := Lexeme.delimiter.inj heq
        simpa using hdrop

/-! ### Reading a layout -/

/-- A space stands before each word that comes after a word; `afterWord` tells whether one comes
before the items. -/
def WordsApart (afterWord : Bool) : List Item → Prop
  | [] => True
  | .word spaced _ :: items => (afterWord = true → spaced = true) ∧ WordsApart true items
  | _ :: items => WordsApart false items

/-- **Two words of a cutting are apart**, since a word goes on as long as it can. -/
theorem wordsApart_itemsOf {parts : List Part} (h : WellCut parts) {afterWord spaced : Bool}
    (hword : afterWord = true → spaced = true ∨ StopsWord (textOf parts)) :
    WordsApart afterWord (itemsOf spaced parts) := by
  induction parts generalizing afterWord spaced with
  | nil => trivial
  | cons part parts ih =>
    obtain ⟨hfits, hcut⟩ := h
    match part with
    | .blank c => exact ih hcut fun _ => .inl rfl
    | .comment body => exact ih hcut fun _ => .inl rfl
    | .item (.string chars) => exact ih hcut nofun
    | .item (.delimiter c) => exact ih hcut nofun
    | .item (.word []) => exact absurd rfl hfits.1
    | .item (.word (c :: chars)) =>
      -- If nothing stood between the two words, the first one would have gone on.
      refine ⟨fun hafter => ?_, ih hcut fun _ => .inr (wordBefore_iff.1 hfits.2).2⟩
      rcases hword hafter with hspaced | hstops
      · exact hspaced
      · have hgoes : endsWord c (chars ++ textOf parts) = false := hfits.2.1
        have hends : endsWord c (chars ++ textOf parts) = true := hstops
        rw [hgoes] at hends
        contradiction

/-- Words that are apart stay so when values are shortened and semicolons dropped. -/
theorem WordsApart.shownItems {items : List Item} {afterWord : Bool}
    (h : WordsApart afterWord items) (inValue : Bool) :
    WordsApart afterWord (shownItems inValue items) := by
  induction items generalizing afterWord inValue with
  | nil => trivial
  | cons item items ih =>
    match item with
    | .string spaced chars => exact ih h inValue
    | .word spaced chars => exact ⟨h.1, ih h.2 inValue⟩
    | .delimiter spaced c =>
      rw [Stylesheet.shownItems]
      split
      next hdrop =>
        -- What stands there now is the end of a block, which is no word either.
        match items, hdrop.2 with
        | .delimiter _ d :: _, _ => exact @ih afterWord h false
      next => exact ih h _

/-- A quote or a delimiter ends a word. -/
theorem stopsWord_cons {c : Char} (h : isQuote c = true ∨ isDelimiter c = true) (text : List Char) :
    StopsWord (c :: text) := by
  cases hends : endsWord c text with
  | true => exact hends
  | false =>
    obtain ⟨-, hquote, hdelimiter, -⟩ := endsWord_eq_false_iff.1 hends
    rw [hquote, hdelimiter] at h
    simp at h

/-- A space may stand after a word. -/
theorem not_loose_of_word {chars : List Char} (h : (Lexeme.word chars).Fits []) :
    chars.getLast?.any (!looseAfter.contains ·) = true := by
  obtain ⟨last, hlast, -, hdelimiter⟩ := getLast?_of_fits h
  have hloose : looseAfter.all isDelimiter = true := by decide
  have hplain : last ∉ looseAfter := fun hmem =>
    nomatch hdelimiter (List.all_eq_true.1 hloose last hmem)
  have hchars : chars.getLast? = some last := hlast
  rw [hchars, Option.any_some, Bool.not_eq_true', List.contains_eq_mem, decide_eq_false_iff_not]
  exact hplain

/-- **A layout is cut where its items meet.** -/
theorem wellCut_layout {items : List Item} (hfits : ∀ item ∈ items, item.lexeme.Fits [])
    {afterWord : Bool} (hapart : WordsApart afterWord items) (last : Option Char) :
    WellCut (layout last items) ∧
      (afterWord = true → last.any (!looseAfter.contains ·) = true →
        StopsWord (textOf (layout last items))) := by
  -- A word before the items is whole only if it does not go on into them; so both halves go through
  -- the items at once.
  induction items generalizing afterWord last with
  | nil => exact ⟨trivial, fun _ _ => trivial⟩
  | cons item items ih =>
    obtain ⟨hitem, hitems⟩ := List.forall_mem_cons.1 hfits
    -- A space before the item is a part of its own, and ends a word.
    have hgap (h : WellCut (.item item.lexeme :: layout item.lexeme.chars.getLast? items)) :
        WellCut (layout last (item :: items)) := by
      rw [layout, gap]
      split
      next => exact ⟨rfl, h⟩
      next => exact h
    have hstops
      (h : StopsWord (textOf (.item item.lexeme :: layout item.lexeme.chars.getLast? items))) :
        StopsWord (textOf (layout last (item :: items))) := by
      rw [layout, gap]
      split
      next => rfl
      next => exact h
    match item with
    | .string spaced chars =>
      refine ⟨hgap ⟨hitem, (ih hitems hapart _).1⟩, fun _ _ => hstops ?_⟩
      obtain ⟨mark, body, rfl, hmark, -⟩ := hitem
      exact stopsWord_cons (.inl hmark) _
    | .delimiter spaced c =>
      exact ⟨hgap ⟨hitem, (ih hitems hapart _).1⟩, fun _ _ =>
        hstops (stopsWord_cons (.inr hitem) _)⟩
    | .word spaced chars =>
      -- The word after this one has a space before it, since the last character of a word admits
      -- one.
      obtain ⟨hcut, hends⟩ := ih hitems hapart.2 chars.getLast?
      have hword : WordBefore (textOf (layout chars.getLast? items)) chars :=
        wordBefore_iff.2 ⟨hitem.2, hends rfl (not_loose_of_word hitem)⟩
      refine ⟨hgap ⟨⟨hitem.1, hword⟩, hcut⟩, fun hafter hlast => ?_⟩
      rw [layout, gap, Item.wantsSpace, hapart.1 hafter, hlast]
      rfl

/-- An item does not start with a blank. -/
theorem stops_of_fits {lexeme : Lexeme} (h : lexeme.Fits []) (text : List Char) :
    Stops isBlank (lexeme.chars ++ text) := by
  have hpart : (Part.item lexeme).Fits [] := h
  obtain ⟨c, rest, hstart, hkind⟩ := hpart.kindAt_eq
  have hchars : lexeme.chars = c :: rest := by rwa [List.append_nil] at hstart
  cases hblank : isBlank c with
  | false =>
    rw [hchars]
    exact stops_cons hblank _
  | true =>
    obtain ⟨-, -, -, -, hslash⟩ := isBlank_cases hblank
    have hkindAt : kindAt c rest = .blank := by simp [kindAt, hslash, hblank]
    rw [hkindAt] at hkind
    cases lexeme <;> contradiction

/-- Nor does what is written end in one. -/
theorem stops_reverse_layout {items : List Item} (hfits : ∀ item ∈ items, item.lexeme.Fits [])
    (last : Option Char) {written : List Char} (hwritten : Stops isBlank written) :
    Stops isBlank ((textOf (layout last items)).reverse ++ written) := by
  induction items generalizing last written with
  | nil => exact hwritten
  | cons item items ih =>
    obtain ⟨hitem, hitems⟩ := List.forall_mem_cons.1 hfits
    obtain ⟨c, hlast, hblank, -⟩ := getLast?_of_fits hitem
    -- The item itself ends in a visible character, whatever stands before it.
    have hbehind (before : List Char) : Stops isBlank (item.lexeme.chars.reverse ++ before) := by
      intro d hd
      rw [List.head?_append, List.head?_reverse, hlast] at hd
      obtain rfl : c = d := by simpa using hd
      exact hblank
    have hrest := ih hitems item.lexeme.chars.getLast?
      (hbehind ((textOf (gap last item.wantsSpace)).reverse ++ written))
    rw [layout, textOf_append, textOf_cons, Part.chars]
    simpa only [List.reverse_append, List.append_assoc] using hrest

/-- A layout neither starts nor ends in a blank. -/
theorem trim_layout {items : List Item} (hfits : ∀ item ∈ items, item.lexeme.Fits []) :
    trim (textOf (layout none items)) = textOf (layout none items) := by
  have hstart : Stops isBlank (textOf (layout none items)) := by
    cases items with
    | nil => exact nofun
    | cons item items =>
      -- Before the first item nothing is written that a space could part it from.
      have hgap : gap none item.wantsSpace = [] := by
        rw [gap, Option.any_none, Bool.and_false]
        rfl
      rw [layout, hgap, List.nil_append, textOf_cons]
      exact stops_of_fits (hfits item List.mem_cons_self) _
  have hend : Stops isBlank (textOf (layout none items)).reverse := by
    have hnil : Stops isBlank [] := nofun
    have hreverse := stops_reverse_layout hfits none hnil
    rwa [List.append_nil] at hreverse
  rw [trim, trimStart, dropWhile_eq_self_of_stops hstart, trimEnd, dropEndWhile,
    dropWhile_eq_self_of_stops hend, List.reverse_reverse]

/-! ### The smaller stylesheet -/

@[simp] theorem Lexeme.lexeme_toItem (spaced : Bool) (lexeme : Lexeme) :
    (lexeme.toItem spaced).lexeme = lexeme := by
  cases lexeme <;> rfl

/-- The items are the lexemes of the parts. -/
theorem map_lexeme_itemsOf (spaced : Bool) (parts : List Part) :
    (itemsOf spaced parts).map Item.lexeme = lexemesOf parts := by
  induction parts generalizing spaced with
  | nil => rfl
  | cons part parts ih =>
    match part with
    | .blank _ | .comment _ => exact ih true
    | .item lexeme => rw [itemsOf, List.map_cons, Lexeme.lexeme_toItem, ih, lexemesOf]

/-- A lexeme that is whole before some text is whole at the end. -/
theorem Lexeme.Fits.alone {lexeme : Lexeme} {text : List Char} (h : lexeme.Fits text) :
    lexeme.Fits [] := by
  match lexeme with
  | .string chars | .delimiter c => exact h
  | .word chars => exact ⟨h.1, (wordBefore_iff.1 h.2).1⟩

/-- The items of a cutting are whole, and so they are when they are shown. -/
theorem fits_itemsOf {parts : List Part} (h : WellCut parts) (spaced : Bool) :
    ∀ item ∈ itemsOf spaced parts, item.lexeme.Fits [] := by
  induction parts generalizing spaced with
  | nil => exact nofun
  | cons part parts ih =>
    obtain ⟨hfits, hcut⟩ := h
    match part with
    | .blank _ | .comment _ => exact ih hcut true
    | .item lexeme =>
      have hlexeme : lexeme.Fits (textOf parts) := hfits
      refine List.forall_mem_cons.2 ⟨?_, ih hcut false⟩
      rw [Lexeme.lexeme_toItem]
      exact hlexeme.alone

theorem fits_shownItems {items : List Item} (h : ∀ item ∈ items, item.lexeme.Fits [])
    (inValue : Bool) :
    ∀ item ∈ shownItems inValue items, item.lexeme.Fits [] := by
  induction items generalizing inValue with
  | nil => exact nofun
  | cons item items ih =>
    obtain ⟨hitem, hitems⟩ := List.forall_mem_cons.1 h
    match item with
    | .string spaced chars => exact List.forall_mem_cons.2 ⟨hitem, ih hitems inValue⟩
    | .word spaced chars =>
      exact List.forall_mem_cons.2 ⟨fits_shown_word hitem inValue, ih hitems inValue⟩
    | .delimiter spaced c =>
      rw [shownItems]
      split
      next => exact ih hitems false
      next => exact List.forall_mem_cons.2 ⟨hitem, ih hitems _⟩

/-- The parts of the smaller stylesheet, from those of the stylesheet. -/
def smallParts (parts : List Part) : List Part :=
  layout none (shownItems false (itemsOf false parts))

/-- **How the smaller stylesheet is cut.** -/
theorem WellCut.cuts_minify {parts : List Part} (h : WellCut parts) :
    Cuts (minify (textOf parts)) (smallParts parts) := by
  have hfits := fits_itemsOf h false
  have hshown := fits_shownItems hfits false
  have hapart : WordsApart false (itemsOf false parts) := wordsApart_itemsOf h nofun
  have hkept : keptBefore [] (itemsOf false parts) = [] := ite_self _
  have hwrite := laysOut hfits false []
  rw [hkept, List.append_nil] at hwrite
  refine ⟨?_, (wellCut_layout hshown (hapart.shownItems false) none).1⟩
  rw [minify, h.items_textOf, hwrite, List.reverse_reverse]
  exact (trim_layout hshown).symm

/-- **How what is written is cut.** -/
theorem Cuts.minify {source : List Char} {parts : List Part} (h : Cuts source parts) :
    Cuts (minify source) (smallParts parts) := by
  rw [← h.1]
  exact h.2.cuts_minify

/-- Its lexemes are those of the source with short values and without the last semicolons. -/
theorem lexemesOf_smallParts (parts : List Part) :
    lexemesOf (smallParts parts) = dropEndSemicolons (shortenValues [] (lexemesOf parts)) := by
  rw [smallParts, lexemesOf_layout, ← map_lexeme_itemsOf false parts]
  exact map_lexeme_shownItems [] _

/-- **Making a stylesheet smaller keeps its lexical items.** A stylesheet that the checker accepts
has one cutting, and so has the smaller one, which the checker accepts too. There is no comment in
it, and its lexical items are those of the stylesheet, with the short form of each word of a value,
and without the semicolon right before the end of a block; the strings are the same. -/
theorem minify_keeps_lexemes {source : List Char} (h : check source = .ok ()) :
    ∃ parts small, (∀ cut, Cuts source cut ↔ cut = parts) ∧
      (∀ cut, Cuts (minify source) cut ↔ cut = small) ∧
      check (minify source) = .ok () ∧ (∀ body, .comment body ∉ small) ∧
      lexemesOf small = dropEndSemicolons (shortenValues [] (lexemesOf parts)) ∧
      (lexemesOf small).filter Lexeme.isString = (lexemesOf parts).filter Lexeme.isString := by
  obtain ⟨parts, hcuts, hnested⟩ := check_eq_ok_iff.1 h
  have hlexemes := lexemesOf_smallParts parts
  have hsmall : Cuts (minify source) (smallParts parts) := hcuts.1 ▸ hcuts.2.cuts_minify
  refine ⟨parts, smallParts parts, ?_, ?_, ?_, comment_notMem_layout _ _, hlexemes, ?_⟩
  · exact fun cut => ⟨fun hcut => hcut.unique hcuts, fun heq => heq ▸ hcuts⟩
  · exact fun cut => ⟨fun hcut => hcut.unique hsmall, fun heq => heq ▸ hsmall⟩
  · refine check_eq_ok_iff.2 ⟨smallParts parts, hsmall, ?_⟩
    rw [hlexemes, nested_codeOf_shortenValues]
    exact hnested
  · rw [hlexemes, filter_dropEndSemicolons, filter_shortenValues]

/-- A rule with a value that has a short form, a string with a quote in it, and a comment before the
end. -/
def shortRule : List Char :=
  "p\x7bx:0px \"\\\"\";/**/\x7d".toList

/-- The rule loses its comment, its last semicolon and the unit of its zero; the string stays as it
is. -/
theorem minify_keeps_lexemes_shortRule :
    check shortRule = .ok () ∧ check (minify shortRule) = .ok () ∧
      ∃ small, Cuts (minify shortRule) small ∧
        lexemesOf small =
          [.word ['p'], .delimiter '{', .word ['x'], .delimiter ':', .word ['0'],
          .string ['"', '\\', '"', '"'], .delimiter '}'] := by
  have hcheck : check shortRule = .ok () := by with_unfolding_all rfl
  obtain ⟨parts, small, hparts, hsmall, hchecked, -, hlexemes, -⟩ := minify_keeps_lexemes hcheck
  have hcuts : Cuts shortRule
      [.item (.word ['p']), .item (.delimiter '{'), .item (.word ['x']), .item (.delimiter ':'),
        .item (.word ['0', 'p', 'x']), .blank ' ', .item (.string ['"', '\\', '"', '"']),
        .item (.delimiter ';'), .comment [], .item (.delimiter '}')] :=
    ⟨rfl, ⟨List.cons_ne_nil _ _, rfl, rfl⟩, rfl, ⟨List.cons_ne_nil _ _, rfl, rfl⟩, rfl,
      ⟨List.cons_ne_nil _ _, rfl, rfl, rfl, rfl⟩, rfl,
      ⟨'"', ['\\', '"'], rfl, rfl, .escape _ .nil⟩, rfl, rfl, rfl, trivial⟩
  rw [← (hparts _).1 hcuts] at hlexemes
  exact ⟨hcheck, hchecked, small, (hsmall small).2 rfl, hlexemes⟩

end Triptych.Stylesheet
