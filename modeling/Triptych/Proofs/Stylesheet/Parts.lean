import Triptych.Proofs.Script.Literals
import Triptych.Proofs.Stylesheet.Counting
import Triptych.Stylesheet.Item

/-!
# The parts of a stylesheet

A stylesheet is cut into blanks, comments and lexical items: strings, delimiters and words. `Cuts
text parts` says what such a cutting is, without a word on how it is found: the parts make up the
text, and each of them *fits* before what follows it. A comment ends at the first mark that ends
comments, a string at its first bare quote, and a word goes on as long as it can.

* There is at most one cutting of a text (`Cuts.unique`).
* The checker accepts a text if the text can be cut and the brackets of its words and delimiters are
  nested (`check_eq_ok_iff`).
* The items that minification works on are the lexical items of the cutting, each with a note
  whether a blank or comment stands before it (`WellCut.items_textOf`).
-/

namespace Triptych.Stylesheet

open Text Code

/-! ### Parts -/

/-- A lexical item. -/
inductive Lexeme where
  /-- A string with its quotes, as written. -/
  | string (chars : List Char)
  | delimiter (char : Char)
  | word (chars : List Char)
deriving DecidableEq, Repr

/-- A part of a stylesheet. -/
inductive Part where
  | blank (char : Char)
  /-- A comment; the body stands between its marks. -/
  | comment (body : List Char)
  | item (lexeme : Lexeme)
deriving DecidableEq, Repr

/-- The characters of a lexical item. -/
def Lexeme.chars : Lexeme → List Char
  | .string chars | .word chars => chars
  | .delimiter c => [c]

/-- The characters of a part. -/
def Part.chars : Part → List Char
  | .blank c => [c]
  | .comment body => '/' :: '*' :: (body ++ ['*', '/'])
  | .item lexeme => lexeme.chars

/-- The text that parts make up. -/
def textOf (parts : List Part) : List Char :=
  parts.flatMap Part.chars

/-- The text of parts, piece by piece. -/
@[simp] theorem textOf_nil : textOf [] = [] := rfl

@[simp] theorem textOf_cons (part : Part) (parts : List Part) :
    textOf (part :: parts) = part.chars ++ textOf parts :=
  List.flatMap_cons

@[simp] theorem textOf_append (parts more : List Part) :
    textOf (parts ++ more) = textOf parts ++ textOf more :=
  List.flatMap_append

theorem textOf_comment (body : List Char) (parts : List Part) :
    textOf (.comment body :: parts) = '/' :: '*' :: (body ++ '*' :: '/' :: textOf parts) := by
  simp [Part.chars]

theorem textOf_string (mark : Char) (body : List Char) (parts : List Part) :
    textOf (.item (.string (mark :: (body ++ [mark]))) :: parts) =
      mark :: (body ++ mark :: textOf parts) := by
  simp [Part.chars, Lexeme.chars]

/-- The lexical items among parts. -/
def lexemesOf : List Part → List Lexeme
  | [] => []
  | .item lexeme :: parts => lexeme :: lexemesOf parts
  | .blank _ :: parts | .comment _ :: parts => lexemesOf parts

theorem lexemesOf_append (parts more : List Part) :
    lexemesOf (parts ++ more) = lexemesOf parts ++ lexemesOf more := by
  induction parts with
  | nil => rfl
  | cons part parts ih =>
    match part with
    | .blank _ | .comment _ => exact ih
    | .item lexeme => exact congrArg (lexeme :: ·) ih

/-- No word goes on into the text. -/
def StopsWord : List Char → Prop
  | [] => True
  | c :: text => endsWord c text = true

/-- The characters are those of a word, and the word does not go on into `text`. -/
def WordBefore (text : List Char) : List Char → Prop
  | [] => StopsWord text
  | c :: chars => endsWord c (chars ++ text) = false ∧ WordBefore text chars

/-- The lexical item is whole where `text` follows it. -/
def Lexeme.Fits (text : List Char) : Lexeme → Prop
  | .string chars => ∃ mark body, chars = mark :: (body ++ [mark]) ∧ isQuote mark = true ∧
      StringBody mark body
  | .delimiter c => isDelimiter c = true
  | .word chars => chars ≠ [] ∧ WordBefore text chars

/-- The part is whole where `text` follows it. -/
def Part.Fits (text : List Char) : Part → Prop
  | .blank c => isBlank c = true
  | .comment body => EndsFirst ['*', '/'] body
  | .item lexeme => lexeme.Fits text

/-- Each part is whole where the others follow it. -/
def WellCut : List Part → Prop
  | [] => True
  | part :: parts => part.Fits (textOf parts) ∧ WellCut parts

/-- **What a cutting of a text is.** -/
def Cuts (text : List Char) (parts : List Part) : Prop :=
  textOf parts = text ∧ WellCut parts

/-! ### Characters -/

theorem not_isBlank_of_isQuote {c : Char} (h : isQuote c = true) : isBlank c = false := by
  rw [isQuote, Bool.or_eq_true, beq_iff_eq, beq_iff_eq] at h
  rcases h with rfl | rfl <;> decide

theorem ne_backslash_of_isQuote {c : Char} (h : isQuote c = true) : c ≠ '\\' := by
  rintro rfl
  exact absurd h (by decide)

theorem ne_newline_of_isQuote {c : Char} (h : isQuote c = true) : c ≠ '\n' := by
  rintro rfl
  exact absurd h (by decide)

/-- The classes of characters do not meet: a delimiter is no blank, no quote and no slash. -/
theorem isDelimiter_cases {c : Char} (h : isDelimiter c = true) :
    isBlank c = false ∧ isQuote c = false ∧ c ≠ '/' := by
  have hall : delimiters.all (fun d => !isBlank d && !isQuote d && d != '/') = true := by decide
  have hc := List.all_eq_true.1 hall c (List.contains_iff_mem.1 h)
  simpa [and_assoc] using hc

/-- A blank is in none of the other classes. -/
theorem isBlank_cases {c : Char} (h : isBlank c = true) :
    isQuote c = false ∧ isDelimiter c = false ∧ isOpener c = false ∧ openerOf? c = none ∧
      c ≠ '/' := by
  -- Anything that these classes hold is visible.
  have hvisible (d : Char) (hd : isBlank d = false) : c ≠ d := by
    rintro rfl
    rw [h] at hd
    contradiction
  have hquote : isQuote c = false := by
    cases hc : isQuote c with
    | false => rfl
    | true => rw [not_isBlank_of_isQuote hc] at h; contradiction
  have hdelimiter : isDelimiter c = false := by
    cases hc : isDelimiter c with
    | false => rfl
    | true => rw [(isDelimiter_cases hc).1] at h; contradiction
  refine ⟨hquote, hdelimiter, ?_, ?_, hvisible '/' (by decide)⟩
  · simp [isOpener, hvisible '{' (by decide), hvisible '(' (by decide), hvisible '[' (by decide)]
  · unfold openerOf?
    split <;> first | rfl | exact absurd h (by decide)

/-! ### Strings -/

/-- What is read of a string that ends is its body and the quote. -/
theorem scanString_of_isQuote {mark : Char} {body : List Char} (hmark : isQuote mark = true)
    (h : StringBody mark body) (text : List Char) :
    scanString mark (body ++ mark :: text) = ⟨true, body ++ [mark], text⟩ :=
  scanString_of_stringBody (ne_backslash_of_isQuote hmark) (ne_newline_of_isQuote hmark) h text

/-- Where a string ends well, minification finds the same end as the checker. -/
theorem splitString_of_stringBody {mark : Char} {body : List Char} (hmark : isQuote mark = true)
    (h : StringBody mark body) (text : List Char) :
    splitString mark (body ++ mark :: text) = (body ++ [mark], text) := by
  -- One character at a time, a backslash apart.
  have hchar {c : Char} (hescape : c ≠ '\\') (rest : List Char) : splitString mark (c :: rest) =
      if c = mark then ([c], rest)
          else (c :: (splitString mark rest).1, (splitString mark rest).2) := by
    rw [splitString]
    rintro d tail rfl
    exact absurd rfl hescape
  induction h with
  | nil => rw [List.nil_append, hchar (ne_backslash_of_isQuote hmark), if_pos rfl]; rfl
  | escape c _ ih =>
    rw [List.cons_append, List.cons_append, splitString, ih]
    rfl
  | char hescape hquote _ _ ih =>
    rw [List.cons_append, hchar hescape, if_neg hquote, ih]
    rfl

/-- The end of a word is where minification finds it. -/
theorem splitWord_of_wordBefore {text chars : List Char} (h : WordBefore text chars) :
    splitWord (chars ++ text) = (chars, text) := by
  induction chars with
  | nil =>
    cases text with
    | nil => rfl
    | cons c text =>
      have hends : endsWord c text = true := h
      rw [List.nil_append, splitWord, if_pos hends]
  | cons c chars ih =>
    obtain ⟨hc, hchars⟩ := h
    rw [List.cons_append, splitWord, hc, if_neg (by decide), ih hchars]

/-- What minification takes for a word is one. -/
theorem wordBefore_splitWord (text : List Char) :
    WordBefore (splitWord text).2 (splitWord text).1 := by
  induction text with
  | nil => trivial
  | cons c text ih =>
    unfold splitWord
    split
    next hends => exact hends
    next hends =>
      have hc : endsWord c ((splitWord text).1 ++ (splitWord text).2) = false := by
        rw [splitWord_append]
        simpa using hends
      exact ⟨hc, ih⟩

/-! ### There is one cutting -/

/-- The kinds of parts. -/
inductive Kind where
  | blank
  | comment
  | string
  | delimiter
  | word
deriving DecidableEq

/-- The kind of a part. -/
def Part.kind : Part → Kind
  | .blank _ => .blank
  | .comment _ => .comment
  | .item (.string _) => .string
  | .item (.delimiter _) => .delimiter
  | .item (.word _) => .word

/-- The kind of the part that starts with `c` before `text`. -/
def kindAt (c : Char) (text : List Char) : Kind :=
  if c = '/' && text.head? == some '*' then .comment
  else if isBlank c then .blank
  else if isQuote c then .string
  else if isDelimiter c then .delimiter
  else .word

/-- A word goes on with every character that starts nothing else. -/
theorem endsWord_eq_false_iff {c : Char} {text : List Char} :
    endsWord c text = false ↔
      isBlank c = false ∧ isQuote c = false ∧ isDelimiter c = false ∧
        (c = '/' → text.head? ≠ some '*') := by
  simp only [endsWord, isQuote, Bool.or_eq_false_iff, Bool.and_eq_false_imp, beq_iff_eq,
    beq_eq_false_iff_ne, ne_eq, and_assoc]

/-- The first two characters tell what kind of part comes first. -/
theorem Part.Fits.kindAt_eq {part : Part} {text : List Char} (h : part.Fits text) :
    ∃ c rest, part.chars ++ text = c :: rest ∧ kindAt c rest = part.kind := by
  -- Every part is told by its first character, a comment and a word with a slash by the second one,
  -- too.
  match part with
  | .blank c =>
    obtain ⟨-, -, -, -, hslash⟩ := isBlank_cases h
    have hblank : isBlank c = true := h
    exact ⟨c, text, rfl, by simp [kindAt, hslash, hblank, Part.kind]⟩
  | .comment body => exact ⟨'/', '*' :: (body ++ ['*', '/'] ++ text), rfl, rfl⟩
  | .item (.string chars) =>
    obtain ⟨mark, body, rfl, hmark, -⟩ := h
    refine ⟨mark, (body ++ [mark]) ++ text, rfl, ?_⟩
    simp [kindAt, ne_slash_of_isQuote hmark, not_isBlank_of_isQuote hmark, hmark, Part.kind]
  | .item (.delimiter c) =>
    have hc : isDelimiter c = true := h
    obtain ⟨hblank, hquote, hslash⟩ := isDelimiter_cases hc
    exact ⟨c, text, rfl, by simp [kindAt, hslash, hblank, hquote, hc, Part.kind]⟩
  | .item (.word []) => exact absurd rfl h.1
  | .item (.word (c :: chars)) =>
    obtain ⟨hblank, hquote, hdelimiter, hcomment⟩ := endsWord_eq_false_iff.1 h.2.1
    refine ⟨c, chars ++ text, rfl, ?_⟩
    -- A word may start with a slash, but not with the mark of a comment.
    have hslash : ¬ (decide (c = '/') && (chars ++ text).head? == some '*') = true := by
      rw [Bool.and_eq_true, decide_eq_true_eq, beq_iff_eq]
      rintro ⟨hc, hstar⟩
      exact hcomment hc hstar
    rw [kindAt, if_neg hslash]
    simp [hblank, hquote, hdelimiter, Part.kind]

/-- **Only one part can come first.** -/
theorem Part.Fits.unique {part part' : Part} {text text' : List Char} (h : part.Fits text)
    (h' : part'.Fits text') (heq : part.chars ++ text = part'.chars ++ text') :
    part = part' ∧ text = text' := by
  obtain ⟨c, rest, hstart, hkind⟩ := h.kindAt_eq
  obtain ⟨c', rest', hstart', hkind'⟩ := h'.kindAt_eq
  rw [hstart, hstart'] at heq
  obtain ⟨rfl, rfl⟩ := List.cons.inj heq
  have hsame : part.chars ++ text = part'.chars ++ text' := hstart.trans hstart'.symm
  rw [hkind] at hkind'
  -- The two are of one kind, and the reader for that kind finds both.
  match part, part', hkind' with
  | .blank _, .blank _, _ | .item (.delimiter _), .item (.delimiter _), _ =>
    obtain ⟨rfl, rfl⟩ := List.cons.inj hsame
    exact ⟨rfl, rfl⟩
  | .comment body, .comment body', _ =>
    have hread := scanBlockComment_of_endsFirst h text
    have hread' := scanBlockComment_of_endsFirst h' text'
    simp only [Part.chars, List.cons_append, List.append_assoc, List.cons.injEq, true_and,
      List.nil_append] at hsame
    rw [hsame, hread', Scan.mk.injEq] at hread
    obtain ⟨-, hbody, rfl⟩ := hread
    exact ⟨by rw [List.append_cancel_right hbody], rfl⟩
  | .item (.string chars), .item (.string chars'), _ =>
    obtain ⟨mark, body, rfl, hmark, hbody⟩ := h
    obtain ⟨mark', body', rfl, -, hbody'⟩ := h'
    have hread := scanString_of_isQuote hmark hbody text
    simp only [Part.chars, Lexeme.chars, List.cons_append, List.append_assoc, List.cons.injEq,
      List.nil_append] at hsame
    obtain ⟨rfl, htail⟩ := hsame
    rw [htail, scanString_of_isQuote hmark hbody' text', Scan.mk.injEq] at hread
    obtain ⟨-, hchars, rfl⟩ := hread
    exact ⟨by rw [hchars], rfl⟩
  | .item (.word chars), .item (.word chars'), _ =>
    have hread := splitWord_of_wordBefore h.2
    have hread' := splitWord_of_wordBefore h'.2
    have hwords : chars ++ text = chars' ++ text' := hsame
    rw [hwords, hread'] at hread
    obtain ⟨rfl, rfl⟩ := Prod.mk.inj hread
    exact ⟨rfl, rfl⟩

/-- **A text has at most one cutting.** -/
theorem Cuts.unique {text : List Char} {parts parts' : List Part} (h : Cuts text parts)
    (h' : Cuts text parts') :
    parts = parts' := by
  obtain ⟨rfl, hcut⟩ := h
  obtain ⟨htext, hcut'⟩ := h'
  induction parts generalizing parts' with
  | nil =>
    cases parts' with
    | nil => rfl
    | cons part' parts' =>
      -- A part has a character at least.
      obtain ⟨c, rest, hstart, -⟩ := hcut'.1.kindAt_eq
      rw [textOf_cons, hstart] at htext
      contradiction
  | cons part parts ih =>
    cases parts' with
    | nil =>
      obtain ⟨c, rest, hstart, -⟩ := hcut.1.kindAt_eq
      rw [textOf_cons, hstart] at htext
      contradiction
    | cons part' parts' =>
      rw [textOf_cons, textOf_cons] at htext
      obtain ⟨rfl, hrest⟩ := hcut'.1.unique hcut.1 htext
      rw [ih hcut.2 hrest hcut'.2]

/-! ### The checker -/

/-- What follows a character of code is accepted too, from where the checker stands then. -/
theorem exists_checkFrom_of_code {c : Char} {text : List Char} {stack : List (Char × Location)}
    {loc : Location} (hquote : isQuote c = false) (hcomment : c = '/' → text.head? ≠ some '*')
    (h : checkFrom stack loc (c :: text) = .ok ()) :
    ∃ stack' loc', checkFrom stack' loc' text = .ok () := by
  rw [checkFrom_code hquote hcomment] at h
  cases hopen : openAfter c loc stack with
  | none =>
    rw [hopen] at h
    contradiction
  | some stack' =>
    rw [hopen] at h
    exact ⟨stack', loc.advance c, h⟩

/-- Behind a word the checker accepts what is left, with some brackets open. -/
theorem exists_checkFrom_of_word {text chars : List Char} (hword : WordBefore text chars)
    {stack : List (Char × Location)} {loc : Location}
    (h : checkFrom stack loc (chars ++ text) = .ok ()) :
    ∃ stack' loc', checkFrom stack' loc' text = .ok () := by
  induction chars generalizing stack loc with
  | nil => exact ⟨stack, loc, h⟩
  | cons c chars ih =>
    obtain ⟨-, hquote, -, hcomment⟩ := endsWord_eq_false_iff.1 hword.1
    obtain ⟨stack', loc', hrest⟩ := exists_checkFrom_of_code hquote hcomment h
    exact ih hword.2 hrest

/-- **What the checker accepts can be cut.** -/
theorem exists_cuts_of_checkFrom {text : List Char} {stack : List (Char × Location)}
    {loc : Location} (h : checkFrom stack loc text = .ok ()) : ∃ parts, Cuts text parts := by
  match text with
  | [] => exact ⟨[], rfl, trivial⟩
  | c :: text =>
    -- By the kind of the first part; what follows it is accepted and shorter.
    have hcons {part : Part} {rest : List Char} (hfits : part.Fits rest)
      (hsplit : c :: text = part.chars ++ rest)
        (hrest : ∃ parts, Cuts rest parts) : ∃ parts, Cuts (c :: text) parts := by
      obtain ⟨parts, rfl, hcut⟩ := hrest
      exact ⟨part :: parts, hsplit.symm, hfits, hcut⟩
    by_cases hslash : c = '/' ∧ text.head? = some '*'
    · obtain ⟨tail, htext⟩ := List.head?_eq_some_iff.1 hslash.2
      have hshorter : (scanBlockComment tail).rest.length < text.length := by
        have hle := scanBlockComment_rest_le tail
        rw [htext, List.length_cons]
        omega
      rw [hslash.1, htext, checkFrom_comment] at h
      split at h
      next hended =>
        obtain ⟨body, hbody, htail⟩ := endsFirst_of_scanBlockComment hended
        refine @hcons (.comment body) _ hbody ?_ (exists_cuts_of_checkFrom h)
        simp [Part.chars, ← htail, hslash.1, htext]
      next => contradiction
    rw [not_and] at hslash
    by_cases hquote : isQuote c = true
    · have hshorter := scanString_rest_le c text
      rw [checkFrom_string hquote] at h
      split at h
      next hended =>
        obtain ⟨body, hbody, htext⟩ := stringBody_of_scanString hended
        refine @hcons (.item (.string (c :: (body ++ [c])))) _ ⟨c, body, rfl, hquote, hbody⟩ ?_
          (exists_cuts_of_checkFrom h)
        simp [Part.chars, Lexeme.chars, ← htext]
      next => contradiction
    rw [Bool.not_eq_true] at hquote
    by_cases hblank : isBlank c = true
    · obtain ⟨stack', loc', hrest⟩ := exists_checkFrom_of_code hquote hslash h
      exact @hcons (.blank c) text hblank rfl (exists_cuts_of_checkFrom hrest)
    by_cases hdelimiter : isDelimiter c = true
    · obtain ⟨stack', loc', hrest⟩ := exists_checkFrom_of_code hquote hslash h
      exact @hcons (.item (.delimiter c)) text hdelimiter rfl (exists_cuts_of_checkFrom hrest)
    · -- Nothing else is left than a word.
      have hshorter := splitWord_rest_le text
      have hword : WordBefore (splitWord text).2 (c :: (splitWord text).1) := by
        refine ⟨?_, wordBefore_splitWord text⟩
        rw [splitWord_append]
        exact endsWord_eq_false_iff.2
          ⟨by simpa using hblank, hquote, by simpa using hdelimiter, hslash⟩
      have hsplit : c :: text = (c :: (splitWord text).1) ++ (splitWord text).2 := by
        rw [List.cons_append, splitWord_append]
      rw [hsplit] at h
      obtain ⟨stack', loc', hrest⟩ := exists_checkFrom_of_word hword h
      exact @hcons (.item (.word (c :: (splitWord text).1))) _ ⟨List.cons_ne_nil _ _, hword⟩ hsplit
        (exists_cuts_of_checkFrom hrest)
termination_by text.length
decreasing_by all_goals (simp only [List.length_cons]; omega)

/-- True when brackets are nested, given those that are open, innermost first. Other characters do
not count. -/
def nested : List Char → List Char → Bool
  | stack, [] => stack.isEmpty
  | stack, c :: chars =>
    if isOpener c then nested (c :: stack) chars
    else
      match openerOf? c with
      | none => nested stack chars
      | some opener =>
        match stack with
        | top :: stack => top == opener && nested stack chars
        | [] => false

/-- True of a bracket, opening or closing. -/
def isBracket (c : Char) : Bool :=
  isOpener c || (openerOf? c).isSome

/-- Only brackets decide whether brackets are nested. -/
theorem nested_filter (stack chars : List Char) :
    nested stack (chars.filter isBracket) = nested stack chars := by
  induction chars generalizing stack with
  | nil => rfl
  | cons c chars ih =>
    rw [List.filter_cons]
    split
    next =>
      unfold nested
      simp only [ih]
    next hbracket =>
      rw [isBracket, Bool.or_eq_true, not_or, Bool.not_eq_true, Bool.not_eq_true,
        Option.isSome_eq_false_iff, Option.isNone_iff_eq_none] at hbracket
      rw [ih, nested, hbracket.1, hbracket.2]
      rfl

/-- The characters of a lexical item that are code: all but those of a string. -/
def Lexeme.code : Lexeme → List Char
  | .string _ => []
  | .delimiter c => [c]
  | .word chars => chars

/-- The code of lexical items. -/
def codeOf (lexemes : List Lexeme) : List Char :=
  lexemes.flatMap Lexeme.code

/-- The checker accepts the text from any state just if the brackets of the code are nested behind
those that are open. -/
def AcceptsLike (text code : List Char) : Prop :=
  ∀ stack loc, checkFrom stack loc text = .ok () ↔ nested (stack.map Prod.fst) code = true

/-- The checker goes on alike behind a character that stands in both texts. -/
theorem AcceptsLike.cons {c : Char} {text code : List Char} (hquote : isQuote c = false)
    (hcomment : c = '/' → text.head? ≠ some '*') (h : AcceptsLike text code) :
    AcceptsLike (c :: text) (c :: code) := by
  intro stack loc
  -- The checker looks at the character as the nesting of the code does; only the places differ.
  rw [checkFrom_code hquote hcomment, openAfter, nested]
  by_cases hopener : isOpener c = true
  · rw [if_pos hopener, if_pos hopener]
    exact h ((c, loc) :: stack) _
  rw [if_neg hopener, if_neg hopener]
  cases openerOf? c with
  | none => exact h stack _
  | some opener =>
    match stack with
    | [] => exact ⟨nofun, nofun⟩
    | (top, place) :: stack =>
      rw [List.map_cons]
      dsimp only
      by_cases htop : top = opener
      · rw [if_pos htop, htop, beq_self_eq_true, Bool.true_and]
        exact h stack _
      · rw [if_neg htop, beq_false_of_ne htop, Bool.false_and]
        exact ⟨nofun, nofun⟩

/-- And so it does behind a word. -/
theorem AcceptsLike.word {text code chars : List Char} (hword : WordBefore text chars)
    (h : AcceptsLike text code) :
    AcceptsLike (chars ++ text) (chars ++ code) := by
  induction chars with
  | nil => exact h
  | cons c chars ih =>
    obtain ⟨-, hquote, -, hcomment⟩ := endsWord_eq_false_iff.1 hword.1
    exact (ih hword.2).cons hquote hcomment

/-- **The checker looks at the brackets of the code and at nothing else.** -/
theorem acceptsLike_textOf {parts : List Part} (h : WellCut parts) :
    AcceptsLike (textOf parts) (codeOf (lexemesOf parts)) := by
  induction parts with
  | nil =>
    intro stack loc
    rw [textOf_nil, checkFrom.eq_def]
    cases stack with
    | nil => exact ⟨fun _ => rfl, fun _ => rfl⟩
    | cons top stack => exact ⟨nofun, nofun⟩
  | cons part parts ih =>
    obtain ⟨hfits, hcut⟩ := h
    have hrest := ih hcut
    match part with
    | .blank c =>
      obtain ⟨hquote, -, hopener, hcloser, hslash⟩ := isBlank_cases hfits
      have hcons := hrest.cons hquote fun hc => absurd hc hslash
      intro stack loc
      -- A blank would be a character of code that is no bracket.
      have hskip (code : List Char) : nested (stack.map Prod.fst) (c :: code) =
          nested (stack.map Prod.fst) code := by
        rw [nested, hopener, hcloser]
        rfl
      exact (hcons stack loc).trans (by rw [hskip]; rfl)
    | .comment body =>
      intro stack loc
      have hread := scanBlockComment_of_endsFirst hfits (textOf parts)
      rw [textOf_comment, checkFrom_comment, hread, if_pos rfl]
      exact hrest stack _
    | .item (.string chars) =>
      obtain ⟨mark, body, rfl, hmark, hbody⟩ := hfits
      intro stack loc
      have hread := scanString_of_isQuote hmark hbody (textOf parts)
      rw [textOf_string, checkFrom_string hmark, hread, if_pos rfl]
      exact hrest stack _
    | .item (.delimiter c) =>
      obtain ⟨-, hquote, hslash⟩ := isDelimiter_cases hfits
      exact hrest.cons hquote fun hc => absurd hc hslash
    | .item (.word chars) => exact hrest.word hfits.2

/-- **What the checker accepts**: the texts that can be cut and in whose code the brackets are
nested. -/
theorem check_eq_ok_iff {text : List Char} :
    check text = .ok () ↔ ∃ parts, Cuts text parts ∧
      nested [] (codeOf (lexemesOf parts)) = true := by
  rw [check_eq_checkFrom]
  constructor
  · intro h
    obtain ⟨parts, rfl, hcut⟩ := exists_cuts_of_checkFrom h
    exact ⟨parts, ⟨rfl, hcut⟩, (acceptsLike_textOf hcut [] {}).1 h⟩
  · rintro ⟨parts, ⟨rfl, hcut⟩, hnested⟩
    exact (acceptsLike_textOf hcut [] {}).2 hnested

/-! ### The items of minification -/

/-- The item for a lexical item, which knows whether a blank or comment stands before it. -/
def Lexeme.toItem (spaced : Bool) : Lexeme → Item
  | .string chars => .string spaced chars
  | .delimiter c => .delimiter spaced c
  | .word chars => .word spaced chars

/-- The items for parts, where `spaced` tells whether a blank or comment stands before them. -/
def itemsOf (spaced : Bool) : List Part → List Item
  | [] => []
  | .item lexeme :: parts => lexeme.toItem spaced :: itemsOf false parts
  | _ :: parts => itemsOf true parts

/-- The items of a text, one at a time. -/
theorem items_nil (spaced : Bool) : items spaced [] = [] := by
  rw [items.eq_def]

theorem items_comment (spaced : Bool) (text : List Char) :
    items spaced ('/' :: '*' :: text) = items true (scanBlockComment text).rest := by
  rw [items.eq_def]
  rfl

/-- An item, by its first character. -/
theorem items_cons {c : Char} {text : List Char} (hcomment : c = '/' → text.head? ≠ some '*')
    (spaced : Bool) :
    items spaced (c :: text) =
      if isBlank c then items true text
      else if isQuote c then .string spaced (c :: (splitString c text).1) :: items false
        (splitString c text).2
      else if isDelimiter c then .delimiter spaced c :: items false text
      else .word spaced (c :: (splitWord text).1) :: items false (splitWord text).2 := by
  have hquote : (isQuote c = true) = ((decide (c = '"') || decide (c = '\'')) = true) := by
    simp only [isQuote, Bool.or_eq_true, beq_iff_eq, decide_eq_true_eq]
  rw [items.eq_def]
  split
  next h => contradiction
  next tail h =>
    obtain ⟨rfl, rfl⟩ := List.cons.inj h
    exact absurd rfl (hcomment rfl)
  next d tail _ h =>
    obtain ⟨rfl, rfl⟩ := List.cons.inj h
    simp only [hquote]

/-- **The items of a text are the lexical items of its cutting.** -/
theorem WellCut.items_textOf {parts : List Part} (h : WellCut parts) (spaced : Bool) :
    items spaced (textOf parts) = itemsOf spaced parts := by
  -- Along the parts. What stands behind a part decides nothing but whether it is whole.
  induction parts generalizing spaced with
  | nil => exact items_nil spaced
  | cons part parts ih =>
    obtain ⟨hfits, hcut⟩ := h
    have hrest := ih hcut
    match part with
    -- Blanks and comments give no item, but leave the note that something stood there.
    | .blank c =>
      obtain ⟨-, -, -, -, hslash⟩ := isBlank_cases hfits
      have hblank : isBlank c = true := hfits
      rw [textOf_cons, Part.chars, List.singleton_append, items_cons fun hc => absurd hc hslash,
        if_pos hblank]
      exact hrest true
    | .comment body =>
      rw [textOf_comment, items_comment, scanBlockComment_of_endsFirst hfits]
      exact hrest true
    | .item (.string chars) =>
      obtain ⟨mark, body, rfl, hmark, hbody⟩ := hfits
      rw [textOf_string, items_cons fun hc => absurd hc (ne_slash_of_isQuote hmark),
        not_isBlank_of_isQuote hmark, if_neg (by decide), if_pos hmark,
        splitString_of_stringBody hmark hbody, hrest]
      rfl
    | .item (.delimiter c) =>
      obtain ⟨hblank, hquote, hslash⟩ := isDelimiter_cases hfits
      have hdelimiter : isDelimiter c = true := hfits
      have htext : textOf (.item (.delimiter c) :: parts) = c :: textOf parts := rfl
      rw [htext, items_cons fun hc => absurd hc hslash, hblank, hquote, if_neg (by decide),
        if_neg (by decide), if_pos hdelimiter, hrest]
      rfl
    | .item (.word []) => exact absurd rfl hfits.1
    | .item (.word (c :: chars)) =>
      obtain ⟨hblank, hquote, hdelimiter, hcomment⟩ := endsWord_eq_false_iff.1 hfits.2.1
      have htext : textOf (.item (.word (c :: chars)) :: parts) = c :: (chars ++ textOf parts) :=
        rfl
      rw [htext, items_cons hcomment, hblank, hquote, hdelimiter, if_neg (by decide),
        if_neg (by decide), if_neg (by decide), splitWord_of_wordBefore hfits.2.2, hrest]
      rfl

end Triptych.Stylesheet
