import Triptych.Proofs.Stylesheet.Parts
import Triptych.Proofs.Text.Location

/-!
# The first fault of a stylesheet

What the checker accepts and what it reports, said without the checker. A stylesheet is read from
left to right as comments, strings and other characters (`Reads`). It is in order if all of it can
be read and its brackets are nested (`Nested`, the grammar of nested brackets). Otherwise reading
comes to a first fault (`FirstFault`): a comment or a string that does not end, a closing bracket
that does not belong to the innermost open one, or an open bracket at the end.

Which brackets are open after tokens is said by cutting the tokens up: between two open brackets,
and behind the last one, everything is nested (`LeavesOpen`).

* Reading leads the checker through the same tokens, with the same brackets open
  (`LeavesOpen.check_eq`).
* Every stylesheet is in order or has a first fault (`nested_or_firstFault`).
* So the checker tells the two apart, and names the fault and the place of the character that it is
  about (`check_iff_nested_firstFault`).
-/

namespace Triptych.Stylesheet

open Text Code

/-! ### Reading -/

/-- What a stylesheet is read as. -/
inductive Token where
  /-- A comment; the body stands between its marks. -/
  | comment (body : List Char)
  /-- A string; the body stands between its quotes. -/
  | string (mark : Char) (body : List Char)
  | char (c : Char)
deriving DecidableEq, Repr

/-- The characters of a token. -/
def Token.chars : Token → List Char
  | .comment body => '/' :: '*' :: (body ++ ['*', '/'])
  | .string mark body => mark :: (body ++ [mark])
  | .char c => [c]

/-- The text that tokens make up. -/
def charsOf (tokens : List Token) : List Char :=
  tokens.flatMap Token.chars

theorem charsOf_cons (token : Token) (tokens : List Token) :
    charsOf (token :: tokens) = token.chars ++ charsOf tokens :=
  List.flatMap_cons

theorem charsOf_append (tokens more : List Token) :
    charsOf (tokens ++ more) = charsOf tokens ++ charsOf more :=
  List.flatMap_append

/-- **The token that a text starts with**, and what is left behind it. A comment ends at the first
mark that does so, where the star of its opening mark does not count; in a string a backslash takes
the next character along. -/
inductive StartsWith : List Char → Token → List Char → Prop
  | comment {body rest : List Char} : ¬ ['*', '/'] <:+: body ++ ['*'] →
      StartsWith ('/' :: '*' :: (body ++ '*' :: '/' :: rest)) (.comment body) rest
  | string {mark : Char} {body rest : List Char} : isQuote mark = true → StringBody mark body →
      StartsWith (mark :: (body ++ mark :: rest)) (.string mark body) rest
  | char {c : Char} {rest : List Char} : isQuote c = false → (c = '/' → rest.head? ≠ some '*') →
      StartsWith (c :: rest) (.char c) rest

/-- **Reading from left to right**: tokens one behind the other, and what is left of the text behind
them. -/
inductive Reads : List Char → List Token → List Char → Prop
  | nil (text : List Char) : Reads text [] text
  | cons {text between rest : List Char} {token : Token} {tokens : List Token} :
      StartsWith text token between → Reads between tokens rest → Reads text (token :: tokens) rest

/-- The first token and the rest make up the text. -/
theorem StartsWith.append_eq {text rest : List Char} {token : Token}
    (h : StartsWith text token rest) :
    token.chars ++ rest = text := by
  cases h <;> simp [Token.chars]

/-- A token has a character at least. -/
theorem StartsWith.length_lt {text rest : List Char} {token : Token}
    (h : StartsWith text token rest) :
    rest.length < text.length := by
  have hlength := congrArg List.length h.append_eq
  have hpos : 0 < token.chars.length := by cases token <;> simp [Token.chars]
  rw [List.length_append] at hlength
  omega

namespace Reads

variable {text between rest : List Char} {tokens more : List Token}

/-- What was read and the rest make up the text. -/
theorem append_eq (h : Reads text tokens rest) : charsOf tokens ++ rest = text := by
  induction h with
  | nil => rfl
  | cons hstarts _ ih => rw [charsOf_cons, List.append_assoc, ih, hstarts.append_eq]

/-- Reading can go on. -/
theorem append (h : Reads text tokens between) (hmore : Reads between more rest) :
    Reads text (tokens ++ more) rest := by
  induction h with
  | nil => exact hmore
  | cons hstarts _ ih => exact .cons hstarts (ih hmore)

/-- Reading can be cut between any two tokens. -/
theorem exists_of_append (h : Reads text (tokens ++ more) rest) :
    ∃ between, Reads text tokens between ∧ Reads between more rest := by
  induction tokens generalizing text with
  | nil => exact ⟨text, .nil text, h⟩
  | cons token tokens ih =>
    cases h with
    | cons hstarts h =>
      obtain ⟨between, hfirst, hmore⟩ := ih h
      exact ⟨between, .cons hstarts hfirst, hmore⟩

/-- The location behind tokens is where reading them leads. -/
theorem ofOffset_eq (h : Reads text tokens rest) :
    Location.ofOffset text (byteLength (charsOf tokens)) =
      ({} : Location).advanceAll (charsOf tokens) := by
  rw [← h.append_eq]
  exact Location.ofOffset_append _ _

end Reads

/-! ### Brackets -/

/-- **Nested brackets.** Each bracket is closed by its own, and what stands between the two is
nested. -/
inductive Nested : List Token → Prop
  | nil : Nested []
  | skip {token : Token} {tokens : List Token} :
      (∀ c, token = .char c → isBracket c = false) → Nested tokens → Nested (token :: tokens)
  | pair {opener closer : Char} {inside tokens : List Token} : openerOf? closer = some opener →
      Nested inside → Nested tokens → Nested (.char opener :: (inside ++ .char closer :: tokens))

/-- **The brackets that tokens leave open**, innermost first, each with its offset. -/
inductive LeavesOpen : List Token → List (Char × Nat) → Prop
  | none {tokens : List Token} : Nested tokens → LeavesOpen tokens []
  | opener {tokens inside : List Token} {stack : List (Char × Nat)} {c : Char} : isOpener c = true →
      LeavesOpen tokens stack → Nested inside →
      LeavesOpen (tokens ++ .char c :: inside) ((c, byteLength (charsOf tokens)) :: stack)

/-- **The first fault of a stylesheet**, and the offset of the character that it is about. Up to
there everything can be read and every closing bracket belongs to the innermost open one. -/
inductive FirstFault (source : List Char) : Cause → Nat → Prop
  | comment {tokens : List Token} {stack : List (Char × Nat)} {text : List Char} :
      Reads source tokens ('/' :: '*' :: text) → LeavesOpen tokens stack → ¬ ['*', '/'] <:+: text →
      FirstFault source .unterminatedComment (byteLength (charsOf tokens))
  | string {tokens : List Token} {stack : List (Char × Nat)} {mark : Char} {text : List Char} :
      Reads source tokens (mark :: text) → LeavesOpen tokens stack → isQuote mark = true →
      (∀ body rest, StringBody mark body → text ≠ body ++ mark :: rest) →
      FirstFault source .unterminatedString (byteLength (charsOf tokens))
  | closer {tokens : List Token} {stack : List (Char × Nat)} {c opener : Char} {text : List Char} :
      Reads source tokens (c :: text) → LeavesOpen tokens stack → openerOf? c = some opener →
      stack.head?.map Prod.fst ≠ some opener →
      FirstFault source (.unexpected c) (byteLength (charsOf tokens))
  | opener {tokens : List Token} {stack : List (Char × Nat)} {c : Char} {offset : Nat} :
      Reads source tokens [] → LeavesOpen tokens ((c, offset) :: stack) →
        FirstFault source (.unclosed c) offset

/-- A closing bracket is neither an opening one nor the start of a string or comment. -/
theorem openerOf?_cases {closer opener : Char} (h : openerOf? closer = some opener) :
    isOpener opener = true ∧ isOpener closer = false ∧ isQuote closer = false ∧ closer ≠ '/' := by
  unfold openerOf? at h
  split at h
  · obtain rfl := Option.some.inj h
    decide
  · obtain rfl := Option.some.inj h
    decide
  · obtain rfl := Option.some.inj h
    decide
  · contradiction

/-- A character is no bracket if it neither opens nor closes one. -/
theorem isBracket_eq_false_iff {c : Char} :
    isBracket c = false ↔ isOpener c = false ∧ openerOf? c = none := by
  rw [isBracket, Bool.or_eq_false_iff, Option.isSome_eq_false_iff, Option.isNone_iff_eq_none]

namespace Nested

/-- Nested tokens may stand behind each other. -/
theorem append {tokens more : List Token} (h : Nested tokens) (hmore : Nested more) :
    Nested (tokens ++ more) := by
  induction h with
  | nil => exact hmore
  | skip hskip _ ih => exact .skip hskip ih
  | pair hpair hinside _ _ ih =>
    rw [List.cons_append, List.append_assoc, List.cons_append]
    exact .pair hpair hinside ih

/-- A token that is no bracket is nested. -/
theorem singleton {token : Token} (h : ∀ c, token = .char c → isBracket c = false) :
    Nested [token] :=
  .skip h .nil

end Nested

namespace LeavesOpen

variable {tokens more : List Token} {stack : List (Char × Nat)}

/-- Nested tokens leave open what was open before. -/
theorem append (h : LeavesOpen tokens stack) (hmore : Nested more) :
    LeavesOpen (tokens ++ more) stack := by
  cases h with
  | none hnested => exact .none (hnested.append hmore)
  | opener hopener hbefore hinside =>
    rw [List.append_assoc, List.cons_append]
    exact .opener hopener hbefore (hinside.append hmore)

/-- An opening bracket is open behind it. -/
theorem push (h : LeavesOpen tokens stack) {c : Char} (hc : isOpener c = true) :
    LeavesOpen (tokens ++ [.char c]) ((c, byteLength (charsOf tokens)) :: stack) :=
  .opener hc h .nil

/-- A closing bracket closes the innermost open one. -/
theorem pop {closer opener : Char} {offset : Nat}
    (h : LeavesOpen tokens ((opener, offset) :: stack)) (hcloser : openerOf? closer = some opener) :
    LeavesOpen (tokens ++ [.char closer]) stack := by
  cases h with
  | opener _ hbefore hinside =>
    rw [List.append_assoc, List.cons_append]
    exact hbefore.append (.pair hcloser hinside .nil)

/-- If no bracket is open behind tokens they are nested. -/
theorem nested_of_nil (h : LeavesOpen tokens []) : Nested tokens := by
  cases h with
  | none hnested => exact hnested

end LeavesOpen

/-! ### Comments and strings that end -/

/-- Where the scanner finds the end of a comment, the text starts with that comment. -/
theorem exists_startsWith_comment {text : List Char} (h : (scanBlockComment text).ended = true) :
    ∃ body, StartsWith ('/' :: '*' :: text) (.comment body) (scanBlockComment text).rest := by
  obtain ⟨body, hbody, htext⟩ := endsFirst_of_scanBlockComment h
  generalize (scanBlockComment text).rest = rest at htext
  subst htext
  exact ⟨body, .comment (endsFirst_iff.1 hbody)⟩

/-- Where the scanner finds the end of a string, the text starts with that string. -/
theorem exists_startsWith_string {mark : Char} {text : List Char} (hmark : isQuote mark = true)
    (h : (scanString mark text).ended = true) :
    ∃ body, (scanString mark text).read = body ++ [mark] ∧
      StartsWith (mark :: text) (.string mark body) (scanString mark text).rest := by
  obtain ⟨body, hbody, htext⟩ := stringBody_of_scanString h
  generalize hrest : (scanString mark text).rest = rest at htext
  subst htext
  rw [scanString_of_isQuote hmark hbody]
  exact ⟨body, rfl, .string hmark hbody⟩

/-! ### The checker goes the same way -/

/-- What is open behind a token. -/
def Token.openAfter (loc : Location) (stack : List (Char × Location)) :
    Token → Option (List (Char × Location))
  | .char c => Stylesheet.openAfter c loc stack
  | _ => some stack

/-- **The checker, a token at a time.** -/
theorem StartsWith.checkFrom_eq {text rest : List Char} {token : Token}
    (h : StartsWith text token rest) {stack stack' : List (Char × Location)} {loc : Location}
    (hopen : token.openAfter loc stack = some stack') :
    checkFrom stack loc text = checkFrom stack' (loc.advanceAll token.chars) rest := by
  cases h with
  | comment hbody =>
    obtain rfl := Option.some.inj hopen
    rw [checkFrom_comment, scanBlockComment_of_endsFirst (endsFirst_iff.2 hbody), if_pos rfl]
    rfl
  | string hmark hbody =>
    obtain rfl := Option.some.inj hopen
    rw [checkFrom_string hmark, scanString_of_isQuote hmark hbody, if_pos rfl]
    rfl
  | @char c _ hquote hcomment =>
    have hopen : Stylesheet.openAfter c loc stack = some stack' := hopen
    rw [checkFrom_code hquote hcomment, hopen]
    rfl

/-- What is open behind an opening bracket, behind the closing bracket that belongs to the innermost
open one, and behind anything else. -/
theorem openAfter_of_isOpener {c : Char} (h : isOpener c = true) (loc : Location)
    (stack : List (Char × Location)) :
    openAfter c loc stack = some ((c, loc) :: stack) :=
  if_pos h

theorem openAfter_of_openerOf? {closer opener : Char} (h : openerOf? closer = some opener)
    (loc place : Location) (stack : List (Char × Location)) :
    openAfter closer loc ((opener, place) :: stack) = some stack := by
  obtain ⟨-, hcloser, -, -⟩ := openerOf?_cases h
  rw [openAfter, hcloser, if_neg Bool.false_ne_true, h]
  exact if_pos rfl

theorem openAfter_of_not_isBracket {token : Token} (h : ∀ c, token = .char c → isBracket c = false)
    (loc : Location) (stack : List (Char × Location)) : token.openAfter loc stack = some stack := by
  cases token with
  | comment | string => rfl
  | char c =>
    obtain ⟨hopener, hcloser⟩ := isBracket_eq_false_iff.1 (h c rfl)
    show openAfter c loc stack = some stack
    rw [openAfter, hopener, if_neg Bool.false_ne_true, hcloser]

/-- **Through nested tokens the checker comes out with what was open before.** -/
theorem Nested.checkFrom_eq {tokens : List Token} (h : Nested tokens) {text rest : List Char}
    (hreads : Reads text tokens rest) (stack : List (Char × Location)) (loc : Location) :
    checkFrom stack loc text = checkFrom stack (loc.advanceAll (charsOf tokens)) rest := by
  induction h generalizing text rest stack loc with
  | nil =>
    cases hreads
    rfl
  | skip hskip _ ih =>
    cases hreads with
    | cons hstarts hreads =>
      rw [hstarts.checkFrom_eq (openAfter_of_not_isBracket hskip loc stack), ih hreads,
        charsOf_cons, Location.advanceAll_append]
  | pair hpair _ _ ihinside ih =>
    cases hreads with
    | cons hopens hreads =>
      obtain ⟨between, hinside, hbehind⟩ := hreads.exists_of_append
      cases hbehind with
      | cons hcloses hreads =>
        -- Inside the two brackets the opening one is on top, and so it is at the closing one.
        rw [hopens.checkFrom_eq (openAfter_of_isOpener (openerOf?_cases hpair).1 loc stack),
          ihinside hinside, hcloses.checkFrom_eq (openAfter_of_openerOf? hpair _ _ _), ih hreads]
        simp only [charsOf_cons, charsOf_append, Location.advanceAll_append]

/-- Open brackets with their locations. -/
def placesOf (source : List Char) (stack : List (Char × Nat)) : List (Char × Location) :=
  stack.map fun entry => (entry.1, Location.ofOffset source entry.2)

/-- **Reading leads the checker to the same place, with the same brackets open.** -/
theorem LeavesOpen.check_eq {source rest : List Char} {tokens : List Token}
    {stack : List (Char × Nat)} (h : LeavesOpen tokens stack) (hreads : Reads source tokens rest) :
    check source =
      checkFrom (placesOf source stack) (Location.ofOffset source (byteLength (charsOf tokens)))
        rest := by
  rw [hreads.ofOffset_eq, check_eq_checkFrom]
  induction h generalizing rest with
  | none hnested => exact hnested.checkFrom_eq hreads [] {}
  | opener hopener _ hinside ih =>
    obtain ⟨between, hbefore, hbehind⟩ := hreads.exists_of_append
    cases hbehind with
    | cons hopens hreads =>
      rw [ih hbefore, hopens.checkFrom_eq (openAfter_of_isOpener hopener _ _),
        hinside.checkFrom_eq hreads, ← hbefore.ofOffset_eq]
      simp only [charsOf_cons, charsOf_append, Location.advanceAll_append, ← hbefore.ofOffset_eq]
      rfl

/-! ### What the checker says -/

/-- **Nested stylesheets are accepted.** -/
theorem check_of_nested {source : List Char} {tokens : List Token} (hreads : Reads source tokens [])
    (hnested : Nested tokens) : check source = .ok () := by
  rw [(LeavesOpen.none hnested).check_eq hreads, checkFrom.eq_def]
  rfl

/-- **The checker reports the first fault**, at the location of its character. -/
theorem FirstFault.check_eq {source : List Char} {cause : Cause} {offset : Nat}
    (h : FirstFault source cause offset) :
    check source = .error ⟨cause, Location.ofOffset source offset⟩ := by
  -- In each case the checker comes to the fault with what was left open before it.
  cases h with
  | comment hreads hopen hnever =>
    rw [hopen.check_eq hreads, checkFrom_comment, if_neg (mt ended_scanBlockComment_iff.1 hnever)]
  | @string _ _ mark text hreads hopen hmark hnever =>
    -- If the string ended, its body would be one that the fault excludes.
    have hended : ¬ (scanString mark text).ended = true := by
      intro hended
      obtain ⟨body, hbody, htext⟩ := stringBody_of_scanString hended
      exact hnever body _ hbody htext
    rw [hopen.check_eq hreads, checkFrom_string hmark, if_neg hended]
  | @closer _ stack c opener _ hreads hopen hcloser hother =>
    obtain ⟨-, hc, hquote, hslash⟩ := openerOf?_cases hcloser
    -- The bracket closes nothing: none is open, or the innermost open one is another.
    have hfails (loc : Location) : openAfter c loc (placesOf source stack) = none := by
      rw [openAfter, hc, if_neg Bool.false_ne_true, hcloser]
      cases stack with
      | nil => rfl
      | cons top stack => exact if_neg fun htop => hother (congrArg some htop)
    rw [hopen.check_eq hreads, checkFrom_code hquote fun h => absurd h hslash, hfails]
    rfl
  | opener hreads hopen =>
    rw [hopen.check_eq hreads, checkFrom.eq_def]
    rfl

/-- **A stylesheet is in order or has a first fault.** Reading goes on, from tokens that have no
fault yet, until the one or the other shows. -/
theorem nested_or_firstFault {source text : List Char} {tokens : List Token}
    {stack : List (Char × Nat)} (hreads : Reads source tokens text)
    (hopen : LeavesOpen tokens stack) :
    (∃ all, Reads source all [] ∧ Nested all) ∨ ∃ cause offset, FirstFault source cause offset := by
  match text with
  | [] =>
    match stack with
    | [] => exact .inl ⟨tokens, hreads, hopen.nested_of_nil⟩
    | (c, offset) :: stack => exact .inr ⟨_, _, .opener hreads hopen⟩
  | c :: text =>
    -- With one more token there is less left to read.
    have hnext {token : Token} {rest : List Char} {stack' : List (Char × Nat)}
      (hstarts : StartsWith (c :: text) token rest)
        (hopen' : LeavesOpen (tokens ++ [token]) stack') :
        (∃ all, Reads source all [] ∧ Nested all) ∨
            ∃ cause offset, FirstFault source cause offset := by
      have hshorter := hstarts.length_lt
      exact nested_or_firstFault (hreads.append (.cons hstarts (.nil rest))) hopen'
    by_cases hcomment : c = '/' ∧ text.head? = some '*'
    · obtain ⟨rfl, hhead⟩ := hcomment
      obtain ⟨tail, rfl⟩ := List.head?_eq_some_iff.1 hhead
      cases hended : (scanBlockComment tail).ended with
      | false =>
        refine .inr ⟨_, _, .comment hreads hopen fun hmark => ?_⟩
        rw [ended_scanBlockComment_iff.2 hmark] at hended
        contradiction
      | true =>
        obtain ⟨body, hstarts⟩ := exists_startsWith_comment hended
        exact hnext hstarts (hopen.append (.singleton nofun))
    rw [not_and] at hcomment
    cases hquote : isQuote c with
    | true =>
      cases hended : (scanString c text).ended with
      | false =>
        refine .inr ⟨_, _, .string hreads hopen hquote ?_⟩
        rintro body rest hbody rfl
        rw [scanString_of_isQuote hquote hbody] at hended
        contradiction
      | true =>
        obtain ⟨body, -, hstarts⟩ := exists_startsWith_string hquote hended
        exact hnext hstarts (hopen.append (.singleton nofun))
    | false =>
      have hstarts : StartsWith (c :: text) (.char c) text := .char hquote hcomment
      cases hopener : isOpener c with
      | true => exact hnext hstarts (hopen.push hopener)
      | false =>
        cases hcloser : openerOf? c with
        | none =>
          have hother : ∀ d, Token.char c = .char d → isBracket d = false := by
            rintro d ⟨rfl⟩
            exact isBracket_eq_false_iff.2 ⟨hopener, hcloser⟩
          exact hnext hstarts (hopen.append (.singleton hother))
        | some opener =>
          by_cases htop : stack.head?.map Prod.fst = some opener
          · match stack, htop with
            | (top, offset) :: stack, htop =>
              obtain rfl : top = opener := Option.some.inj htop
              exact hnext hstarts (hopen.pop hcloser)
          · exact .inr ⟨_, _, .closer hreads hopen hcloser htop⟩
termination_by text.length
decreasing_by exact hshorter

/-- **The checker accepts its grammar and points at the first fault.** It accepts a stylesheet
exactly if all of it can be read and its brackets are nested. It reports a fault exactly if that is
the first one in reading order, at the location of the character that it is about: the first one of
a comment or string that does not end, the closing bracket that does not belong to the innermost
open one, or the innermost bracket that is open at the end. -/
theorem check_iff_nested_firstFault (source : List Char) :
    (check source = .ok () ↔ ∃ tokens, Reads source tokens [] ∧ Nested tokens) ∧
    ∀ fault, check source = .error fault ↔
      ∃ offset, FirstFault source fault.cause offset ∧
        fault.location = Location.ofOffset source offset := by
  have htotal := nested_or_firstFault (.nil source) (.none .nil)
  refine ⟨⟨fun hok => ?_, fun ⟨tokens, hreads, hnested⟩ => check_of_nested hreads hnested⟩,
    fun fault => ⟨fun hfault => ?_, fun ⟨offset, hfirst, hplace⟩ => ?_⟩⟩
  · rcases htotal with hnested | ⟨cause, offset, hfirst⟩
    · exact hnested
    · cases hfirst.check_eq.symm.trans hok
  · rcases htotal with ⟨tokens, hreads, hnested⟩ | ⟨cause, offset, hfirst⟩
    · cases (check_of_nested hreads hnested).symm.trans hfault
    · obtain rfl := Except.error.inj (hfirst.check_eq.symm.trans hfault)
      exact ⟨offset, hfirst, rfl⟩
  · rw [hfirst.check_eq, ← hplace]

end Triptych.Stylesheet
