import Triptych.Proofs.Code.Scanning
import Triptych.Proofs.Text.Indentation
import Triptych.Script.Literal

/-!
# How the literals of a script are read

Four readers go through the inside of a comment, a string, a regular expression or a template
literal. Each looks only so far ahead, and none pays attention to blanks at the start of a line.
This module says so, for each of them:

* what is read before the end of the text is read the same way whatever comes later
  (`settled_scanString` and its siblings);
* a text without some of its indentation is read to the same end, and what is left is again such a
  text (`unmoved_scanString` and its siblings).

What a regular expression is, without its reader, is said first (`RegexBody`,
`ended_scanRegex_iff`); comments and strings are described where stylesheets share them.

Strings, regular expressions and templates share the rule that a backslash takes the next character
along, so the proofs go by `escapeInduction`.
-/

namespace Triptych.Script

open Text Code

/-! ### One character of a literal -/

/-- What a character does without a backslash before it. -/
theorem scanRegex_char {inClass : Bool} {c : Char} (hc : c ≠ '\\') (text : List Char) :
    scanRegex inClass (c :: text) =
      if c = '[' then (scanRegex true text).after [c]
      else if c = ']' then (scanRegex false text).after [c]
      else if c = '/' && !inClass then ⟨true, [c], text⟩
      else if c = '\n' then ⟨false, [c], text⟩
      else (scanRegex inClass text).after [c] := by
  rw [scanRegex] <;> simp_all

/-- Before a dollar sign without a brace, and before every other character, a template literal goes
on. -/
theorem scanTemplate_char {c : Char} (hc : c ≠ '\\') {text : List Char}
    (hopen : c = '$' → text.head? ≠ some '{') :
    scanTemplate (c :: text) =
      if c = '`' then ⟨.closed, [c], text⟩ else (scanTemplate text).after [c] := by
  rw [scanTemplate]
  · simp [hc]
  · simp [hc]
  · rintro tail rfl rfl
    exact hopen rfl rfl

/-! ### Regular expressions -/

/-- The inside of a regular expression, from outside of any class (`false`) or from inside one. A
backslash takes the next character along; without one a slash stands in classes only, and a line
feed nowhere. The end is outside of any class, and classes do not nest. -/
inductive RegexBody : Bool → List Char → Prop
  | nil : RegexBody false []
  | escape {inClass : Bool} (c : Char) {body : List Char} :
      RegexBody inClass body → RegexBody inClass ('\\' :: c :: body)
  | opens {inClass : Bool} {body : List Char} : RegexBody true body →
      RegexBody inClass ('[' :: body)
  | closes {inClass : Bool} {body : List Char} : RegexBody false body →
      RegexBody inClass (']' :: body)
  | char {inClass : Bool} {c : Char} {body : List Char} : c ∉ ['\\', '[', ']', '\n'] →
      (c = '/' → inClass = true) → RegexBody inClass body → RegexBody inClass (c :: body)

/-- What is read of a regular expression that ends is its body and the slash. -/
theorem scanRegex_of_regexBody {inClass : Bool} {body : List Char} (h : RegexBody inClass body)
    (text : List Char) :
    scanRegex inClass (body ++ '/' :: text) = ⟨true, body ++ ['/'], text⟩ := by
  induction h with
  | nil => rfl
  | escape c _ ih =>
    rw [List.cons_append, List.cons_append, scanRegex, ih]
    rfl
  | opens _ ih =>
    rw [List.cons_append, scanRegex_char (by decide), if_pos rfl, ih]
    rfl
  | closes _ ih =>
    rw [List.cons_append, scanRegex_char (by decide), if_neg (by decide), if_pos rfl, ih]
    rfl
  | @char inClass c body hc hslash _ ih =>
    obtain ⟨hescape, hopen, hclose, hline⟩ : c ≠ '\\' ∧ c ≠ '[' ∧ c ≠ ']' ∧ c ≠ '\n' := by
      simpa using hc
    -- Outside of a class a slash would end the expression.
    have hgoes : ¬ (decide (c = '/') && !inClass) = true := by
      rw [Bool.and_eq_true, decide_eq_true_iff, Bool.not_eq_true']
      rintro ⟨hc, hout⟩
      exact Bool.false_ne_true (hout.symm.trans (hslash hc))
    rw [List.cons_append, scanRegex_char hescape, if_neg hopen, if_neg hclose, if_neg hgoes,
      if_neg hline, ih]
    rfl

/-- A regular expression that ends has a body before its end. -/
theorem regexBody_of_scanRegex {inClass : Bool} {text : List Char}
    (h : (scanRegex inClass text).ended = true) :
    ∃ body, RegexBody inClass body ∧ text = body ++ '/' :: (scanRegex inClass text).rest := by
  -- Two characters at a time where the first is a backslash. The branches are those of the scanner:
  -- a class starts, a class ends, the expression ends, it breaks off, or it goes on.
  induction text using escapeInduction generalizing inClass with
  | nil | lone => contradiction
  | escape c text ih =>
    rw [scanRegex] at h ⊢
    obtain ⟨body, hbody, htext⟩ := ih h
    exact ⟨'\\' :: c :: body, .escape c hbody, congrArg (['\\', c] ++ ·) htext⟩
  | char c text hescape ih =>
    rw [scanRegex_char hescape] at h ⊢
    by_cases hopen : c = '['
    · rw [if_pos hopen] at h ⊢
      obtain ⟨body, hbody, htext⟩ := ih h
      exact ⟨c :: body, hopen ▸ .opens hbody, congrArg (c :: ·) htext⟩
    rw [if_neg hopen] at h ⊢
    by_cases hclose : c = ']'
    · rw [if_pos hclose] at h ⊢
      obtain ⟨body, hbody, htext⟩ := ih h
      exact ⟨c :: body, hclose ▸ .closes hbody, congrArg (c :: ·) htext⟩
    rw [if_neg hclose] at h ⊢
    by_cases hslash : (decide (c = '/') && !inClass) = true
    · rw [if_pos hslash]
      obtain ⟨rfl, rfl⟩ : c = '/' ∧ inClass = false := by simpa using hslash
      exact ⟨[], .nil, rfl⟩
    rw [if_neg hslash] at h ⊢
    by_cases hline : c = '\n'
    · rw [if_pos hline] at h
      contradiction
    · rw [if_neg hline] at h ⊢
      obtain ⟨body, hbody, htext⟩ := ih h
      refine ⟨c :: body, .char (by simp [*]) (fun hc => ?_) hbody, congrArg (c :: ·) htext⟩
      simpa [hc] using hslash

/-- **A regular expression ends** if a body of one and the slash stand at the start of the text. -/
theorem ended_scanRegex_iff {text : List Char} :
    (scanRegex false text).ended = true ↔
      ∃ body rest, RegexBody false body ∧ text = body ++ '/' :: rest := by
  constructor
  · intro h
    obtain ⟨body, hbody, htext⟩ := regexBody_of_scanRegex h
    exact ⟨body, _, hbody, htext⟩
  · rintro ⟨body, rest, hbody, rfl⟩
    rw [scanRegex_of_regexBody hbody]

/-! ### What comes later does not matter -/

/-- What `scan` reads before the end of the text, it reads whatever comes later. -/
def Settled (scan : List Char → Scan) (text : List Char) : Prop :=
  (scan text).rest ≠ [] → ∀ more, ((scan text).read ++ more).head? = text.head? ∧
    scan ((scan text).read ++ more) = { scan text with rest := more }

section Settled

variable {scan scan' : List Char → Scan} {ended : Bool} {text : List Char}

/-- A scan that stops at once, behind some characters. -/
theorem settled_of_stop (c : Char) (run : List Char)
    (hscan : ∀ tail, scan (c :: (run ++ tail)) = ⟨ended, c :: run, tail⟩) :
    Settled scan (c :: (run ++ text)) := by
  intro _ more
  rw [hscan text]
  exact ⟨rfl, hscan more⟩

/-- A scan that goes on as another one behind some characters. What is read at once may depend on
the character that comes next. -/
theorem settled_of_after (c : Char) (run : List Char)
    (hscan : ∀ tail, tail.head? = text.head? → scan (c :: (run ++ tail)) =
      (scan' tail).after (c :: run))
    (h : Settled scan' text) : Settled scan (c :: (run ++ text)) := by
  intro hrest more
  rw [hscan text rfl] at hrest ⊢
  -- The character after `c` is the same in both texts, so `c` is scanned alike before each.
  obtain ⟨hhead, hmore⟩ := h hrest more
  have hlong := hscan _ hhead
  rw [hmore] at hlong
  refine ⟨rfl, ?_⟩
  rw [Scan.after, List.append_assoc]
  exact hlong

end Settled

/-- **What a scan reads is settled when it has read it**, for each of the four. -/
theorem settled_scanString (mark : Char) (text : List Char) : Settled (scanString mark) text := by
  induction text using escapeInduction with
  | nil => exact fun h => absurd rfl h
  | lone => exact fun h => absurd rfl h
  | escape c text ih => exact settled_of_after '\\' [c] (fun tail _ => by simp [scanString]) ih
  | char c text hc ih =>
    have hchar := @scanString_char mark c hc
    by_cases hline : c = '\n'
    · exact settled_of_stop c [] fun tail => by rw [List.nil_append, hchar, if_pos hline]
    by_cases hmark : c = mark
    · exact settled_of_stop c [] fun tail => by
        rw [List.nil_append, hchar, if_neg hline, if_pos hmark]
    · exact settled_of_after c []
        (fun tail _ => by rw [List.nil_append, hchar, if_neg hline, if_neg hmark]) ih

theorem settled_scanRegex (inClass : Bool) (text : List Char) :
    Settled (scanRegex inClass) text := by
  induction text using escapeInduction generalizing inClass with
  | nil => exact fun h => absurd rfl h
  | lone => exact fun h => absurd rfl h
  | escape c text ih =>
    exact settled_of_after '\\' [c] (fun tail _ => by simp [scanRegex]) (ih inClass)
  | char c text hc ih =>
    -- In each branch the scanner looks at one character, so more text behind changes nothing.
    have hchar := @scanRegex_char inClass c hc
    by_cases hopen : c = '['
    · exact settled_of_after c [] (fun tail _ => by rw [List.nil_append, hchar, if_pos hopen])
        (ih true)
    by_cases hclose : c = ']'
    · exact settled_of_after c []
        (fun tail _ => by rw [List.nil_append, hchar, if_neg hopen, if_pos hclose])
        (ih false)
    by_cases hslash : (decide (c = '/') && !inClass) = true
    · exact settled_of_stop c [] fun tail => by
        rw [List.nil_append, hchar, if_neg hopen, if_neg hclose, if_pos hslash]
    by_cases hline : c = '\n'
    · exact settled_of_stop c [] fun tail => by
        rw [List.nil_append, hchar, if_neg hopen, if_neg hclose, if_neg hslash, if_pos hline]
    · exact settled_of_after c [] (fun tail _ => by
        rw [List.nil_append, hchar, if_neg hopen, if_neg hclose, if_neg hslash, if_neg hline])
          (ih inClass)

theorem settled_scanBlockComment (text : List Char) : Settled scanBlockComment text := by
  induction text with
  | nil => exact fun h => absurd rfl h
  | cons c text ih =>
    -- A star needs the next character to be told from the end of the comment.
    by_cases hend : c = '*' ∧ text.head? = some '/'
    · obtain ⟨rfl, hhead⟩ := hend
      obtain ⟨tail, rfl⟩ := List.head?_eq_some_iff.1 hhead
      exact settled_of_stop '*' ['/'] scanBlockComment_end
    · rw [not_and] at hend
      refine settled_of_after c [] (fun tail htail => ?_) ih
      exact scanBlockComment_char fun hc => htail ▸ hend hc

/-- A template literal is read by a scan of its own, which ends in more ways. -/
theorem settled_scanTemplate {text : List Char} (h : (scanTemplate text).rest ≠ [])
    (more : List Char) :
    ((scanTemplate text).read ++ more).head? = text.head? ∧
      scanTemplate ((scanTemplate text).read ++ more) =
        { scanTemplate text with rest := more } := by
  induction text using escapeInduction with
  | nil => exact absurd rfl h
  | lone => exact absurd rfl h
  | escape c text ih =>
    rw [scanTemplate] at h ⊢
    simp [TemplateScan.after, scanTemplate, (ih h).2]
  | char c text hc ih =>
    -- The other scans end in one way; a template also ends at a dollar sign and a brace, where an
    -- expression starts.
    by_cases hopen : c = '$' ∧ text.head? = some '{'
    · obtain ⟨rfl, hhead⟩ := hopen
      obtain ⟨tail, rfl⟩ := List.head?_eq_some_iff.1 hhead
      exact ⟨rfl, rfl⟩
    · rw [not_and] at hopen
      rw [scanTemplate_char hc hopen] at h ⊢
      by_cases hclose : c = '`'
      · rw [if_pos hclose, hclose]
        exact ⟨rfl, rfl⟩
      · rw [if_neg hclose] at h ⊢
        obtain ⟨hhead, hmore⟩ := ih h
        refine ⟨rfl, ?_⟩
        rw [TemplateScan.after, List.append_assoc, List.singleton_append,
          scanTemplate_char hc (fun hdollar => hhead ▸ hopen hdollar), if_neg hclose, hmore]
        rfl

/-! ### Indentation does not matter -/

/-- **What `scan` reads does not depend on blanks at the starts of lines**: it comes to the same end
without them, and what is left differs in such blanks alone. -/
def Unmoved (scan : List Char → Scan) (text : List Char) : Prop :=
  ∀ start text', Reindents start text text' →
    (scan text').ended = (scan text).ended ∧ Reindents true (scan text).rest (scan text').rest

section Unmoved

variable {scan scan' : List Char → Scan} {ended : Bool} {c : Char} {text : List Char}

theorem unmoved_nil : Unmoved scan [] := by
  intro start text' h
  cases h
  exact ⟨rfl, .refl _⟩

/-- The scan stops at a character, which is no blank that could be dropped. -/
theorem unmoved_of_stop (hscan : ∀ tail, scan (c :: tail) = ⟨ended, [c], tail⟩)
    (hc : isBlank c = true → c = '\n') : Unmoved scan (c :: text) := by
  intro start text' h
  cases h with
  | keep _ h =>
    rw [hscan, hscan]
    exact ⟨rfl, h.mono (Bool.le_true _)⟩
  | drop hblank hne => exact absurd (hc hblank) hne

/-- The scan goes on behind a character. If this is a blank that may be dropped, it goes on as it
did before. -/
theorem unmoved_of_after
    (hscan : ∀ tail, (c ≠ '\n' → tail.head? = text.head?) →
      scan (c :: tail) = (scan' tail).after [c])
    (hc : isBlank c = true → c ≠ '\n' → scan' = scan) (h : Unmoved scan' text) :
    Unmoved scan (c :: text) := by
  intro start text' hmoved
  rw [hscan text fun _ => rfl]
  cases hmoved with
  | keep _ hkept =>
    -- Unless `c` is a line feed the texts after it start with the same character.
    have hhead (hne : c ≠ '\n') := Reindents.head?_eq (beq_false_of_ne hne ▸ hkept)
    rw [hscan _ hhead]
    exact h _ _ hkept
  -- A blank that is dropped must leave the scan as it was.
  | drop hblank hne hmoved =>
    obtain rfl := hc hblank hne
    exact h _ _ hmoved

/-- A backslash and the character after it are no blanks at the start of a line. -/
theorem unmoved_of_escape (hscan : ∀ tail, scan ('\\' :: c :: tail) = (scan tail).after ['\\', c])
    (h : Unmoved scan text) : Unmoved scan ('\\' :: c :: text) := by
  intro start text' hmoved
  cases hmoved with
  | keep _ hkept =>
    cases hkept with
    | keep _ hkept =>
      rw [hscan, hscan]
      exact h _ _ hkept
  | drop hblank => exact absurd hblank (by decide)

/-- A backslash at the end is not dropped either. -/
theorem unmoved_backslash : Unmoved scan ['\\'] := by
  intro start text' h
  cases h with
  | keep _ hkept =>
    cases hkept
    exact ⟨rfl, .refl _⟩
  | drop hblank => exact absurd hblank (by decide)

end Unmoved

/-- **No scan depends on indentation**, which again is shown for each of the four. -/
theorem unmoved_scanString {mark : Char} (hmark : isBlank mark = false) (text : List Char) :
    Unmoved (scanString mark) text := by
  induction text using escapeInduction with
  | nil => exact unmoved_nil
  | lone => exact unmoved_backslash
  | escape c text ih => exact unmoved_of_escape (fun tail => by simp [scanString]) ih
  | char c text hc ih =>
    have hchar := @scanString_char mark c hc
    by_cases hline : c = '\n'
    · exact unmoved_of_stop (fun tail => by rw [hchar, if_pos hline]) fun _ => hline
    by_cases hend : c = mark
    · refine unmoved_of_stop (fun tail => by rw [hchar, if_neg hline, if_pos hend]) fun hblank => ?_
      rw [hend, hmark] at hblank
      contradiction
    · exact unmoved_of_after (fun tail _ => by rw [hchar, if_neg hline, if_neg hend])
        (fun _ _ => rfl) ih

theorem unmoved_scanRegex (inClass : Bool) (text : List Char) :
    Unmoved (scanRegex inClass) text := by
  induction text using escapeInduction generalizing inClass with
  | nil => exact unmoved_nil
  | lone => exact unmoved_backslash
  | escape c text ih => exact unmoved_of_escape (fun tail => by simp [scanRegex]) (ih inClass)
  | char c text hc ih =>
    have hchar := @scanRegex_char inClass c hc
    -- Brackets change the scan, but they are no blanks, so none of them is dropped.
    by_cases hopen : c = '['
    · refine unmoved_of_after (fun tail _ => by rw [hchar, if_pos hopen]) (fun hblank => ?_)
        (ih true)
      exact absurd hblank (by rw [hopen]; decide)
    by_cases hclose : c = ']'
    · refine unmoved_of_after (fun tail _ => by rw [hchar, if_neg hopen, if_pos hclose])
        (fun hblank => ?_)
        (ih false)
      exact absurd hblank (by rw [hclose]; decide)
    by_cases hslash : (decide (c = '/') && !inClass) = true
    · refine unmoved_of_stop (fun tail => by rw [hchar, if_neg hopen, if_neg hclose, if_pos hslash])
        fun hblank => ?_
      obtain ⟨rfl, -⟩ : c = '/' ∧ inClass = false := by simpa using hslash
      exact absurd hblank (by decide)
    by_cases hline : c = '\n'
    · exact unmoved_of_stop
        (fun tail => by rw [hchar, if_neg hopen, if_neg hclose, if_neg hslash, if_pos hline])
          fun _ => hline
    · exact unmoved_of_after
        (fun tail _ => by rw [hchar, if_neg hopen, if_neg hclose, if_neg hslash, if_neg hline])
        (fun _ _ => rfl) (ih inClass)

theorem unmoved_scanBlockComment (text : List Char) : Unmoved scanBlockComment text := by
  induction text with
  | nil => exact unmoved_nil
  | cons c text ih =>
    by_cases hend : c = '*' ∧ text.head? = some '/'
    · obtain ⟨rfl, hhead⟩ := hend
      obtain ⟨tail, rfl⟩ := List.head?_eq_some_iff.1 hhead
      intro start text' h
      -- The star is kept, and the slash after it does not start a line.
      cases h with
      | keep _ h =>
        cases h with
        | keep _ h =>
          rw [scanBlockComment_end, scanBlockComment_end]
          exact ⟨rfl, h.mono (Bool.le_true _)⟩
      | drop hblank => exact absurd hblank (by decide)
    · rw [not_and] at hend
      refine unmoved_of_after (fun tail htail => scanBlockComment_char fun hc => ?_)
        (fun _ _ => rfl) ih
      rw [htail (by rw [hc]; decide)]
      exact hend hc

/-- Nor does the scan of template literals. -/
theorem unmoved_scanTemplate {start : Bool} {text text' : List Char}
    (h : Reindents start text text') :
    (scanTemplate text').ending = (scanTemplate text).ending ∧
      Reindents true (scanTemplate text).rest (scanTemplate text').rest := by
  induction text using escapeInduction generalizing start text' with
  | nil =>
    cases h
    exact ⟨rfl, .refl _⟩
  | lone =>
    cases h with
    | keep _ h =>
      cases h
      exact ⟨rfl, .refl _⟩
    | drop hblank => exact absurd hblank (by decide)
  | escape c text ih =>
    cases h with
    | keep _ h =>
      cases h with
      | keep _ h =>
        rw [scanTemplate, scanTemplate]
        exact ih h
    | drop hblank => exact absurd hblank (by decide)
  | char c text hc ih =>
    by_cases hopen : c = '$' ∧ text.head? = some '{'
    · obtain ⟨rfl, hhead⟩ := hopen
      obtain ⟨tail, rfl⟩ := List.head?_eq_some_iff.1 hhead
      cases h with
      | keep _ h =>
        cases h with
        | keep _ h => exact ⟨rfl, h.mono (Bool.le_true _)⟩
      | drop hblank => exact absurd hblank (by decide)
    rw [not_and] at hopen
    rw [scanTemplate_char hc hopen]
    cases h with
    -- A dollar sign is no line feed, so the same character follows it in both texts.
    | @keep _ _ tail' _ h =>
      have hopen' : c = '$' → tail'.head? ≠ some '{' := by
        rintro rfl
        rw [Reindents.head?_eq h]
        exact hopen rfl
      rw [scanTemplate_char hc hopen']
      split
      · exact ⟨rfl, h.mono (Bool.le_true _)⟩
      · exact ih h
    | drop hblank _ h =>
      -- A blank inside a template is part of it and ends nothing.
      have hclose : c ≠ '`' := by
        rintro rfl
        exact absurd hblank (by decide)
      rw [if_neg hclose]
      exact ih h

/-- A line comment ends at a line feed, which no indentation moves. -/
theorem unmoved_dropWhile {start : Bool} {text text' : List Char} (h : Reindents start text text') :
    Reindents true (text.dropWhile (· != '\n')) (text'.dropWhile (· != '\n')) := by
  induction h with
  | nil => exact .nil true
  | keep c h ih =>
    by_cases hc : c = '\n'
    · simp only [hc, List.dropWhile_cons_of_neg, bne_self_eq_false, Bool.false_eq_true,
        not_false_eq_true]
      exact .keep '\n' (hc ▸ h)
    · simpa [hc] using ih
  | drop _ hc _ ih => simpa [hc] using ih

end Triptych.Script
