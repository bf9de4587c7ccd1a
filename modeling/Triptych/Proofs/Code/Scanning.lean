import Triptych.Code.Literal
import Triptych.Proofs.Text.Search

/-!
# What the readers of comments and strings read

The two readers that stylesheets and scripts share, described without them. A comment goes up to the
first mark that ends it, where the star of its opening mark does not count
(`ended_scanBlockComment_iff`, `endsFirst_iff`). A string goes up to the first quote that no
backslash takes along, and a line feed that no backslash takes along breaks it (`StringBody`,
`ended_scanString_iff`).

The rule for backslashes is that of all literals but comments, so proofs about literals go by
`escapeInduction`.
-/

namespace Triptych.Code

open Text

/-! ### Comments -/

/-- At an end mark the comment ends. -/
theorem scanBlockComment_end (text : List Char) :
    scanBlockComment ('*' :: '/' :: text) = ⟨true, ['*', '/'], text⟩ := by
  simp [scanBlockComment, breakOn]

/-- The comment goes on behind a character that does not start its end mark. -/
theorem scanBlockComment_char {c : Char} {text : List Char}
    (hend : c = '*' → text.head? ≠ some '/') :
    scanBlockComment (c :: text) = (scanBlockComment text).after [c] := by
  -- `breakOn` looks for both characters of the end at once.
  have hmark : ¬ ['*', '/'].isPrefixOf (c :: text) = true := by
    rw [List.isPrefixOf_iff_prefix]
    rintro ⟨tail, htail⟩
    obtain ⟨rfl, rfl⟩ := List.cons.inj htail
    exact hend rfl rfl
  unfold scanBlockComment
  rw [breakOn, if_neg hmark]
  cases breakOn ['*', '/'] text <;> rfl

/-- What is read of a comment that ends is its body, up to the first end mark, and the mark. -/
theorem scanBlockComment_of_endsFirst {body : List Char} (h : EndsFirst ['*', '/'] body)
    (text : List Char) :
    scanBlockComment (body ++ '*' :: '/' :: text) = ⟨true, body ++ ['*', '/'], text⟩ := by
  have hbreak : breakOn ['*', '/'] ((body ++ ['*', '/']) ++ text) =
      some (body, ['*', '/'] ++ text) := breakOn_append h text
  rw [List.append_assoc] at hbreak
  unfold scanBlockComment
  rw [show '*' :: '/' :: text = ['*', '/'] ++ text from rfl, hbreak]
  rfl

/-- A comment that ends has a body before its end, with no end mark in it. -/
theorem endsFirst_of_scanBlockComment {text : List Char}
    (h : (scanBlockComment text).ended = true) :
    ∃ body, EndsFirst ['*', '/'] body ∧
      text = body ++ '*' :: '/' :: (scanBlockComment text).rest := by
  unfold scanBlockComment at h ⊢
  split at h
  next body found hbreak =>
    obtain ⟨happend, tail, rfl⟩ := breakOn_spec hbreak
    exact ⟨body, endsFirst_of_breakOn hbreak, happend.symm⟩
  next => contradiction

/-- **A comment ends** if an end mark stands anywhere in the text. -/
theorem ended_scanBlockComment_iff {text : List Char} :
    (scanBlockComment text).ended = true ↔ ['*', '/'] <:+: text := by
  have hnone := @breakOn_eq_none_iff ['*', '/'] text (by decide)
  unfold scanBlockComment
  cases hbreak : breakOn ['*', '/'] text with
  | none => exact iff_of_false Bool.false_ne_true (hnone.1 hbreak)
  | some parts =>
    refine iff_of_true rfl ?_
    rw [hbreak] at hnone
    exact Decidable.not_not.1 (mt hnone.2 nofun)

/-- A mark that ends a comment is the first one if none stands in the body, the star of the mark
itself included. -/
theorem endsFirst_iff {body : List Char} :
    EndsFirst ['*', '/'] body ↔ ¬ ['*', '/'] <:+: body ++ ['*'] := by
  induction body with
  | nil => exact iff_of_true rfl (by decide)
  | cons c body ih =>
    -- A mark at the front takes two characters, so the slash of the end mark is none of them.
    have hprefix : ['*', '/'].isPrefixOf (c :: (body ++ ['*', '/'])) = true ↔
        ['*', '/'] <+: c :: (body ++ ['*']) := by
      rw [List.isPrefixOf_iff_prefix]
      cases body with
      | nil => simp
      | cons d body => simp [List.cons_prefix_cons]
    have hstep : EndsFirst ['*', '/'] (c :: body) ↔
        ¬ ['*', '/'].isPrefixOf (c :: (body ++ ['*', '/'])) = true ∧ EndsFirst ['*', '/'] body := by
      unfold EndsFirst
      rw [List.cons_append, breakOn]
      split
      next h => simp [h]
      next h => simp [h]
    rw [hstep, List.cons_append, List.infix_cons_iff, not_or, hprefix, ih]

/-! ### Strings -/

/-- Induction along a literal: a backslash goes with the character after it. -/
theorem escapeInduction {motive : List Char → Prop} (nil : motive []) (lone : motive ['\\'])
    (escape : ∀ c text, motive text → motive ('\\' :: c :: text))
    (char : ∀ c text, c ≠ '\\' → motive text → motive (c :: text)) : ∀ text, motive text
  | [] => nil
  | c :: text =>
    if hc : c = '\\' then
      match text with
      | [] => hc ▸ lone
      | d :: text => hc ▸ escape d text (escapeInduction nil lone escape char text)
    else char c text hc (escapeInduction nil lone escape char text)

/-- The inside of a string with the quote `mark`: a backslash takes the next character along, and
neither the quote nor a line feed stands there without one. -/
inductive StringBody (mark : Char) : List Char → Prop
  | nil : StringBody mark []
  | escape (c : Char) {body : List Char} : StringBody mark body →
      StringBody mark ('\\' :: c :: body)
  | char {c : Char} {body : List Char} :
      c ≠ '\\' → c ≠ mark → c ≠ '\n' → StringBody mark body → StringBody mark (c :: body)

/-- What a character does without a backslash before it. -/
theorem scanString_char {mark c : Char} (hc : c ≠ '\\') (text : List Char) :
    scanString mark (c :: text) =
      if c = '\n' then ⟨false, [c], text⟩
      else if c = mark then ⟨true, [c], text⟩
      else (scanString mark text).after [c] := by
  rw [scanString] <;> simp_all

/-- What is read of a string that ends is its body and the quote. -/
theorem scanString_of_stringBody {mark : Char} {body : List Char} (hescape : mark ≠ '\\')
    (hline : mark ≠ '\n') (h : StringBody mark body) (text : List Char) :
    scanString mark (body ++ mark :: text) = ⟨true, body ++ [mark], text⟩ := by
  induction h with
  | nil =>
    rw [List.nil_append, scanString_char hescape, if_neg hline, if_pos rfl]
    rfl
  | escape c _ ih =>
    rw [List.cons_append, List.cons_append, scanString, ih]
    rfl
  | char hc hquote hcline _ ih =>
    rw [List.cons_append, scanString_char hc, if_neg hcline, if_neg hquote, ih]
    rfl

/-- A string that ends has a body before its end. -/
theorem stringBody_of_scanString {mark : Char} {text : List Char}
    (h : (scanString mark text).ended = true) :
    ∃ body, StringBody mark body ∧ text = body ++ mark :: (scanString mark text).rest := by
  induction text using escapeInduction with
  | nil | lone => contradiction
  -- A backslash and what follows it belong to the body, whatever that is.
  | escape c text ih =>
    rw [scanString] at h ⊢
    obtain ⟨body, hbody, htext⟩ := ih h
    refine ⟨'\\' :: c :: body, .escape c hbody, ?_⟩
    rw [List.cons_append, List.cons_append]
    exact congrArg _ (congrArg _ htext)
  | char c text hescape ih =>
    rw [scanString_char hescape] at h ⊢
    -- A bare line feed would have ended the scan without an end mark.
    by_cases hline : c = '\n'
    · rw [if_pos hline] at h
      contradiction
    rw [if_neg hline] at h ⊢
    by_cases hmark : c = mark
    · rw [if_pos hmark, hmark]
      exact ⟨[], .nil, rfl⟩
    · rw [if_neg hmark] at h ⊢
      obtain ⟨body, hbody, htext⟩ := ih h
      exact ⟨c :: body, .char hescape hmark hline hbody, congrArg _ htext⟩

/-- **A string ends** if a body of a string and the quote stand at the start of the text. -/
theorem ended_scanString_iff {mark : Char} {text : List Char} (hescape : mark ≠ '\\')
    (hline : mark ≠ '\n') :
    (scanString mark text).ended = true ↔
      ∃ body rest, StringBody mark body ∧ text = body ++ mark :: rest := by
  constructor
  · intro h
    obtain ⟨body, hbody, htext⟩ := stringBody_of_scanString h
    exact ⟨body, _, hbody, htext⟩
  · rintro ⟨body, rest, hbody, rfl⟩
    rw [scanString_of_stringBody hescape hline hbody]

end Triptych.Code
