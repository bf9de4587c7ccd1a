import Triptych.Lint.Rule

/-!
# Important declarations in `style` attributes

A declaration is a property name, a colon and a value that reaches at most to the next semicolon; it
is important when `!`, blanks and `important` occur in the value. The rule reads the value of the
first `style` attribute from left to right. At each place it looks for a name before a colon and
takes the value as far as the last important mark; it goes on after that mark, so no two findings
overlap.
-/

namespace Triptych.Lint.Important

open Text Markup

/-- True of the characters of a property name. -/
def isPropertyChar (c : Char) : Bool :=
  isAsciiLetter c || c == '-'

/-- The text after an important mark, if it starts with one. -/
def afterMark? : List Char → Option (List Char)
  | '!' :: text =>
    let text := trimStart text
    if "important".toList.isPrefixOf text then some (text.drop 9) else none
  | _ => none

/-- The text after the last important mark before the next semicolon. -/
def afterLastMark? : List Char → Option (List Char)
  | [] => none
  | c :: text =>
    if c = ';' then none
    else
      match afterLastMark? text with
      | some rest => some rest
      | none => afterMark? (c :: text)

/-- The name of the important declaration that the text starts with, and the text after its last
mark. -/
def declaration? (text : List Char) : Option (List Char × List Char) :=
  let name := text.takeWhile isPropertyChar
  if name.isEmpty then none
  else
    match trimStart (text.dropWhile isPropertyChar) with
    | ':' :: value => (afterLastMark? value).map fun rest => (name, rest)
    | _ => none

/-- Each of the three readers takes at least one character, so the search for declarations ends. -/
theorem afterMark?_length {text rest : List Char} (h : afterMark? text = some rest) :
    rest.length < text.length := by
  unfold afterMark? at h
  split at h
  next text =>
    simp only at h
    split at h
    · obtain rfl := Option.some.inj h
      have := length_trimStart_le text
      simp only [List.length_drop, List.length_cons]
      omega
    · contradiction
  next => contradiction

theorem afterLastMark?_length {text rest : List Char} (h : afterLastMark? text = some rest) :
    rest.length < text.length := by
  induction text with
  | nil => contradiction
  | cons c text ih =>
    unfold afterLastMark? at h
    split at h
    · contradiction
    · split at h
      next hrec =>
        obtain rfl := Option.some.inj h
        exact Nat.lt_succ_of_lt (ih hrec)
      next => exact afterMark?_length h

theorem declaration?_length {text name rest : List Char}
    (h : declaration? text = some (name, rest)) :
    rest.length < text.length := by
  simp only [declaration?] at h
  split at h
  · contradiction
  · split at h
    next value heq =>
      simp only [Option.map_eq_some_iff, Prod.mk.injEq] at h
      obtain ⟨rest', hmark, -, rfl⟩ := h
      have hvalue := congrArg List.length heq
      have htrim := length_trimStart_le (text.dropWhile isPropertyChar)
      have hdrop : (text.dropWhile isPropertyChar).length ≤ text.length :=
        (List.dropWhile_sublist isPropertyChar).length_le
      have hlt := afterLastMark?_length hmark
      simp only [List.length_cons] at hvalue
      omega
    next => contradiction

/-- The names of the important declarations of a style, in order. -/
def importantNames (style : List Char) : List (List Char) :=
  match style with
  | [] => []
  | c :: text =>
    match h : declaration? (c :: text) with
    | some (name, rest) =>
      have := declaration?_length h
      name :: importantNames rest
    | none => importantNames text
termination_by style.length
decreasing_by all_goals (simp only [List.length_cons] at *; omega)

/-- The finding about one important declaration. -/
def finding (span : Span) (name : List Char) : Diagnostic :=
  let property := String.ofList name
  .warning "no-important"
    s!"Avoid using !important in '{property}'. It makes styles harder to override and maintain."
    s!"Move '{property}' into the style section and rely on selector specificity instead" span

/-- The rule. -/
def rule : Rule where
  name := "no-important"
  description := "Disallow !important in inline style attributes"
  checkElement element :=
    match (element.tag.attribute? "style").bind (·.value) with
    | none => []
    | some style => (importantNames style.toList).map (finding element.span)

end Triptych.Lint.Important
