import Triptych.Code.Literal

/-!
# Literals of a script

Besides comments and strings a script has regular expressions and template literals. A slash starts
a regular expression only where a value may start, which is told from the last significant character
before it. A template literal is read up to its closing backtick or up to `${`, after which code
follows; the brace that ends that code leads back into the template.
-/

namespace Triptych.Script

open Text Code

/-- The characters after which a slash starts a regular expression and does not divide. -/
def regexOpeners : List Char :=
  ['(', ',', '=', ':', '[', '!', '&', '|', '?', '{', '}', ';', '+', '-', '*', '%', '<', '>', '~',
    '^']

/-- True when a slash starts a regular expression, given the last significant character before
it. -/
def canPrecedeRegex (previous : Option Char) : Bool :=
  match previous with
  | none => true
  | some c => regexOpeners.contains c

/-- Reads a regular expression of which the first slash has been taken off. Between square brackets
a slash does not end it; a line feed breaks it and is read too. -/
def scanRegex (inClass : Bool) : List Char → Scan
  | [] => ⟨false, [], []⟩
  | ['\\'] => ⟨false, ['\\'], []⟩
  | '\\' :: c :: text => (scanRegex inClass text).after ['\\', c]
  | c :: text =>
    if c = '[' then (scanRegex true text).after [c]
    else if c = ']' then (scanRegex false text).after [c]
    else if c = '/' && !inClass then ⟨true, [c], text⟩
    else if c = '\n' then ⟨false, [c], text⟩
    else (scanRegex inClass text).after [c]

/-- How a piece of a template literal ends. -/
inductive TemplateEnd where
  /-- At the closing backtick. -/
  | closed
  /-- At `${`, after which code follows. -/
  | substitution
  /-- At the end of the script. -/
  | missing
deriving DecidableEq, Repr

/-- A piece of a template literal that was read. -/
structure TemplateScan where
  ending : TemplateEnd
  read : List Char
  rest : List Char

/-- The scan with characters put in front of what was read. -/
def TemplateScan.after (scan : TemplateScan) (chars : List Char) : TemplateScan :=
  { scan with read := chars ++ scan.read }

/-- Reads a template literal from inside it. -/
def scanTemplate : List Char → TemplateScan
  | [] => ⟨.missing, [], []⟩
  | ['\\'] => ⟨.missing, ['\\'], []⟩
  | '\\' :: c :: text => (scanTemplate text).after ['\\', c]
  | '$' :: '{' :: text => ⟨.substitution, ['$', '{'], text⟩
  | c :: text => if c = '`' then ⟨.closed, [c], text⟩ else (scanTemplate text).after [c]

/-- What a scan has read and what it has left make up the text. -/
theorem scanRegex_append (inClass : Bool) (text : List Char) :
    (scanRegex inClass text).read ++ (scanRegex inClass text).rest = text := by
  fun_induction scanRegex inClass text <;> simp_all [Scan.after]

theorem scanTemplate_append (text : List Char) :
    (scanTemplate text).read ++ (scanTemplate text).rest = text := by
  fun_induction scanTemplate text <;> simp_all [TemplateScan.after]

/-- What it has left is not longer than the text. -/
theorem scanRegex_rest_le (inClass : Bool) (text : List Char) :
    (scanRegex inClass text).rest.length ≤ text.length := by
  have h := congrArg List.length (scanRegex_append inClass text)
  simp only [List.length_append] at h
  omega

theorem scanTemplate_rest_le (text : List Char) :
    (scanTemplate text).rest.length ≤ text.length := by
  have h := congrArg List.length (scanTemplate_append text)
  simp only [List.length_append] at h
  omega

/-! ### One step -/

/-- What a step of a reader of scripts meets. A brace that leads back into a template literal is met
as plain: only the reader knows which one does. -/
inductive Piece where
  | blank
  | comment (ended : Bool)
  | regex (ended : Bool)
  | string (ended : Bool)
  | template (ending : TemplateEnd)
  | plain
deriving DecidableEq, Repr

/-- A step: what was met, its characters and the rest of the text. -/
structure Step where
  piece : Piece
  chars : List Char
  rest : List Char

/-- The step that starts with the character `c` before `text`, given the last significant
character. -/
def step (previous : Option Char) (c : Char) (text : List Char) : Step :=
  if isBlank c then ⟨.blank, [c], text⟩
  else if c = '/' && text.head? == some '/' then
    ⟨.comment true, c :: text.takeWhile (· != '\n'), text.dropWhile (· != '\n')⟩
  else if c = '/' && text.head? == some '*' then
    let scan := scanBlockComment text.tail
    ⟨.comment scan.ended, c :: '*' :: scan.read, scan.rest⟩
  else if c = '/' && canPrecedeRegex previous then
    let scan := scanRegex false text
    ⟨.regex scan.ended, c :: scan.read, scan.rest⟩
  else if c = '"' || c = '\'' then
    let scan := scanString c text
    ⟨.string scan.ended, c :: scan.read, scan.rest⟩
  else if c = '`' then
    let scan := scanTemplate text
    ⟨.template scan.ending, c :: scan.read, scan.rest⟩
  else ⟨.plain, [c], text⟩

/-- The characters of a step and the rest make up the text. -/
theorem step_append (previous : Option Char) (c : Char) (text : List Char) :
    (step previous c text).chars ++ (step previous c text).rest = c :: text := by
  unfold step
  split
  · rfl
  split
  · simp
  split
  next h =>
    obtain ⟨tail, rfl⟩ : ∃ tail, text = '*' :: tail := by
      cases text <;> simp_all
    simp [scanBlockComment_append]
  split
  · simp [scanRegex_append]
  split
  · simp [scanString_append]
  split
  · simp [scanTemplate_append]
  · rfl

/-- A step takes at least one character. -/
theorem step_rest_le (previous : Option Char) (c : Char) (text : List Char) :
    (step previous c text).rest.length ≤ text.length := by
  have happend := congrArg List.length (step_append previous c text)
  have hne : (step previous c text).chars ≠ [] := by
    unfold step
    repeat' split
    all_goals simp
  have hpos := List.length_pos_iff.2 hne
  simp only [List.length_append, List.length_cons] at happend
  omega

end Triptych.Script
