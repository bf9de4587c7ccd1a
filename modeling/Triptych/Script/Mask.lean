import Triptych.Script.Literal
import Triptych.Text.Position

/-!
# Masking literals

To find a place in the code of a script, and not in its comments, strings, regular expressions or
templates, the script is cut into segments that are literals and segments that are code, and the
literals are filled with spaces. The mask has as many bytes as the script, so an offset found in it
is one of the script.

Unlike the checker this reading never fails: a literal without an end reaches to where the checker
gives up.
-/

namespace Triptych.Script

open Text

/-- A piece of a script: a literal, or characters of code. -/
structure Segment where
  isLiteral : Bool
  chars : List Char
deriving DecidableEq, Repr

/-- The open braces after a piece of a template literal: one more, which leads back into the
template, if code follows. -/
def bracesAfter (ending : TemplateEnd) (braces : List Bool) : List Bool :=
  match ending with
  | .substitution => true :: braces
  | _ => braces

/-- The segments of a text. Of each open brace, innermost first, it is known whether it leads back
into a template literal. -/
def segments (braces : List Bool) (previous : Option Char) : List Char → List Segment
  | [] => []
  | c :: text =>
    have := step_rest_le previous c text
    have := scanTemplate_rest_le text
    let s := step previous c text
    match s.piece with
    | .blank => ⟨false, s.chars⟩ :: segments braces previous s.rest
    | .comment _ => ⟨true, s.chars⟩ :: segments braces previous s.rest
    | .regex _ => ⟨true, s.chars⟩ :: segments braces (some c) s.rest
    | .string _ => ⟨true, s.chars⟩ :: segments braces (some c) s.rest
    | .template ending => ⟨true, s.chars⟩ :: segments (bracesAfter ending braces) (some c) s.rest
    | .plain =>
      if c = '{' then ⟨false, [c]⟩ :: segments (false :: braces) (some c) text
      else if c = '}' then
        match braces with
        | true :: braces =>
          let scan := scanTemplate text
          ⟨true, c :: scan.read⟩ :: segments (bracesAfter scan.ending braces) (some c) scan.rest
        | braces => ⟨false, [c]⟩ :: segments braces.tail (some c) text
      else ⟨false, [c]⟩ :: segments braces (some c) text
termination_by text => text.length
decreasing_by all_goals (simp only [List.length_cons]; omega)

/-- The spans of the literals among segments that start at `pos`. -/
def literalSpans (pos : Nat) : List Segment → List Span
  | [] => []
  | segment :: rest =>
    let stop := pos + byteLength segment.chars
    if segment.isLiteral then ⟨pos, stop⟩ :: literalSpans stop rest else literalSpans stop rest

/-- A segment with its characters, or with a space for each byte of a literal. -/
def Segment.masked (segment : Segment) : List Char :=
  if segment.isLiteral then List.replicate (byteLength segment.chars) ' ' else segment.chars

/-- The script with its literals filled with spaces. -/
def mask (source : List Char) : List Char :=
  (segments [] none source).flatMap Segment.masked

end Triptych.Script
