import Triptych.Code.Fault
import Triptych.Script.Literal

/-!
# Checking scripts

A script is in order when its comments and literals end and its brackets outside them are nested.
The code inside a template literal counts as standing between brackets of its own, which `${` opens
and the brace that leads back into the template closes; so the stack of open brackets also holds the
open templates.

The last significant character is the last one that is neither blank nor in a comment, where a
literal counts with its first character.
-/

namespace Triptych.Script

open Text Code

/-- What is open while a script is read. -/
inductive Opener where
  | brace
  | paren
  | bracket
  /-- Code inside a template literal; its place is that of the template's first backtick. -/
  | substitution
deriving DecidableEq, Repr

/-- What an opening bracket opens. -/
def openerOf? : Char → Option Opener
  | '{' => some .brace
  | '(' => some .paren
  | '[' => some .bracket
  | _ => none

/-- True of a closing bracket. -/
def isCloser (c : Char) : Bool :=
  c == '}' || c == ')' || c == ']'

/-- True when a closing bracket ends what is open. The end of code inside a template literal is not
an end of this kind, since the template goes on. -/
def closes : Char → Opener → Bool
  | '}', .brace => true
  | ')', .paren => true
  | ']', .bracket => true
  | _, _ => false

/-- The mistake of leaving something open. -/
def unclosed (opener : Opener) (place : Location) : Fault :=
  match opener with
  | .brace => ⟨.unclosed '{', place⟩
  | .paren => ⟨.unclosed '(', place⟩
  | .bracket => ⟨.unclosed '[', place⟩
  | .substitution => ⟨.unterminatedTemplate, place⟩

/-- Checks the text from the location `loc` on. The stack holds what is open with its place,
innermost first. -/
def checkFrom (stack : List (Opener × Location)) (previous : Option Char) (loc : Location) :
    List Char → Except Fault Unit
  | [] =>
    match stack with
    | [] => .ok ()
    | (opener, place) :: _ => .error (unclosed opener place)
  | c :: text =>
    have := step_rest_le previous c text
    have := scanTemplate_rest_le text
    let s := step previous c text
    let next := loc.advanceAll s.chars
    match s.piece with
    | .blank => checkFrom stack previous next s.rest
    | .comment true => checkFrom stack previous next s.rest
    | .comment false => .error ⟨.unterminatedComment, loc⟩
    | .regex true => checkFrom stack (some c) next s.rest
    | .regex false => .error ⟨.unterminatedRegex, loc⟩
    | .string true => checkFrom stack (some c) next s.rest
    | .string false => .error ⟨.unterminatedString, loc⟩
    | .template .closed => checkFrom stack (some c) next s.rest
    | .template .substitution => checkFrom ((.substitution, loc) :: stack) (some c) next s.rest
    | .template .missing => .error ⟨.unterminatedTemplate, loc⟩
    | .plain =>
      match openerOf? c with
      | some opener => checkFrom ((opener, loc) :: stack) (some c) (loc.advance c) text
      | none =>
        if isCloser c then
          match stack with
          | [] => .error ⟨.unexpected c, loc⟩
          | (opener, place) :: stack =>
            if closes c opener then checkFrom stack (some c) (loc.advance c) text
            else if c = '}' && opener = .substitution then
              let scan := scanTemplate text
              let next := loc.advanceAll (c :: scan.read)
              match scan.ending with
              | .closed => checkFrom stack (some c) next scan.rest
              | .substitution => checkFrom ((.substitution, place) :: stack) (some c) next scan.rest
              | .missing => .error ⟨.unterminatedTemplate, place⟩
            else .error ⟨.unexpected c, loc⟩
        else checkFrom stack (some c) (loc.advance c) text
termination_by text => text.length
decreasing_by all_goals (simp only [List.length_cons]; omega)

/-- Checks a script. -/
def check (source : List Char) : Except Fault Unit :=
  checkFrom [] none {} source

end Triptych.Script
