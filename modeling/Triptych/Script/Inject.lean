import Triptych.Script.Mask
import Triptych.Json.Quoted

/-!
# Weaving markup into a script

A script hosts compiled markup as the property `template` of the object that it exports by default,
bare or wrapped in `defineComponent(`. The property is put right after the opening brace, on the
same line, so that the lines of the script keep their numbers. Only code is searched for that
object.
-/

namespace Triptych.Script

open Text

/-- The text after `word`, if it starts with it. -/
def after? (word text : List Char) : Option (List Char) :=
  if word.isPrefixOf text then some (text.drop word.length) else none

/-- The text after a brace, if the text starts with one. -/
def afterBrace? : List Char → Option (List Char)
  | '{' :: text => some text
  | _ => none

/-- The text after the opening brace of a wrapped object, if the text starts with the wrapping
call. -/
def afterWrapper? (text : List Char) : Option (List Char) := do
  let text ← after? "defineComponent".toList text
  match trimStart text with
  | '(' :: text => afterBrace? (trimStart text)
  | _ => none

/-- The text after the opening brace of the default exported object, if the text starts with the
export. -/
def afterExport? (text : List Char) : Option (List Char) := do
  let text ← after? "export".toList text
  match text with
  | c :: text =>
    if isBlank c then
      let text ← after? "default".toList (trimStart text)
      let text := trimStart text
      (afterBrace? text).orElse fun _ => afterWrapper? text
    else none
  | [] => none

/-- The offset just after the opening brace of the default exported object, in a text that starts at
`pos`. -/
def findObject (pos : Nat) : List Char → Option Nat
  | [] => none
  | c :: text =>
    match afterExport? (c :: text) with
    | some rest => some (pos + (byteLength (c :: text) - byteLength rest))
    | none => findObject (pos + c.utf8Size) text

/-- The property that is put into the object. -/
def templateProperty (markup : List Char) : List Char :=
  "template: ".toList ++ Json.quote markup ++ [',']

/-- Puts the markup into the default exported object of a script; nothing if the script has none. -/
def inject? (logic markup : List Char) : Option (List Char) :=
  (findObject 0 (mask logic)).map fun offset =>
    takeBytes offset logic ++ templateProperty markup ++ dropBytes offset logic

/-- Why markup could not be put into a script, in words. -/
def injectFailure : String :=
  "Cannot inject template: no `export default { ... }` component object found"

end Triptych.Script
