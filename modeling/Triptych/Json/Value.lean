import Triptych.Text.Basic
import Triptych.Number.Binary64
import Triptych.SortedMap

/-!
# JSON values

`Json` is the value that configuration files are made of. An object keeps its members in the order
in which they were written and keeps repeated keys too, because a repeated setting is an error and a
repeated language is not; `Json.normalize` forgets both.
-/

namespace Triptych

/-- A number of a JSON text: a whole number that fits into 64 bits, or a double with its sign. -/
inductive JsonNumber where
  | whole (value : Int)
  | real (negative : Bool) (magnitude : Binary64)
deriving DecidableEq, Repr

/-- A JSON value. -/
inductive Json where
  | null
  | bool (value : Bool)
  | number (value : JsonNumber)
  | string (value : String)
  | array (items : List Json)
  | object (members : List (String × Json))
deriving Repr, Inhabited

namespace Json

/-- A whole number. -/
def nat (n : Nat) : Json :=
  .number (.whole n)

/-- A text, or `null` when there is none. -/
def ofOption (text : Option String) : Json :=
  match text with
  | none => .null
  | some text => .string text

/-- The value of the last member with this key; nothing for a value that is not an object. -/
def get? (json : Json) (key : String) : Option Json :=
  match json with
  | .object members => (members.reverse.find? fun member => member.1 == key).map Prod.snd
  | _ => none

/-! ### Key order -/

mutual

/-- The value with the keys of every object sorted by code point and, of repeated keys, only the
last value kept. -/
def normalize : Json → Json
  | .array items => .array (normalizeItems items)
  | .object members =>
    .object (SortedMap.ofEntries (normalizeMembers members))
  | json => json

/-- `normalize` on every item. -/
def normalizeItems : List Json → List Json
  | [] => []
  | item :: items => normalize item :: normalizeItems items

/-- `normalize` on the value of every member. -/
def normalizeMembers : List (String × Json) → List (String × Json)
  | [] => []
  | (key, value) :: members => (key, normalize value) :: normalizeMembers members

end

end Json

end Triptych
