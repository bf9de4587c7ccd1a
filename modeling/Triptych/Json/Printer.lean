import Triptych.Json.Value
import Triptych.Json.Quoted

/-!
# Writing JSON

Two layouts of one format: `Json.compact` puts no blanks anywhere, `Json.pretty` gives each item and
member a line of its own and indents by two spaces a level. Members are written in the order of the
value; sort them first with `Json.normalize` where an order matters.
-/

namespace Triptych

namespace JsonNumber

/-- A positive double: its fewest digits, in positional notation while the point falls between the
fifth place after it and the sixteenth digit before it, else with an exponent, which has a sign. -/
def positiveText (x : Binary64) : String :=
  let (digits, power) := x.shortest
  let text := Nat.toDigits 10 digits
  let significant := Text.dropEndWhile (· == '0') text
  let zeros := text.length - significant.length
  let power := power + zeros
  let point : Int := significant.length + power
  if 0 ≤ power && point ≤ 16 then
    String.ofList (significant ++ List.replicate power.toNat '0') ++ ".0"
  else if 0 < point && point ≤ 16 then
    String.ofList (significant.take point.toNat) ++ "." ++ String.ofList
      (significant.drop point.toNat)
  else if -5 < point && point ≤ 0 then
    "0." ++ String.ofList (List.replicate (-point).toNat '0' ++ significant)
  else
    let fraction := significant.drop 1
    let mantissa := String.ofList (significant.take 1) ++
      (if fraction.isEmpty then "" else "." ++ String.ofList fraction)
    let sign := if 0 < point then "+" else ""
    s!"{mantissa}e{sign}{point - 1}"

/-- The text of a number. A double keeps a mark that it is one: a fraction or an exponent. -/
def text : JsonNumber → String
  | .whole value => toString value
  | .real negative magnitude =>
    let body := if magnitude.mantissa = 0 then "0.0" else positiveText magnitude
    if negative then "-" ++ body else body

end JsonNumber

namespace Json

/-- The text as a JSON string. -/
def quoted (text : String) : String :=
  String.ofList (quote text.toList)

/-- The written form of a value that holds no others. -/
def scalarText : Json → String
  | .null => "null"
  | .bool value => if value then "true" else "false"
  | .number value => value.text
  | .string value => quoted value
  | .array _ => "[]"
  | .object _ => "{}"

mutual

/-- The value on one line, without blanks. -/
def compact : Json → String
  | .array items => "[" ++ ",".intercalate (compactItems items) ++ "]"
  | .object members => "\x7b" ++ ",".intercalate (compactMembers members) ++ "\x7d"
  | json => scalarText json

/-- `compact` of every item. -/
def compactItems : List Json → List String
  | [] => []
  | item :: items => compact item :: compactItems items

/-- `key:value` for every member. -/
def compactMembers : List (String × Json) → List String
  | [] => []
  | (key, value) :: members => (quoted key ++ ":" ++ compact value) :: compactMembers members

end

/-- Lines between brackets, each indented one level deeper than `indent`. -/
def block (opening closing : String) (indent : Nat) (lines : List String) : String :=
  if lines.isEmpty then opening ++ closing
  else
    let pad := String.ofList (List.replicate (2 * indent) ' ')
    let body := ",\n".intercalate (lines.map fun line => pad ++ "  " ++ line)
    opening ++ "\n" ++ body ++ "\n" ++ pad ++ closing

mutual

/-- The value over several lines, its first line at the given level of indentation. -/
def prettyAt (indent : Nat) : Json → String
  | .array items => block "[" "]" indent (prettyItems (indent + 1) items)
  | .object members => block "\x7b" "\x7d" indent (prettyMembers (indent + 1) members)
  | json => scalarText json

/-- `prettyAt` of every item. -/
def prettyItems (indent : Nat) : List Json → List String
  | [] => []
  | item :: items => prettyAt indent item :: prettyItems indent items

/-- `key: value` for every member. -/
def prettyMembers (indent : Nat) : List (String × Json) → List String
  | [] => []
  | (key, value) :: members =>
    (quoted key ++ ": " ++ prettyAt indent value) :: prettyMembers indent members

end

/-- The value over several lines, two spaces a level. -/
def pretty (json : Json) : String :=
  prettyAt 0 json

end Json

end Triptych
