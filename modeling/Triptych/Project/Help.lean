import Triptych.Project.Arguments

/-!
# Help texts

The help text of a command is made from what it understands: its purpose, how it is called, and a
table each of its operands and options.
-/

namespace Triptych.Project

open Text

/-- The name of a value in a help text: `out-dir` becomes `OUT_DIR`. -/
def placeholder (name : String) : String :=
  String.ofList (name.toList.map fun c => if c = '-' then '_' else c.toUpper)

/-- The rows of a table: entries and, in a column of their own, their explanations. -/
def tableRows (entries : List (String × String)) : List String :=
  let width := entries.foldl (fun width entry => max width entry.1.length) 0
  entries.map fun (entry, explanation) =>
    "  " ++ entry ++ String.ofList (List.replicate (width - entry.length + 2) ' ') ++ explanation

/-- An explanation with the default that it mentions. -/
def explained (about : String) (default? : Option String) : String :=
  match default? with
  | some value => s!"{about} [default: {value}]"
  | none => about

/-- The entry of an option in a table. -/
def OptionSpec.entry (option : OptionSpec) : String × String :=
  let short := match option.short? with
    | some letter => s!"-{letter}, "
    | none => "    "
  let value := if option.takesValue then s!" <{placeholder option.name}>" else ""
  (short ++ "--" ++ option.name ++ value, explained option.about option.default?)

/-- The entry of an operand in a table. -/
def OperandSpec.entry (operand : OperandSpec) : String × String :=
  (s!"[{placeholder operand.name}]", explained operand.about (some operand.default))

/-- A table with a heading, after an empty line; nothing for no entries. -/
def titledTable (title : String) (entries : List (String × String)) : List String :=
  if entries.isEmpty then [] else "" :: title :: tableRows entries

/-- The commands as entries of a table. -/
def commandEntries : List (String × String) :=
  CommandName.all.map (fun command => (command.word, command.spec.about)) ++
    [("help", "Print this message or the help of the given subcommand(s)")]

/-- The lines of the help about a command, or about all of them. -/
def helpLines (topic : Option CommandName) : List String :=
  let spec := (topic.map CommandName.spec).getD generalSpec
  let operands := spec.operand?.toList
  let operandUsage := String.join (operands.map fun operand => s!" [{placeholder operand.name}]")
  let commandUsage := if topic.isNone then " <COMMAND>" else ""
  [spec.about, "", s!"Usage: {spec.usage} [OPTIONS]{commandUsage}{operandUsage}"] ++
    titledTable "Commands:" (if topic.isNone then commandEntries else []) ++
    titledTable "Arguments:" (operands.map OperandSpec.entry) ++
    titledTable "Options:" (spec.options.map OptionSpec.entry)

/-- The line that tells the version of the program. -/
def versionLine : String :=
  "weave 0.1.0"

end Triptych.Project
