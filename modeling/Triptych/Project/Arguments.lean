import Triptych.Project.Compile
import Triptych.Project.Init
import Triptych.Project.Lint

/-!
# Command line arguments

A command line is a list of words. The first word that is not an option names a command; the words
after it are options of that command and at most one operand. An option has a long name,
`--out-dir`, and mostly a short one, `-o`. One that takes a value finds it after `=` (`--out-dir=x`,
`-o=x`), directly after its short name (`-ox`), or in the next word. Short names can share a word
(`-vf`). After the word `--` every word is an operand.

Which options there are is data (`CommandSpec`); `readWords` applies it to words and
`parseArguments` makes a `Request` of the result. Words are read from left to right, and the first
one that is wrong or asks for help decides.
-/

namespace Triptych.Project

/-! ### What can be said -/

/-- What an option takes. -/
inductive OptionKind where
  /-- Nothing: it is there or not. -/
  | flag
  /-- A text. -/
  | text
  /-- A path, which must not be empty. -/
  | path
  /-- Nothing: it asks for help instead. -/
  | help
  /-- Nothing: it asks for the version instead. -/
  | version
deriving DecidableEq, Repr

/-- An option. -/
structure OptionSpec where
  short? : Option Char
  name : String
  kind : OptionKind
  /-- What it is for. -/
  about : String
  /-- Its value when it is not given. -/
  default? : Option String := none
deriving DecidableEq, Repr

/-- An operand, which is a path. -/
structure OperandSpec where
  name : String
  about : String
  default : String
deriving DecidableEq, Repr

/-- What words a command understands. -/
structure CommandSpec where
  /-- The words that lead to it. -/
  usage : String
  /-- What it does. -/
  about : String
  options : List OptionSpec
  operand? : Option OperandSpec := none
deriving Repr

/-- The commands. -/
inductive CommandName where
  | init
  | compile
  | lint
deriving DecidableEq, Repr

/-- The option that every command has and that can stand before the command as well. -/
def verboseOption : OptionSpec :=
  ⟨some 'v', "verbose", .flag, "Log pipeline stages (overridden by WEAVE_LOG)", none⟩

/-- The option that asks for help. -/
def helpOption : OptionSpec :=
  ⟨some 'h', "help", .help, "Print help", none⟩

/-- The option that asks for the version. -/
def versionOption : OptionSpec :=
  ⟨some 'V', "version", .version, "Print version", none⟩

namespace CommandName

/-- All commands. -/
def all : List CommandName :=
  [.init, .compile, .lint]

/-- The word for a command. -/
def word : CommandName → String
  | .init => "init"
  | .compile => "compile"
  | .lint => "lint"

/-- The command that a word names. -/
def ofWord? (text : String) : Option CommandName :=
  all.find? fun command => command.word == text

/-- What words a command understands. -/
def spec : CommandName → CommandSpec
  | .init =>
    { usage := "weave init"
      about := "Initialize a new Weave project"
      options :=
        [ ⟨some 's', "src-dir", .text, "Source directory", some "src"⟩
        , ⟨some 'f', "force", .flag, "Force overwrite existing config", none⟩
        , verboseOption, helpOption ] }
  | .compile =>
    { usage := "weave compile"
      about := "Compile documents to JavaScript modules"
      options :=
        [ ⟨none, "stdout", .flag, "Output to stdout instead of files", none⟩
        , ⟨some 'o', "out-dir", .path, "Output directory (overrides config)", none⟩
        , verboseOption, helpOption ]
      operand? := some
        ⟨"path", "Document or project directory to compile (defaults to current directory)", "."⟩ }
  | .lint =>
    { usage := "weave lint"
      about := "Check markup sections for common mistakes"
      options :=
        [ { verboseOption with about := "Show all diagnostics including info level" }
        , ⟨some 'f', "format", .text, "Output format (text, json)", some "text"⟩
        , helpOption ]
      operand? := some ⟨"input", "Input document or directory to lint", "."⟩ }

end CommandName

/-- What can stand before the command. -/
def generalSpec : CommandSpec :=
  { usage := "weave"
    about := "Command line interface for compiling and linting Weave documents"
    options := [verboseOption, helpOption, versionOption] }

/-! ### Why reading ends early -/

/-- Why words are not understood. -/
inductive UsageError where
  | noCommand
  | unknownCommand (word : String)
  | unknownOption (word : String)
  | missingValue (name : String)
  | unwantedValue (name : String)
  | repeatedOption (name : String)
  | unwantedOperand (word : String)
deriving DecidableEq, Repr

/-- The error in words. -/
def UsageError.message : UsageError → String
  | .noCommand => "a command is needed"
  | .unknownCommand word => s!"unrecognized subcommand '{word}'"
  | .unknownOption word => s!"unexpected argument '{word}' found"
  | .missingValue name => s!"a value is required for '{name}' but none was supplied"
  | .unwantedValue name => s!"unexpected value for '{name}' found"
  | .repeatedOption name => s!"the argument '{name}' cannot be used multiple times"
  | .unwantedOperand word => s!"unexpected argument '{word}' found"

/-- Why words are not read to their end. -/
inductive Interruption where
  | misuse (error : UsageError)
  /-- Help is asked for. -/
  | help
  /-- The version is asked for. -/
  | version
deriving DecidableEq, Repr

/-! ### Reading words -/

/-- What the words after a command say. -/
structure Given where
  /-- The options with their values; a flag has none. -/
  options : List (String × Option String) := []
  operand : Option String := none
deriving DecidableEq, Repr

namespace Given

/-- True when an option is there. -/
def has (given : Given) (name : String) : Bool :=
  given.options.any fun entry => entry.1 == name

/-- The value of an option. -/
def value? (given : Given) (name : String) : Option String :=
  (given.options.find? fun entry => entry.1 == name).bind Prod.snd

/-- Adds an option, which must not be there yet. -/
def addOption (given : Given) (name : String) (value : Option String) : Except Interruption Given :=
  if given.has name then .error (.misuse (.repeatedOption s!"--{name}"))
  else .ok { given with options := given.options ++ [(name, value)] }

/-- Adds an option that takes no value, or does what it asks for. -/
def addFlag (given : Given) (option : OptionSpec) : Except Interruption Given :=
  match option.kind with
  | .help => .error .help
  | .version => .error .version
  | _ => given.addOption option.name none

/-- Adds an option with a value. -/
def addValue (given : Given) (option : OptionSpec) (value : String) : Except Interruption Given :=
  if option.kind = .path && value.isEmpty then
    .error (.misuse (.missingValue s!"--{option.name}"))
  else given.addOption option.name (some value)

/-- Adds an operand, if the command takes one and has none. -/
def addOperand (spec : CommandSpec) (given : Given) (word : String) : Except Interruption Given :=
  match spec.operand?, given.operand with
  | some operand, none =>
    if word.isEmpty then .error (.misuse (.missingValue operand.name))
    else .ok { given with operand := some word }
  | _, _ => .error (.misuse (.unwantedOperand word))

end Given

/-- True of an option that takes a value. -/
def OptionSpec.takesValue (option : OptionSpec) : Bool :=
  option.kind = .text || option.kind = .path

/-- What a word looks like. -/
inductive Word where
  /-- A long option, with the value after `=`. -/
  | long (name : String) (value : Option String)
  /-- Short options in one word. -/
  | short (letters : List Char)
  | operand
deriving DecidableEq, Repr

/-- Tells what a word looks like. The word `-` is an operand. -/
def Word.ofText (word : String) : Word :=
  match word.toList with
  | '-' :: '-' :: body =>
    let name := String.ofList (body.takeWhile (· != '='))
    match body.dropWhile (· != '=') with
    | [] => .long name none
    | _ :: value => .long name (some (String.ofList value))
  | '-' :: letter :: letters => .short (letter :: letters)
  | _ => .operand

/-- What a word did: it said all that it wanted, or its last option waits for a value. -/
inductive Progress where
  | complete (given : Given)
  | awaiting (given : Given) (option : OptionSpec)

/-- Reads a long option. -/
def readLong (spec : CommandSpec) (given : Given) (name : String) (value : Option String) :
    Except Interruption Progress :=
  match spec.options.find? fun option => option.name == name with
  | none => .error (.misuse (.unknownOption s!"--{name}"))
  | some option =>
    match option.takesValue, value with
    | false, none => (given.addFlag option).map .complete
    | false, some _ => .error (.misuse (.unwantedValue s!"--{name}"))
    | true, some value => (given.addValue option value).map .complete
    | true, none => .ok (.awaiting given option)

/-- Reads short options that share a word. -/
def readShort (spec : CommandSpec) (given : Given) : List Char → Except Interruption Progress
  | [] => .ok (.complete given)
  | letter :: letters =>
    match spec.options.find? fun option => option.short? == some letter with
    | none => .error (.misuse (.unknownOption s!"-{letter}"))
    | some option =>
      match option.takesValue, letters with
      | false, letters => do readShort spec (← given.addFlag option) letters
      | true, [] => .ok (.awaiting given option)
      | true, '=' :: value => (given.addValue option (String.ofList value)).map .complete
      | true, value => (given.addValue option (String.ofList value)).map .complete

/-- Reads a word that is not the value of the option before it. -/
def readWord (spec : CommandSpec) (given : Given) (word : String) : Except Interruption Progress :=
  match Word.ofText word with
  | .long name value => readLong spec given name value
  | .short letters => readShort spec given letters
  | .operand => (given.addOperand spec word).map .complete

/-- Reads the words after a command. -/
def readWords (spec : CommandSpec) : Progress → List String → Except Interruption Given
  | .complete given, [] => .ok given
  | .awaiting _ option, [] => .error (.misuse (.missingValue s!"--{option.name}"))
  | .complete given, word :: words =>
    if word = "--" then words.foldlM (Given.addOperand spec) given
    else do readWords spec (← readWord spec given word) words
  | .awaiting given option, word :: words =>
    if Word.ofText word = .operand then do
      readWords spec (.complete (← given.addValue option word)) words
    else .error (.misuse (.missingValue s!"--{option.name}"))

/-! ### Requests -/

/-- What a command line asks for. -/
inductive Request where
  | init (request : InitRequest)
  | compile (request : CompileRequest)
  | lint (request : LintRequest)
  /-- Help about a command, or about all of them. -/
  | help (topic : Option CommandName)
  /-- The version of the program. -/
  | version
deriving DecidableEq, Repr

namespace Request

/-- The request that the words after a command make. The flag before the command counts like one
after it. -/
def ofGiven (command : CommandName) (verbose : Bool) (given : Given) : Request :=
  match command with
  | .init => .init { srcDir := (given.value? "src-dir").getD "src", force := given.has "force" }
  | .compile =>
    .compile
      { path := given.operand.getD "."
        toConsole := given.has "stdout"
        outDir := given.value? "out-dir" }
  | .lint =>
    .lint
      { path := given.operand.getD "."
        verbose := verbose || given.has verboseOption.name
        format := (given.value? "format").getD "text" }

/-- The request that an interruption makes, if it is one. -/
def ofInterruption (topic : Option CommandName) : Interruption → Except UsageError Request
  | .misuse error => .error error
  | .help => .ok (.help topic)
  | .version => .ok .version

end Request

/-- Understands the words after a command. -/
def parseCommand (command : CommandName) (verbose : Bool) (words : List String) :
    Except UsageError Request :=
  match readWords command.spec (.complete {}) words with
  | .ok given => .ok (.ofGiven command verbose given)
  | .error interruption => Request.ofInterruption (some command) interruption

/-- Understands the words after `help`. -/
def parseTopic : List String → Except UsageError Request
  | [] => .ok (.help none)
  | word :: words =>
    match CommandName.ofWord? word, words with
    | none, _ => .error (.unknownCommand word)
    | some command, [] => .ok (.help (some command))
    | some _, word :: _ => .error (.unknownCommand word)

/-- Understands a command line; `leading` is what stood before the words that are left. -/
def parseFrom (leading : Given) : List String → Except UsageError Request
  | [] => .error .noCommand
  | word :: words =>
    match CommandName.ofWord? word with
    | some command => parseCommand command (leading.has verboseOption.name) words
    | none =>
      if word = "help" then parseTopic words
      else if Word.ofText word = .operand then .error (.unknownCommand word)
      else
        match readWord generalSpec leading word with
        | .ok (.complete leading) => parseFrom leading words
        | .ok (.awaiting _ option) => .error (.missingValue s!"--{option.name}")
        | .error interruption => Request.ofInterruption none interruption

/-- Understands a command line. -/
def parseArguments (words : List String) : Except UsageError Request :=
  parseFrom {} words

end Triptych.Project
