import Triptych.Document.Slots
import Triptych.Json.Value
import Triptych.Lint.Rule
import Triptych.Pipeline.Error
import Triptych.Text.Quoted

/-!
# The journal of a compile

A compile reports what it does as a list of `Event`s. They are data: the outcome of a compile does
not depend on who reads them. `Event.record?` turns an event into the record that a log shows.

`Traced` is a computation that may fail and keeps a journal. Its outcome alone, without the journal,
is that of the same computation without one; this is what `result_bind` says.
-/

namespace Triptych

open Lint

/-- One call of a capability. -/
structure Call where
  /-- The language of the capability itself, whatever name it is registered under. -/
  language : String
  kind : SectionRole
  document : String
  /-- The text that it was given. -/
  source : String
  /-- The section that the text was taken from. -/
  origin : Section

/-- Something that happens during a compile. -/
inductive Event where
  | started
  | parsed (sections : Nat)
  | validated
  /-- A section was left out. -/
  | placement (remark : Placement)
  /-- The linter had findings, this many. -/
  | linted (count : Nat)
  /-- One finding of the linter. -/
  | finding (document : String) (diagnostic : Diagnostic)
  /-- A section has no capability; its text is passed on. -/
  | passedThrough (kind : SectionRole) (language : Option String)
  /-- A section goes to the capability for a language. -/
  | compiling (kind : SectionRole) (language : String)
  /-- A capability that keeps a record was called. -/
  | called (call : Call)
  /-- A section is done and has this many bytes. -/
  | compiled (kind : SectionRole) (bytes : Nat)
  /-- Compiled markup of this many bytes goes into the logic. -/
  | injecting (language : String) (markupBytes : Nat)
  | pluginStarted (plugin source target : String)
  /-- A stylesheet from `source` was made smaller; the sizes are in bytes. -/
  | minified (source : String) (before after : Nat) (percent : String)
  | completed (hasStyle : Bool)
  | failed (error : CompileError)

/-! ### Log records -/

/-- How important a log record is. -/
inductive LogLevel where
  | debug
  | info
  | warn
deriving DecidableEq, Repr

/-- The level as logs name it. -/
def LogLevel.display : LogLevel → String
  | .debug => "debug"
  | .info => "info"
  | .warn => "warn"

/-- A record of a log: named values, one of which may be a message. -/
structure LogRecord where
  level : LogLevel
  fields : List (String × Json)

/-- The stage of a compile that ends with a compiled section of this kind. -/
def SectionRole.stage (kind : SectionRole) : String :=
  kind.display ++ "-compiled"

/-- The record of a remark about a section. -/
def Placement.record : Placement → LogRecord
  | .ignored s =>
    ⟨.debug, [("message", .string "Ignoring unknown top-level section"), ("name", .string s.name),
      ("line", .nat s.location.line)]⟩
  | .replaced kind before after =>
    ⟨.debug, [("message", .string "Later section replaces earlier one"),
      ("kind", .string kind.display),
      ("discarded_line", .nat before.location.line), ("kept_line", .nat after.location.line)]⟩

/-- The record of a finding. -/
def findingRecord (document : String) (d : Diagnostic) : LogRecord :=
  ⟨.warn, [("message", .string d.message), ("document", .string document), ("rule", .string d.rule),
    ("line", .nat d.location.line), ("column", .nat d.location.column)]⟩

/-- The record that a log shows for an event. Findings are in it only if they are not collected
elsewhere; calls never are. -/
def Event.record? (showFindings : Bool) : Event → Option LogRecord
  | .started => some ⟨.info, [("message", .string "Starting compile")]⟩
  | .parsed sections => some ⟨.debug, [("stage", .string "parsed"), ("sections", .nat sections)]⟩
  | .validated => some ⟨.debug, [("stage", .string "validated")]⟩
  | .placement remark => some remark.record
  | .linted count =>
    some ⟨.debug, [("message", .string "Markup lint findings"), ("count", .nat count)]⟩
  | .finding document diagnostic =>
    if showFindings then some (findingRecord document diagnostic) else none
  | .passedThrough kind language =>
    some ⟨.debug, [("message", .string "No capability registered, passing through"),
      ("kind", .string kind.display), ("language", .string (Text.showOption language))]⟩
  | .compiling kind language =>
    some ⟨.debug, [("message", .string "Compiling section"), ("kind", .string kind.display),
      ("language", .string language)]⟩
  | .called _ => none
  | .compiled kind bytes => some ⟨.debug, [("stage", .string kind.stage), ("bytes", .nat bytes)]⟩
  | .injecting language markupBytes =>
    some ⟨.debug, [("message", .string "Injecting compiled markup"), ("language", .string language),
      ("markup_bytes", .nat markupBytes)]⟩
  | .pluginStarted plugin source target =>
    some ⟨.debug, [("message", .string "Running post-processing plugin"),
      ("plugin", .string plugin),
      ("from", .string source), ("to", .string target)]⟩
  | .minified source before after percent =>
    some ⟨.debug, [("message", .string s!"Minified stylesheet ({percent}% smaller)"),
      ("from", .string source), ("original", .nat before), ("minified", .nat after)]⟩
  | .completed hasStyle =>
    some ⟨.info, [("message", .string "Compile complete"), ("stage", .string "done"),
      ("has_style", .bool hasStyle)]⟩
  | .failed error =>
    some ⟨.warn, [("message", .string "Compile failed"), ("stage", .string "failed"),
      ("error", .string error.message)]⟩

/-- The finding that an event reports. -/
def Event.finding? : Event → Option (String × Diagnostic)
  | .finding document diagnostic => some (document, diagnostic)
  | _ => none

/-- The call that an event records. -/
def Event.call? : Event → Option Call
  | .called call => some call
  | _ => none

/-! ### Computations with a journal -/

/-- A computation that may fail, with its journal. -/
structure Traced (α : Type) where
  result : Except CompileError α
  events : List Event

namespace Traced

variable {α β : Type}

/-- Enters an event. -/
def note (event : Event) : Traced Unit :=
  ⟨.ok (), [event]⟩

/-- Enters several events. -/
def noteAll (events : List Event) : Traced Unit :=
  ⟨.ok (), events⟩

/-- Fails. -/
def fail (error : CompileError) : Traced α :=
  ⟨.error error, []⟩

/-- A computation without a journal. -/
def ofExcept (result : Except CompileError α) : Traced α :=
  ⟨result, []⟩

/-- The outcome of a step that may fail in its own way. -/
def orFail {ε : Type} (result : Except ε α) (wrap : ε → CompileError) : Traced α :=
  ⟨result.mapError wrap, []⟩

/-- One computation after another; the second does not start if the first fails. -/
def andThen (first : Traced α) (next : α → Traced β) : Traced β :=
  match first.result with
  | .error error => ⟨.error error, first.events⟩
  | .ok value => ⟨(next value).result, first.events ++ (next value).events⟩

instance : Monad Traced where
  pure value := ⟨.ok value, []⟩
  bind := andThen

/-- What the stages return when the journal is left out of account. -/
@[simp] theorem result_pure (value : α) : (pure value : Traced α).result = .ok value := rfl

@[simp] theorem result_note (event : Event) : (note event).result = .ok () := rfl

@[simp] theorem result_noteAll (events : List Event) : (noteAll events).result = .ok () := rfl

@[simp] theorem result_fail (error : CompileError) :
    (fail error : Traced α).result = .error error := rfl

@[simp] theorem result_ofExcept (result : Except CompileError α) :
    (ofExcept result).result = result := rfl

@[simp] theorem result_orFail {ε : Type} (result : Except ε α) (wrap : ε → CompileError) :
    (orFail result wrap).result = result.mapError wrap := rfl

/-- The outcome of a sequence is the sequence of the outcomes. -/
@[simp] theorem result_bind (first : Traced α) (next : α → Traced β) :
    (first >>= next).result = first.result >>= fun value => (next value).result := by
  change (andThen first next).result = _
  unfold andThen
  cases first.result <;> rfl

end Traced

end Triptych
