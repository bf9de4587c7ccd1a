import Triptych.Proofs.Code.Padding
import Triptych.Proofs.Document.Places
import Triptych.Proofs.Markup.RoundTrip
import Triptych.Proofs.Pipeline.Stages

/-!
# Where a section stands does not matter to what it compiles to

The places of sections enter a compile in one way only: empty lines are put above logic and styling,
one for each line above the section in the document. With the capabilities of this library these
lines come out again as the lines of failures and in no other way. So a compile is a compile of the
sections without their places (`Slots.strip`), with the failures of logic and styling moved down
(`CompileError.below`); this is `result_compileSlots`.

Markup is different. It is not padded, and the blanks before it are dropped, so a failure of its
tool carries a line of the markup and not of the document (`markup_failure_keeps_line`). Two
documents that differ in the places of their sections alone therefore compile alike, up to the lines
of failures in logic and styling (`compile_of_strip_eq`).
-/

namespace Triptych

open Text Markup

/-! ### Sections without their places -/

/-- The content without the places of its nodes. -/
def SectionBody.strip : SectionBody → SectionBody
  | .text value => .text value
  | .markup nodes => .markup (stripAll nodes)

/-- The section without its place in the document, and so for all that is in it. -/
def Section.strip (s : Section) : Section :=
  { s with
    attributes := s.attributes.map Attribute.strip, content := s.content.strip, span := ⟨0, 0⟩
    contentSpan := ⟨0, 0⟩, location := {} }

/-- The sections that count, without their places. -/
def Slots.strip (slots : Slots) : Slots :=
  ⟨slots.markup.map Section.strip, slots.logic.map Section.strip, slots.styling.map Section.strip⟩

/-- The language is not told from places. -/
@[simp] theorem Section.language?_strip (s : Section) : s.strip.language? = s.language? := by
  have hvalue : s.strip.attributeValue? "lang" = s.attributeValue? "lang" := by
    have hfirst : s.strip.attribute? "lang" = (s.attribute? "lang").map Attribute.strip :=
      List.find?_map
    unfold attributeValue?
    rw [hfirst]
    cases s.attribute? "lang" <;> rfl
  unfold language?
  rw [hvalue]

/-- The language of a section does not depend on where it stands. -/
@[simp] theorem Section.logicLanguage_strip (s : Section) :
    s.strip.logicLanguage = s.logicLanguage := by
  unfold logicLanguage
  rw [language?_strip]

/-! ### Lines above -/

/-- The error with the failures of tools moved down, by lines that depend on the kind of section. -/
def CompileError.below (lines : SectionRole → Nat) : CompileError → CompileError
  | .tool language kind failure => .tool language kind (failure.moveDown (lines kind))
  | error => error

/-- The empty lines that are put above a section of a kind; none above markup. -/
def Slots.linesAbove (slots : Slots) : SectionRole → Nat
  | .markup => 0
  | .logic => slots.logic.elim 0 fun origin => origin.location.linesAbove
  | .styling => slots.styling.elim 0 fun origin => origin.location.linesAbove

/-- Changing the errors of two stages is changing them in each, and changing them twice is one
change. -/
theorem mapError_bind {ε ε' α β : Type} (f : ε → ε') (first : Except ε α) (next : α → Except ε β) :
    (first >>= next).mapError f = first.mapError f >>= fun value => (next value).mapError f := by
  cases first <;> rfl

theorem mapError_map {ε ε' α β : Type} (f : ε → ε') (g : α → β) (outcome : Except ε α) :
    (outcome.map g).mapError f = (outcome.mapError f).map g := by
  cases outcome <;> rfl

theorem mapError_mapError {ε ε' ε'' α : Type} (f : ε → ε') (g : ε' → ε'') (outcome : Except ε α) :
    (outcome.mapError f).mapError g = outcome.mapError (g ∘ f) := by
  cases outcome <;> rfl

/-- There are two capabilities to be found. -/
theorem Registry.lookup_builtin (language : String) :
    builtin.lookup language = none ∨ builtin.lookup language = some .css ∨
      builtin.lookup language = some .js := by
  have hentries : builtin.entries = [("css", .css), ("js", .js)] := rfl
  unfold lookup SortedMap.get?
  rw [hentries, List.find?_cons, List.find?_cons, List.find?_nil]
  cases ("css" == languageKey language) with
  | true => exact .inr (.inl rfl)
  | false =>
    cases ("js" == languageKey language) with
    | true => exact .inr (.inr rfl)
    | false => exact .inl rfl

namespace Pipeline

variable {p : Pipeline} {lines : SectionRole → Nat}

/-- **A capability sees empty lines above a text only in the lines of its failures**, and it does
not look at the section or the document. -/
theorem result_applyCapability_padAbove (hregistry : p.registry = .builtin) (kind : SectionRole)
    (language : Option String) (origin origin' : Section) (text : List Char)
    (source source' : Source) :
    (p.applyCapability kind language origin (String.ofList (padAbove (lines kind) text))
      source).result =
      (p.applyCapability kind language origin' (String.ofList text) source').result.mapError
        (.below lines) := by
  -- A text that is passed on loses its line breaks at the front, and with them the padding.
  have hpassed :
    String.ofList ((String.ofList (padAbove (lines kind) text)).toList.dropWhile isLineBreak) =
      String.ofList ((String.ofList text).toList.dropWhile isLineBreak) := by
    rw [String.toList_ofList, String.toList_ofList, dropWhile_padAbove (by decide)]
  unfold applyCapability
  rw [hregistry]
  cases language with
  | none => exact congrArg Except.ok hpassed
  | some name =>
    rw [Option.bind_some]
    rcases Registry.lookup_builtin name with hnone | hcss | hjs
    · rw [hnone]
      exact congrArg Except.ok hpassed
    · rw [hcss]
      change (compileStylesheet _).mapError _ = ((compileStylesheet _).mapError _).mapError _
      rw [compileStylesheet_padAbove, mapError_mapError, mapError_mapError]
      rfl
    · rw [hjs]
      change (compileScript _ _).mapError _ = ((compileScript _ _).mapError _).mapError _
      rw [compileScript_padAbove, mapError_mapError, mapError_mapError]
      rfl

/-- **Each stage gives the same without the place of the section**, and its failures move down as
the section does. Markup is not padded, so its failures stay. -/
theorem result_compileMarkup_strip (hregistry : p.registry = .builtin) (hlines : lines .markup = 0)
    (origin : Section) (source source' : Source) :
    (p.compileMarkup origin source).result =
      (p.compileMarkup origin.strip source').result.mapError (.below lines) := by
  -- Markup is not padded, which is to say that no lines are put above it.
  have htext : markupText origin =
      String.ofList (padAbove (lines .markup) (markupText origin).toList) := by
    rw [hlines, padAbove, List.replicate_zero, List.nil_append, String.ofList_toList]
  rw [result_compileMarkup, result_compileMarkup, mapError_bind, Section.language?_strip, htext,
    result_applyCapability_padAbove hregistry .markup origin.language? origin origin.strip _ source
      source',
    String.ofList_toList]
  refine congrArg _ (funext fun compiled => ?_)
  rw [mapError_mapError]
  rfl

/-- The failure of a plugin is not moved: plugins see a stylesheet without the lines above it. -/
theorem result_runPlugins_below (context : PluginContext) (css : String)
    (plugins : List StylesheetPlugin) :
    (runPlugins context css plugins).result.mapError (.below lines) =
      (runPlugins context css plugins).result := by
  induction plugins generalizing css with
  | nil => rfl
  | cons plugin plugins ih =>
    have hstep : (runPlugins context css (plugin :: plugins)).result =
        (plugin.process context css).mapError (.postProcess plugin.name) >>= fun processed =>
          (runPlugins context processed plugins).result := by
      rw [runPlugins, Traced.result_bind]
      change (Traced.orFail _ _ >>= _ : Traced String).result = _
      rw [Traced.result_bind, Traced.result_orFail]
      cases plugin.process context css <;> rfl
    rw [hstep, mapError_bind, mapError_mapError]
    exact congrArg _ (funext fun processed => ih processed)

/-- Styling is padded. -/
theorem result_compileStyling_strip (hregistry : p.registry = .builtin) (origin : Section)
    (hlines : lines .styling = origin.location.linesAbove) (text text' id : String) :
    (p.compileStyling origin ⟨text, id⟩).result =
      (p.compileStyling origin.strip ⟨text', id⟩).result.mapError (.below lines) := by
  have htext : paddedText origin = String.ofList (padAbove (lines .styling) origin.raw.toList) := by
    rw [hlines, paddedText]
  have htext' : paddedText origin.strip = String.ofList origin.raw.toList := rfl
  rw [result_compileStyling, result_compileStyling, mapError_bind, Section.language?_strip, htext,
    htext', result_applyCapability_padAbove hregistry .styling _ origin origin.strip _ ⟨text, id⟩
      ⟨text', id⟩]
  refine congrArg _ (funext fun compiled => ?_)
  rw [mapError_map, result_runPlugins_below]

/-- The template goes to the same place of the padded script. -/
theorem result_insertMarkup_padAbove (hregistry : p.registry = .builtin) (language : String)
    (text : List Char) (markup : Option String) :
    (p.insertMarkup language (String.ofList (padAbove (lines .logic) text)) markup).result =
      ((p.insertMarkup language (String.ofList text) markup).result.map fun woven =>
        String.ofList (padAbove (lines .logic) woven.toList)).mapError (.below lines) := by
  cases markup with
  | none =>
    change Except.ok _ = Except.ok (String.ofList (padAbove _ (String.ofList text).toList))
    rw [String.toList_ofList]
  | some markup =>
    unfold insertMarkup
    rw [hregistry]
    -- Only scripts take a template; every other language leaves the text, or refuses it without a
    -- line.
    rcases Registry.lookup_builtin language with hnone | hcss | hjs
    · rw [hnone]
      rfl
    · rw [hcss]
      rfl
    · rw [hjs]
      change (injectTemplate _ markup).mapError _ =
        (((injectTemplate _ markup).mapError _).map _).mapError _
      rw [injectTemplate_padAbove]
      unfold injectTemplate
      cases Script.inject? (String.ofList text).toList markup.toList <;> rfl

/-- Logic is padded, takes the markup in, loses its indentation and is compiled. -/
theorem result_compileLogic_strip (hregistry : p.registry = .builtin) (origin : Option Section)
    (hlines : lines .logic = origin.elim 0 fun origin => origin.location.linesAbove)
    (markup : Option String) (source source' : Source) :
    (p.compileLogic origin markup source).result =
      (p.compileLogic (origin.map Section.strip) markup source').result.mapError
        (.below lines) := by
  cases origin with
  | none => rfl
  | some origin =>
    have htext : paddedText origin = String.ofList (padAbove (lines .logic) origin.raw.toList) := by
      rw [hlines, paddedText]
      rfl
    have htext' : paddedText origin.strip = String.ofList origin.raw.toList := rfl
    rw [Option.map_some, result_compileLogic, result_compileLogic, mapError_bind,
      Section.logicLanguage_strip, htext, htext', result_insertMarkup_padAbove hregistry]
    cases (p.insertMarkup origin.logicLanguage (String.ofList origin.raw.toList) markup).result with
    | error error => rfl
    | ok woven =>
      -- Dedenting leaves the empty lines above, and so the padding, in place.
      change (p.applyCapability .logic _ origin (String.ofList (dedent (String.ofList _).toList))
        source).result = _
      rw [String.toList_ofList, dedent_padAbove]
      exact result_applyCapability_padAbove hregistry .logic _ origin origin.strip _ source source'

/-- A section that is not there has no failures. -/
theorem result_whenPresent_strip {α : Type} {origin : Option Section}
    {compile compile' : Section → Traced α}
    (h : ∀ s, origin = some s → (compile s).result = (compile' s.strip).result.mapError
      (.below lines)) :
    (whenPresent origin compile).result =
      (whenPresent (origin.map Section.strip) compile').result.mapError (.below lines) := by
  cases origin with
  | none => rfl
  | some s =>
    unfold whenPresent
    rw [Traced.result_bind, h s rfl, Option.map_some, Traced.result_bind, mapError_bind]
    rfl

/-- **A compile of sections is a compile of the sections without their places**, with the failures
of logic and styling moved down by the lines above them. -/
theorem result_compileSlots_strip (hregistry : p.registry = .builtin) (slots : Slots)
    (text text' id : String) :
    (p.compileSlots slots ⟨text, id⟩).result =
      (p.compileSlots slots.strip ⟨text', id⟩).result.mapError (.below slots.linesAbove) := by
  -- The sections one by one: markup is not padded, the other two are.
  have hmarkup : (whenPresent slots.markup fun origin => p.compileMarkup origin ⟨text, id⟩).result =
      (whenPresent slots.strip.markup fun origin =>
        p.compileMarkup origin ⟨text', id⟩).result.mapError
        (.below slots.linesAbove) :=
    result_whenPresent_strip fun origin _ => result_compileMarkup_strip hregistry rfl origin _ _
  have hstyling :
    (whenPresent slots.styling fun origin => p.compileStyling origin ⟨text, id⟩).result =
      (whenPresent slots.strip.styling fun origin =>
        p.compileStyling origin ⟨text', id⟩).result.mapError
        (.below slots.linesAbove) := by
    refine result_whenPresent_strip fun origin horigin =>
      result_compileStyling_strip hregistry origin ?_ text text' id
    rw [Slots.linesAbove, horigin]
    rfl
  have hlogic (markup : Option String) : (p.compileLogic slots.logic markup ⟨text, id⟩).result =
      (p.compileLogic slots.strip.logic markup ⟨text', id⟩).result.mapError
          (.below slots.linesAbove) :=
    result_compileLogic_strip hregistry slots.logic rfl markup _ _
  -- The failures of the sections are those of the run, so they move down where they come out.
  rw [result_compileSlots, result_compileSlots, mapError_bind, hmarkup]
  refine congrArg _ (funext fun markup => ?_)
  rw [mapError_bind, hstyling]
  refine congrArg _ (funext fun style => ?_)
  rw [hlogic, mapError_map]

/-- **Where sections stand matters to nothing but reported lines.** Two documents whose sections
differ in their places alone compile to the same, or fail in the same way: the failures of tools for
logic and styling move with the lines above their sections, and all others are the same, lines
included. -/
theorem compile_of_strip_eq (hregistry : p.registry = .builtin) {text text' id : String}
    {slots slots' : Slots} (hslots : (chooseSections text).result = .ok slots)
    (hslots' : (chooseSections text').result = .ok slots') (hsame : slots.strip = slots'.strip) :
    ∃ outcome : Except CompileError Output,
      (p.compile text id).result = outcome.mapError (.below slots.linesAbove) ∧
      (p.compile text' id).result = outcome.mapError (.below slots'.linesAbove) := by
  refine ⟨(p.compileSlots slots.strip ⟨text, id⟩).result, ?_, ?_⟩
  · rw [result_compile_of_chooseSections hslots]
    exact result_compileSlots_strip hregistry slots text text id
  · rw [result_compile_of_chooseSections hslots', hsame]
    exact result_compileSlots_strip hregistry slots' text' text id

/-- A section of one kind that holds a closing brace, in a language, with some blanks before the end
of its tag. -/
def braceSection (name gap : String) : String :=
  "<" ++ name ++ " lang=\"css\"" ++ gap ++ ">\x7d</" ++ name ++ ">"

/-- Styling on the first and on the second line. -/
def braceStyling : Section × Section :=
  (⟨"style", [⟨"lang", some "css", .double, ⟨7, 17⟩⟩], "\x7d", .text "\x7d", ⟨0, 27⟩, ⟨18, 19⟩,
    ⟨1, 19⟩⟩,
    ⟨"style", [⟨"lang", some "css", .double, ⟨7, 17⟩⟩], "\x7d", .text "\x7d", ⟨0, 28⟩, ⟨19, 20⟩,
      ⟨2, 2⟩⟩)

/-- Markup on the first and on the second line. -/
def braceMarkup : Section × Section :=
  (⟨"template", [⟨"lang", some "css", .double, ⟨10, 20⟩⟩], "\x7d", .text "\x7d", ⟨0, 33⟩, ⟨21, 22⟩,
    ⟨1, 22⟩⟩,
    ⟨"template", [⟨"lang", some "css", .double, ⟨10, 20⟩⟩], "\x7d", .text "\x7d", ⟨0, 34⟩, ⟨22, 23⟩,
      ⟨2, 2⟩⟩)

/-- Styling that moves from the first line to the second has the same outcome, one line further
down. -/
theorem compile_of_strip_eq_styling :
    ∃ outcome : Except CompileError Output,
      (compile { registry := .builtin } (braceSection "style" "") "").result =
        outcome.mapError (.below (Slots.linesAbove ⟨none, none, some braceStyling.1⟩)) ∧
      (compile { registry := .builtin } (braceSection "style" "\n") "").result =
        outcome.mapError (.below (Slots.linesAbove ⟨none, none, some braceStyling.2⟩)) := by
  have hfirst : (chooseSections (braceSection "style" "")).result =
      .ok ⟨none, none, some braceStyling.1⟩ := by
    have hlex : lexContent (braceSection "style" "").toList =
        some ⟨[], "<style".toList, .ok (.openTag "style"),
          " lang=\"css\">\x7d</style>".toList⟩ := rfl
    exact chooseSections_eq_ok_iff.2
      ⟨_, Document.parse_of_single hlex rfl (by with_unfolding_all rfl), by rfl, by rfl⟩
  have hsecond : (chooseSections (braceSection "style" "\n")).result =
      .ok ⟨none, none, some braceStyling.2⟩ := by
    have hlex : lexContent (braceSection "style" "\n").toList =
        some ⟨[], "<style".toList, .ok (.openTag "style"),
          " lang=\"css\"\n>\x7d</style>".toList⟩ := rfl
    exact chooseSections_eq_ok_iff.2
      ⟨_, Document.parse_of_single hlex rfl (by with_unfolding_all rfl), by rfl, by rfl⟩
  exact compile_of_strip_eq rfl hfirst hsecond rfl

/-- **A failure of the tool for markup keeps its line when the section moves**: here from the first
line of a document to the second. -/
theorem markup_failure_keeps_line :
    (chooseSections (braceSection "template" "")).result = .ok ⟨some braceMarkup.1, none, none⟩ ∧
    (chooseSections (braceSection "template" "\n")).result = .ok ⟨some braceMarkup.2, none, none⟩ ∧
    Slots.strip ⟨some braceMarkup.1, none, none⟩ = Slots.strip ⟨some braceMarkup.2, none, none⟩ ∧
    braceMarkup.1.location.line = 1 ∧ braceMarkup.2.location.line = 2 ∧
    (compile { registry := .builtin } (braceSection "template" "") "").result =
      .error (.tool "css" .markup ⟨"Unexpected '\x7d'", some 1, some 1⟩) ∧
    (compile { registry := .builtin } (braceSection "template" "\n") "").result =
      .error (.tool "css" .markup ⟨"Unexpected '\x7d'", some 1, some 1⟩) := by
  have hfirst : (chooseSections (braceSection "template" "")).result =
      .ok ⟨some braceMarkup.1, none, none⟩ := by
    have hlex : lexContent (braceSection "template" "").toList =
        some ⟨[], "<template".toList, .ok (.openTag "template"),
          " lang=\"css\">\x7d</template>".toList⟩ := rfl
    exact chooseSections_eq_ok_iff.2
      ⟨_, Document.parse_of_single hlex rfl (by with_unfolding_all rfl), by rfl, by rfl⟩
  have hsecond : (chooseSections (braceSection "template" "\n")).result =
      .ok ⟨some braceMarkup.2, none, none⟩ := by
    have hlex : lexContent (braceSection "template" "\n").toList =
        some ⟨[], "<template".toList, .ok (.openTag "template"),
          " lang=\"css\"\n>\x7d</template>".toList⟩ := rfl
    exact chooseSections_eq_ok_iff.2
      ⟨_, Document.parse_of_single hlex rfl (by with_unfolding_all rfl), by rfl, by rfl⟩
  -- The tool is given the same text for both sections.
  have hbrace : compileStylesheet "\x7d" = .error ⟨"Unexpected '\x7d'", some 1, some 1⟩ := by
    with_unfolding_all rfl
  have htool (s : Section) (source : Source) (hlanguage : s.language? = some "css")
    (htext : markupText s = "\x7d") :
      (compileMarkup { registry := .builtin } s source).result =
        .error (.tool "css" .markup ⟨"Unexpected '\x7d'", some 1, some 1⟩) := by
    rw [result_compileMarkup, hlanguage, htext, result_applyCapability_css rfl rfl, hbrace]
    rfl
  have hfails (s : Section) (source : Source) (hlanguage : s.language? = some "css")
    (htext : markupText s = "\x7d") :
      (compileSlots { registry := .builtin } ⟨some s, none, none⟩ source).result =
        .error (.tool "css" .markup ⟨"Unexpected '\x7d'", some 1, some 1⟩) := by
    rw [result_compileSlots]
    show ((compileMarkup _ s source >>= fun code =>
      pure (some code) : Traced (Option String)).result >>= _) = _
    rw [Traced.result_bind, htool s source hlanguage htext]
    rfl
  refine ⟨hfirst, hsecond, rfl, rfl, rfl, ?_, ?_⟩
  · rw [result_compile_of_chooseSections hfirst]
    exact hfails _ _ (by rfl) (by rfl)
  · rw [result_compile_of_chooseSections hsecond]
    exact hfails _ _ (by rfl) (by rfl)

end Pipeline

end Triptych
