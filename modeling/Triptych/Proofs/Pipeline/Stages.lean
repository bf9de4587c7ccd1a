import Triptych.Pipeline.Compile

/-!
# The stages of a compile

What the stages of a compile return, the journal left out. A compile of the chosen sections succeeds
if its stages do, one after another (`compileSlots_eq_ok_iff`), and each stage is an equation of its
own (`result_compileMarkup`, `result_compileStyling`, `result_compileLogic`). With the capabilities
of this library, a logic section whose language is that of scripts takes markup in, loses its common
indentation and is compiled as a script (`result_compileLogic_js`).
-/

namespace Triptych

open Text

namespace Traced

variable {α β : Type}

/-- A sequence succeeds if the first computation does and then the second. -/
theorem bind_eq_ok_iff {first : Traced α} {next : α → Traced β} {value : β} :
    (first >>= next).result = .ok value ↔
      ∃ a, first.result = .ok a ∧ (next a).result = .ok value := by
  rw [result_bind]
  cases first.result with
  | error error =>
    constructor
    · nofun
    · rintro ⟨a, h, -⟩
      contradiction
  | ok a =>
    constructor
    · intro h
      exact ⟨a, rfl, h⟩
    · rintro ⟨b, h, hnext⟩
      obtain rfl := Except.ok.inj h
      exact hnext

end Traced

/-- Wrapping errors does not touch success. -/
theorem mapError_eq_ok_iff {ε ε' α : Type} {outcome : Except ε α} {wrap : ε → ε'} {value : α} :
    outcome.mapError wrap = .ok value ↔ outcome = .ok value := by
  cases outcome with
  | error error => exact ⟨nofun, nofun⟩
  | ok found =>
    exact ⟨fun h => congrArg _ (Except.ok.inj h), fun h => congrArg _ (Except.ok.inj h)⟩

/-- A script compiles if it is in order or need not be. -/
theorem compileScript_eq_ok_iff {check : Bool} {source code : String} :
    compileScript check source = .ok code ↔
      (check = true → Script.check source.toList = .ok ()) ∧
        code = String.ofList (trim source.toList ++ ['\n']) := by
  cases check with
  | false =>
    refine ⟨fun h => ⟨nofun, (Except.ok.inj h).symm⟩, ?_⟩
    rintro ⟨-, rfl⟩
    rfl
  | true =>
    unfold compileScript
    cases Script.check source.toList with
    | error fault => simp
    | ok => simp [eq_comm]

/-- Markup goes into a script that exports an object. -/
theorem injectTemplate_eq_ok_iff {logic markup woven : String} :
    injectTemplate logic markup = .ok woven ↔
      Script.inject? logic.toList markup.toList = some woven.toList := by
  unfold injectTemplate
  cases Script.inject? logic.toList markup.toList with
  | none => simp
  | some chars =>
    rw [Except.ok.injEq, Option.some.injEq]
    constructor
    · rintro rfl
      rw [String.toList_ofList]
    · rintro rfl
      rw [String.ofList_toList]

/-- The language of a logic section: the one it declares, or the usual one. -/
def Section.logicLanguage (origin : Section) : String :=
  (origin.language?.or SectionRole.logic.usualLanguage?).getD ""

/-- The capability for scripts is found under every spelling of its name. -/
theorem Registry.lookup_builtin_js {language : String} (h : languageKey language = "js") :
    builtin.lookup language = some .js := by
  rw [lookup, h]
  rfl

/-- And so is the one for stylesheets. -/
theorem Registry.lookup_builtin_css {language : String} (h : languageKey language = "css") :
    builtin.lookup language = some .css := by
  rw [lookup, h]
  rfl

namespace Pipeline

variable {p : Pipeline}

/-- Whether scripts of a language are checked: yes, unless the option `check` says no. -/
def checksScripts (p : Pipeline) (language : String) : Bool :=
  match (p.options.optionsFor language).get? "check" with
  | some (.bool value) => value
  | _ => true

/-- Sections are chosen from a document that parses and has at most one markup section. -/
theorem chooseSections_eq_ok_iff {text : String} {slots : Slots} :
    (chooseSections text).result = .ok slots ↔
      ∃ document, Document.parse text = .ok document ∧ document.isValid = true ∧
        document.slots = slots := by
  unfold chooseSections
  rw [Traced.bind_eq_ok_iff]
  refine exists_congr fun document => and_congr mapError_eq_ok_iff ?_
  change (if document.isValid then _ else _ : Traced Slots).result = .ok slots ↔ _
  split
  next hvalid =>
    rw [hvalid]
    exact ⟨fun h => ⟨rfl, Except.ok.inj h⟩, fun h => h.2 ▸ rfl⟩
  next hvalid =>
    refine ⟨nofun, fun h => absurd h.1 hvalid⟩

/-- Markup, styling and logic are compiled in this order. -/
theorem result_compileSlots (slots : Slots) (source : Source) :
    (p.compileSlots slots source).result =
      (whenPresent slots.markup fun origin => p.compileMarkup origin source).result >>=
        fun markup =>
        (whenPresent slots.styling fun origin => p.compileStyling origin source).result >>=
          fun style =>
          (p.compileLogic slots.logic markup source).result.map fun code => { code, style } := by
  unfold compileSlots
  rw [Traced.result_bind]
  refine congrArg _ (funext fun markup => ?_)
  rw [Traced.result_bind]
  refine congrArg _ (funext fun style => ?_)
  rw [Traced.result_bind]
  cases (p.compileLogic slots.logic markup source).result <;> rfl

/-- The chosen sections compile if markup, styling and logic do, in this order. -/
theorem compileSlots_eq_ok_iff {slots : Slots} {source : Source} {out : Output} :
    (p.compileSlots slots source).result = .ok out ↔
      ∃ markup, (whenPresent slots.markup fun origin => p.compileMarkup origin source).result =
        .ok markup ∧
        (whenPresent slots.styling fun origin => p.compileStyling origin source).result =
        .ok out.style ∧
        (p.compileLogic slots.logic markup source).result = .ok out.code := by
  unfold compileSlots
  rw [Traced.bind_eq_ok_iff]
  refine exists_congr fun markup => and_congr_right fun _ => ?_
  rw [Traced.bind_eq_ok_iff]
  constructor
  · rintro ⟨style, hstyle, h⟩
    obtain ⟨code, hcode, h⟩ := Traced.bind_eq_ok_iff.1 h
    obtain rfl := Except.ok.inj h
    exact ⟨hstyle, hcode⟩
  · rintro ⟨hstyle, hcode⟩
    exact ⟨out.style, hstyle, Traced.bind_eq_ok_iff.2 ⟨out.code, hcode, rfl⟩⟩

/-- A section that is present is compiled. -/
theorem whenPresent_some_eq_ok_iff {α : Type} {origin : Section} {compile : Section → Traced α}
    {value : Option α} :
    (whenPresent (some origin) compile).result = .ok value ↔
      ∃ compiled, (compile origin).result = .ok compiled ∧ value = some compiled := by
  unfold whenPresent
  rw [Traced.bind_eq_ok_iff]
  refine exists_congr fun compiled => and_congr_right fun _ => ?_
  exact ⟨fun h => (Except.ok.inj h).symm, fun h => h ▸ rfl⟩

/-- Markup goes to the tool for its language and is then made smaller. -/
theorem result_compileMarkup (origin : Section) (source : Source) :
    (p.compileMarkup origin source).result =
      (p.applyCapability .markup origin.language? origin (markupText origin) source).result >>=
        fun compiled => (Markup.minify p.options.minifier compiled).mapError .minify := by
  have hlanguage : origin.language?.or SectionRole.markup.usualLanguage? = origin.language? :=
    Option.or_none
  -- What the linter finds is entered into the journal and nowhere else.
  have htail :
      (do
        let compiled ← p.applyCapability .markup origin.language? origin (markupText origin) source
        let code ← Traced.orFail (Markup.minify p.options.minifier compiled) .minify
        Traced.note (.compiled .markup (textSize code))
        return code : Traced String).result =
      (p.applyCapability .markup origin.language? origin (markupText origin) source).result >>=
        fun compiled => (Markup.minify p.options.minifier compiled).mapError .minify := by
    rw [Traced.result_bind]
    refine congrArg _ (funext fun compiled => ?_)
    rw [Traced.result_bind, Traced.result_orFail]
    cases Markup.minify p.options.minifier compiled <;> rfl
  unfold compileMarkup
  rw [hlanguage]
  dsimp only
  split
  · exact htail
  · exact htail

/-- Styling goes to the tool for its language and then through the plugins. -/
theorem result_compileStyling (origin : Section) (source : Source) :
    (p.compileStyling origin source).result =
      (p.applyCapability .styling (origin.language?.or SectionRole.styling.usualLanguage?) origin
        (paddedText origin) source).result >>= fun compiled =>
          (runPlugins (p.options.postProcessing.context source.id) compiled
            p.options.postProcessing.plugins).result.map styleModule := by
  unfold compileStyling
  rw [Traced.result_bind]
  refine congrArg _ (funext fun compiled => ?_)
  rw [Traced.result_bind]
  cases (runPlugins (p.options.postProcessing.context source.id) compiled
    p.options.postProcessing.plugins).result <;> rfl

/-- Logic takes markup in, loses its common indentation and goes to the tool for its language. -/
theorem result_compileLogic (origin : Section) (markup : Option String) (source : Source) :
    (p.compileLogic (some origin) markup source).result =
      (p.insertMarkup origin.logicLanguage (paddedText origin) markup).result >>= fun woven =>
        (p.applyCapability .logic (some origin.logicLanguage) origin
          (String.ofList (dedent woven.toList)) source).result := by
  unfold compileLogic
  -- The journal is written between the stages and has no say in their results.
  rw [Traced.result_bind]
  refine congrArg _ (funext fun woven => ?_)
  rw [Traced.result_bind]
  change (p.applyCapability .logic (some origin.logicLanguage) origin _ source).result >>= _ = _
  cases (p.applyCapability .logic (some origin.logicLanguage) origin
    (String.ofList (dedent woven.toList)) source).result <;> rfl

/-- A document compiles to what its chosen sections compile to. -/
theorem result_compile_of_chooseSections {text id : String} {slots : Slots}
    (h : (chooseSections text).result = .ok slots) :
    (p.compile text id).result = (p.compileSlots slots ⟨text, id⟩).result := by
  change (chooseSections text >>= fun slots => p.compileSlots slots ⟨text, id⟩).result = _
  rw [Traced.result_bind, h]
  rfl

/-- The text of a stylesheet is checked and made smaller. -/
theorem result_applyCapability_css (hregistry : p.registry = .builtin) {language : String}
    (hlanguage : languageKey language = "css") (kind : SectionRole) (origin : Section)
    (text : String) (source : Source) :
    (p.applyCapability kind (some language) origin text source).result =
      (compileStylesheet text).mapError (.tool language kind) := by
  unfold applyCapability
  rw [hregistry, Option.bind_some, Registry.lookup_builtin_css hlanguage]
  rfl

/-! ### Logic that is a script -/

section Script

variable {origin : Section} {source : Source}

/-- The text of a script is checked, if checks are on, and trimmed. -/
theorem result_applyCapability_js (hregistry : p.registry = .builtin) {language : String}
    (hlanguage : languageKey language = "js") (kind : SectionRole) (text : String) :
    (p.applyCapability kind (some language) origin text source).result =
      (compileScript (p.checksScripts language) text).mapError (.tool language kind) := by
  unfold applyCapability
  rw [hregistry, Option.bind_some, Registry.lookup_builtin_js hlanguage]
  rfl

/-- Markup is put into a script. -/
theorem result_insertMarkup_js (hregistry : p.registry = .builtin) {language : String}
    (hlanguage : languageKey language = "js") (text markup : String) :
    (p.insertMarkup language text (some markup)).result =
      (injectTemplate text markup).mapError (.tool language .logic) := by
  unfold insertMarkup
  rw [hregistry, Registry.lookup_builtin_js hlanguage]
  rfl

/-- **A script that markup went into loses its common indentation and is compiled.** -/
theorem result_compileLogic_js (hregistry : p.registry = .builtin)
    (hlanguage : languageKey origin.logicLanguage = "js") (markup : Option String) :
    (p.compileLogic (some origin) markup source).result =
      (p.insertMarkup origin.logicLanguage (paddedText origin) markup).result >>= fun woven =>
        (compileScript (p.checksScripts origin.logicLanguage)
        (String.ofList (dedent woven.toList))).mapError
          (.tool origin.logicLanguage .logic) := by
  rw [result_compileLogic]
  refine congrArg _ (funext fun woven => ?_)
  rw [result_applyCapability_js hregistry hlanguage]

/-- A script compiles without markup if it does so without its common indentation. -/
theorem compileLogic_none_eq_ok_iff (hregistry : p.registry = .builtin)
    (hlanguage : languageKey origin.logicLanguage = "js") {code : String} :
    (p.compileLogic (some origin) none source).result = .ok code ↔
      compileScript (p.checksScripts origin.logicLanguage)
        (String.ofList (dedent (paddedText origin).toList)) =
        .ok code := by
  rw [result_compileLogic_js hregistry hlanguage]
  exact mapError_eq_ok_iff

/-- A script compiles with markup if the markup goes into it and the result compiles without its
common indentation. -/
theorem compileLogic_some_eq_ok_iff (hregistry : p.registry = .builtin)
    (hlanguage : languageKey origin.logicLanguage = "js") {markup code : String} :
    (p.compileLogic (some origin) (some markup) source).result = .ok code ↔
      ∃ woven, Script.inject? (paddedText origin).toList markup.toList = some woven ∧
        compileScript (p.checksScripts origin.logicLanguage) (String.ofList (dedent woven)) =
          .ok code := by
  rw [result_compileLogic_js hregistry hlanguage, result_insertMarkup_js hregistry hlanguage]
  have hinject := @injectTemplate_eq_ok_iff (paddedText origin) markup
  constructor
  · intro h
    cases hwoven : injectTemplate (paddedText origin) markup with
    | error failure =>
      rw [hwoven] at h
      contradiction
    | ok woven =>
      rw [hwoven] at h
      exact ⟨woven.toList, hinject.1 hwoven, mapError_eq_ok_iff.1 h⟩
  · rintro ⟨woven, hwoven, h⟩
    rw [hinject.2 (by rw [hwoven, String.toList_ofList])]
    exact mapError_eq_ok_iff.2 (by rwa [String.toList_ofList])

end Script

end Pipeline

end Triptych
