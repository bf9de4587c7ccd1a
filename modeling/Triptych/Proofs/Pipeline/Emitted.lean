import Triptych.Proofs.Document.Fragment
import Triptych.Proofs.Pipeline.Stages
import Triptych.Proofs.Script.Trimming

/-!
# Emitted modules are scripts

What a compile emits would pass the check of scripts itself. The module of a stylesheet does so
whatever the stylesheet is and whoever wrote it: the text goes in as one quoted string, so nothing
of it is code (`check_styleModule`). The script was checked before its blanks were taken away and a
line feed was put behind it, which changes nothing (`Script.check_trim`).
-/

namespace Triptych

open Text

/-! ### The module of a stylesheet -/

namespace Script

/-- Characters that open and start nothing leave the checker where it is. -/
theorem exists_checkFrom_of_quiet {run : List Char}
    (hrun : ∀ c ∈ run, (isOrdinary c || isBlank c) = true) (stack : List (Opener × Location))
    (previous : Option Char) (loc : Location) (text : List Char) :
    ∃ previous' loc', checkFrom stack previous loc (run ++ text) =
      checkFrom stack previous' loc' text := by
  induction run generalizing previous loc with
  | nil => exact ⟨previous, loc, rfl⟩
  | cons c run ih =>
    obtain ⟨hc, hrest⟩ := List.forall_mem_cons.1 hrun
    rw [Bool.or_eq_true] at hc
    rcases hc with hordinary | hblank
    · rw [List.cons_append, checkFrom_ordinary hordinary]
      exact ih hrest _ _
    · rw [List.cons_append, checkFrom_blank hblank]
      exact ih hrest _ _

/-- **A call with a quoted text is accepted**, whatever the text is. -/
theorem check_quoted_call {callee : List Char}
    (hcallee : ∀ c ∈ callee, (isOrdinary c || isBlank c) = true) (quoted : List Char) :
    check (callee ++ '(' :: (Json.quote quoted ++ [')', ';'])) = .ok () := by
  obtain ⟨previous, loc, hstart⟩ := exists_checkFrom_of_quiet hcallee [] none {}
    ('(' :: (Json.quote quoted ++ [')', ';']))
  have hopen : checkFrom [] previous loc ('(' :: (Json.quote quoted ++ [')', ';'])) =
      checkFrom [(.paren, loc)] (some '(') (loc.advance '(') (Json.quote quoted ++ [')', ';']) := by
    rw [checkFrom_cons]
    rfl
  have hclose (loc' : Location) : checkFrom [(.paren, loc)] (some '"') loc' [')', ';'] =
      checkFrom [] (some ')') (loc'.advance ')') [';'] := by
    rw [checkFrom_cons]
    rfl
  have hsemicolon : isOrdinary ';' = true := by decide
  rw [check, hstart, hopen, checkFrom_quote, hclose, checkFrom_ordinary hsemicolon, checkFrom_nil]

end Script

namespace Pipeline

variable {p : Pipeline}

/-- The module of a stylesheet is a script, whatever the stylesheet is. -/
theorem check_styleModule (css : String) : Script.check (styleModule css).toList = .ok () := by
  have hcallee :
      "export default __weave_inject_style__".toList.all
        (fun c => Script.isOrdinary c || isBlank c) = true := rfl
  have hmodule : (styleModule css).toList = "export default __weave_inject_style__".toList ++
      '(' :: (Json.quote css.toList ++ [')', ';']) := by
    unfold styleModule
    simp
  rw [hmodule]
  exact Script.check_quoted_call (List.all_eq_true.1 hcallee) css.toList

/-- What a styling section compiles to is such a module. -/
theorem exists_styleModule_of_compileStyling {origin : Section} {source : Source} {code : String}
    (h : (p.compileStyling origin source).result = .ok code) : ∃ css, code = styleModule css := by
  unfold compileStyling at h
  -- Whatever the tool and the plugins return, it is wrapped last.
  obtain ⟨compiled, -, h⟩ := Traced.bind_eq_ok_iff.1 h
  obtain ⟨css, -, h⟩ := Traced.bind_eq_ok_iff.1 h
  obtain ⟨-, -, h⟩ := Traced.bind_eq_ok_iff.1 h
  exact ⟨css, (Except.ok.inj h).symm⟩

/-! ### The script -/

/-- What the tool for scripts emits after a check is accepted, and has one line feed at its end. -/
theorem check_of_compileScript {source code : String} (h : compileScript true source = .ok code) :
    Script.check code.toList = .ok () ∧
      (code.toList = ['\n'] ∨ ∃ body last, code.toList = body ++ [last, '\n'] ∧
        isBlank last = false) := by
  obtain ⟨hcheck, rfl⟩ := compileScript_eq_ok_iff.1 h
  rw [String.toList_ofList]
  refine ⟨Script.check_trim (hcheck rfl), ?_⟩
  obtain hnil | ⟨body, last, htrim, hlast⟩ := Script.trim_eq_nil_or_visible source.toList
  · rw [hnil]
    exact .inl rfl
  · rw [htrim, List.append_assoc]
    exact .inr ⟨body, last, rfl, hlast⟩

/-- Logic in the language of scripts is emitted by that tool. -/
theorem exists_compileScript_of_compileLogic (hregistry : p.registry = .builtin) {script : Section}
    (hlanguage : languageKey script.logicLanguage = "js") {markup : Option String} {source : Source}
    {code : String} (h : (p.compileLogic (some script) markup source).result = .ok code) :
    ∃ text, compileScript (p.checksScripts script.logicLanguage) text = .ok code := by
  cases markup with
  | none => exact ⟨_, (compileLogic_none_eq_ok_iff hregistry hlanguage).1 h⟩
  | some markup =>
    obtain ⟨woven, -, hcode⟩ := (compileLogic_some_eq_ok_iff hregistry hlanguage).1 h
    exact ⟨_, hcode⟩

/-- **Emitted modules are scripts.** The module of a stylesheet is accepted by the check of scripts,
whatever the stylesheet holds and whatever plugins did to it. With the capabilities of this library,
logic in the language of scripts that had to pass the check passes it again as it is emitted, where
it ends in one line feed behind a visible character, or is that line feed. -/
theorem emitted_modules_accepted (hregistry : p.registry = .builtin) {text id : String}
    {out : Output} (h : (p.compile text id).result = .ok out) :
    (∀ style, out.style = some style → Script.check style.toList = .ok ()) ∧
    ∀ slots script, (chooseSections text).result = .ok slots → slots.logic = some script →
      languageKey script.logicLanguage = "js" → p.checksScripts script.logicLanguage = true →
      Script.check out.code.toList = .ok () ∧
        (out.code.toList = ['\n'] ∨ ∃ body last, out.code.toList = body ++ [last, '\n'] ∧
          isBlank last = false) := by
  have hrun : (chooseSections text >>= fun slots => p.compileSlots slots ⟨text, id⟩).result =
    .ok out := h
  obtain ⟨chosen, hchosen, hcompiled⟩ := Traced.bind_eq_ok_iff.1 hrun
  obtain ⟨markup, -, hstyle, hcode⟩ := compileSlots_eq_ok_iff.1 hcompiled
  constructor
  · intro style hsome
    -- A style module comes from the styling section, and the stylesheet in it is one string
    -- literal.
    rw [hsome] at hstyle
    cases hstyling : chosen.styling with
    | none =>
      rw [hstyling] at hstyle
      exact nomatch Except.ok.inj hstyle
    | some origin =>
      rw [hstyling] at hstyle
      obtain ⟨code, hcompile, heq⟩ := whenPresent_some_eq_ok_iff.1 hstyle
      obtain ⟨css, rfl⟩ := exists_styleModule_of_compileStyling hcompile
      obtain rfl := Option.some.inj heq
      exact check_styleModule css
  · intro slots script hslots hscript hlanguage hchecks
    -- The sections that were compiled are the chosen ones, so the code was checked after the last
    -- change.
    obtain rfl := Except.ok.inj (hchosen.symm.trans hslots)
    rw [hscript] at hcode
    obtain ⟨source, hsource⟩ := exists_compileScript_of_compileLogic hregistry hlanguage hcode
    rw [hchecks] at hsource
    exact check_of_compileScript hsource

/-- A document with a stylesheet and a script. -/
def styledDocument : String :=
  "<style>a</style><script>b </script>"

/-- The styling section of this document. -/
def styledStyle : Section :=
  ⟨"style", [], "a", .text "a", ⟨0, 16⟩, ⟨7, 8⟩, ⟨1, 8⟩⟩

/-- The logic section of this document. -/
def styledScript : Section :=
  ⟨"script", [], "b ", .text "b ", ⟨16, 35⟩, ⟨24, 26⟩, ⟨1, 25⟩⟩

theorem parse_styledDocument :
    Document.parse styledDocument = .ok ⟨[styledStyle, styledScript]⟩ := by
  have hfirst : Markup.lexContent styledDocument.toList =
      some ⟨[], "<style".toList, .ok (.openTag "style"),
        ">a</style><script>b </script>".toList⟩ := rfl
  have hsecond : Markup.lexContent "<script>b </script>".toList =
      some ⟨[], "<script".toList, .ok (.openTag "script"), ">b </script>".toList⟩ := rfl
  have hstyle :
    Document.readSection styledDocument.toList "style" 0 6 ">a</style><script>b </script>".toList =
      .ok ⟨styledStyle, 16, "<script>b </script>".toList⟩ := by with_unfolding_all rfl
  have hscript : Document.readSection styledDocument.toList "script" 16 23 ">b </script>".toList =
      .ok ⟨styledScript, 35, []⟩ := by with_unfolding_all rfl
  exact Document.parse_of_pair hfirst rfl hstyle hsecond rfl hscript

/-- A stylesheet of one word, and a script that loses the blank at its end. -/
theorem emitted_modules_accepted_styled :
    Script.check (styleModule "a").toList = .ok () ∧ Script.check "b\n".toList = .ok () := by
  -- The document is computed, then each of its two sections is compiled on its own.
  have hslots : (chooseSections styledDocument).result =
      .ok ⟨none, some styledScript, some styledStyle⟩ :=
    chooseSections_eq_ok_iff.2 ⟨_, parse_styledDocument, by rfl, by rfl⟩
  have hlanguage : languageKey styledScript.logicLanguage = "js" := rfl
  have hchecks : checksScripts { registry := .builtin } styledScript.logicLanguage = true := rfl
  have hcompile : (compile { registry := .builtin } styledDocument "").result =
      .ok ⟨"b\n", some (styleModule "a")⟩ := by
    rw [result_compile_of_chooseSections hslots]
    have hstyle :
      (compileStyling { registry := .builtin } styledStyle ⟨styledDocument, ""⟩).result =
        .ok (styleModule "a") := by
      have hlanguage : styledStyle.language?.or SectionRole.styling.usualLanguage? =
          some "css" := rfl
      have hpadded : paddedText styledStyle = "a" := rfl
      have hcss : compileStylesheet "a" = .ok "a" := by with_unfolding_all rfl
      rw [result_compileStyling, hlanguage, hpadded, result_applyCapability_css rfl rfl, hcss]
      rfl
    refine compileSlots_eq_ok_iff.2 ⟨none, rfl, whenPresent_some_eq_ok_iff.2 ⟨_, hstyle, rfl⟩, ?_⟩
    -- The script keeps the blank behind it until it is written.
    have hdedent : dedent (paddedText styledScript).toList = ['b', ' '] := rfl
    refine (compileLogic_none_eq_ok_iff rfl hlanguage).2 ?_
    rw [hdedent, compileScript_eq_ok_iff, String.toList_ofList]
    constructor
    · intro _
      have hordinary : Script.isOrdinary 'b' = true := by decide
      have hspace : ∀ c ∈ [' '], isBlank c = true := List.forall_mem_singleton.2 (by decide)
      rw [Script.check, Script.checkFrom_ordinary hordinary]
      exact (Script.checkFrom_blanks hspace _ _ _).2 rfl
    · show "b\n" = String.ofList (trim ['b', ' '] ++ ['\n'])
      rfl
  obtain ⟨hstyle, hcode⟩ := @emitted_modules_accepted { registry := .builtin } rfl _ _ _ hcompile
  exact ⟨hstyle _ rfl, (hcode _ _ hslots rfl hlanguage hchecks).1⟩

end Pipeline

end Triptych
