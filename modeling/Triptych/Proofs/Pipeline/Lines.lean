import Triptych.Proofs.Code.Padding
import Triptych.Proofs.Document.Fragment
import Triptych.Proofs.Document.Places
import Triptych.Proofs.Pipeline.Stages
import Triptych.Proofs.Script.Places

/-!
# Faults of a script carry lines of the document

Between a document and the checker the text of a script is changed three times: empty lines are put
above it, markup is put into it, and its common indentation is taken away. None of the three changes
what the checker says, apart from the lines that the padding adds (`verdict_of_insertMarkup`), and
those are the lines above the script in the document. So the line that a compile reports is the line
of the document where the offending character stands (`compile_reports_script_fault`).
-/

namespace Triptych

open Text Code

namespace Script

/-- What the checker says about a script that stands below some lines. -/
def verdictBelow (lines : Nat) (outcome : Except Fault Unit) : Except (Cause × Nat) Unit :=
  outcome.mapError fun fault => (fault.cause, lines + fault.location.line)

theorem verdict_check_padAbove (count : Nat) (text : List Char) :
    verdict (check (padAbove count text)) = verdictBelow count (check text) := by
  rw [check_padAbove]
  cases check text with
  | ok => rfl
  | error fault =>
    have hline : (fault.moveDown count).location.line = count + fault.location.line :=
      Nat.add_comm _ _
    exact congrArg (fun line => Except.error (fault.cause, line)) hline

/-- A verdict about a script with another one's verdict is about the same fault, on the line that
the other one gets. -/
theorem exists_fault_of_verdict {lines : Nat} {outcome outcome' : Except Fault Unit} {fault : Fault}
    (h : verdict outcome' = verdictBelow lines outcome) (hfault : outcome = .error fault) :
    ∃ fault', outcome' = .error fault' ∧ fault'.cause = fault.cause ∧
      fault'.location.line = lines + fault.location.line := by
  rw [hfault] at h
  cases outcome' with
  | ok => contradiction
  | error fault' =>
    have hreport : lineReport fault' = (fault.cause, lines + fault.location.line) :=
      Except.error.inj h
    exact ⟨fault', rfl, congrArg Prod.fst hreport, congrArg Prod.snd hreport⟩

end Script

/-- A script whose check is on fails to compile with the fault that the checker reports. -/
theorem compileScript_eq_error {source : String} {fault : Fault}
    (h : Script.check source.toList = .error fault) :
    compileScript true source = .error fault.toFailure := by
  unfold compileScript
  rw [if_pos rfl, h]

/-- Where the inner text of a section begins, as many lines down as the section says. -/
theorem Section.AgreesWith.exists_above {source : List Char} {s : Section}
    (hagrees : s.AgreesWith source) (hread : s.ReadFrom source) :
    ∃ above below, source = above ++ (s.raw.toList ++ below) ∧
      s.contentSpan.start = byteLength above ∧
      s.location.linesAbove = above.count '\n' := by
  obtain ⟨above, below, hsource, hstart, hlocation⟩ := hagrees.exists_location hread
  refine ⟨above, below, hsource, hstart, ?_⟩
  rw [hlocation, Location.linesAbove, Location.line_advanceAll, Nat.add_sub_cancel_left]

namespace Pipeline

variable {p : Pipeline}

/-- **Neither padding, nor markup, nor indentation changes what the checker says**, apart from the
lines above. -/
theorem verdict_of_insertMarkup (hregistry : p.registry = .builtin) {script : Section}
    (hlanguage : languageKey script.logicLanguage = "js") {markup : Option String} {woven : String}
    (hwoven : (p.insertMarkup script.logicLanguage (paddedText script) markup).result = .ok woven) :
    ∀ stage ∈ [(paddedText script).toList, woven.toList, dedent woven.toList],
      Script.verdict (Script.check stage) =
        Script.verdictBelow script.location.linesAbove (Script.check script.raw.toList) := by
  -- Stage by stage, each text is compared with the one before it.
  have hpadded : Script.verdict (Script.check (paddedText script).toList) =
      Script.verdictBelow script.location.linesAbove (Script.check script.raw.toList) := by
    unfold paddedText
    rw [String.toList_ofList, Script.verdict_check_padAbove]
  have hinserted : Script.verdict (Script.check woven.toList) =
      Script.verdict (Script.check (paddedText script).toList) := by
    cases markup with
    | none => rw [← Except.ok.inj hwoven]
    | some markup =>
      rw [result_insertMarkup_js hregistry hlanguage, mapError_eq_ok_iff,
        injectTemplate_eq_ok_iff] at hwoven
      exact Script.verdict_check_inject hwoven
  have hdedented := Script.verdict_check_dedent woven.toList
  simp only [List.forall_mem_cons]
  exact ⟨hpadded, hinserted.trans hpadded, hdedented.trans (hinserted.trans hpadded), nofun⟩

/-- **Faults of a script carry lines of the document.** With the capabilities of this library and
the check switched on, a document whose other stages succeed fails to compile just when the checker
finds a fault in the script as it is written. The failure has the words of that fault and the line
of the document on which the offending character stands.
-/
theorem compile_reports_script_fault (hregistry : p.registry = .builtin) {text id : String}
    {slots : Slots} (hslots : (chooseSections text).result = .ok slots) {script : Section}
    (hscript : slots.logic = some script) (hlanguage : languageKey script.logicLanguage = "js")
    (hcheck : p.checksScripts script.logicLanguage = true) {markup style : Option String}
    {woven : String}
    (hmarkup : (whenPresent slots.markup fun origin => p.compileMarkup origin ⟨text, id⟩).result =
      .ok markup)
    (hstyle : (whenPresent slots.styling fun origin => p.compileStyling origin ⟨text, id⟩).result =
      .ok style)
    (hwoven : (p.insertMarkup script.logicLanguage (paddedText script) markup).result = .ok woven) :
    ((∃ error, (p.compile text id).result = .error error) ↔
      ∃ fault, Script.check script.raw.toList = .error fault) ∧
    (∀ fault, Script.check script.raw.toList = .error fault →
      (∃ failure, (p.compile text id).result = .error (.tool script.logicLanguage .logic failure) ∧
        failure.message = fault.cause.message ∧
        failure.line = some (script.location.linesAbove + fault.location.line)) ∧
      ∃ above before c after below, text.toList = above ++ (before ++ c :: after ++ below) ∧
        script.raw.toList = before ++ c :: after ∧ script.contentSpan.start = byteLength above ∧
        fault.cause.isAt c = true ∧ fault.location = ({} : Location).advanceAll before ∧
        (Location.ofOffset text.toList (byteLength (above ++ before))).line =
          script.location.linesAbove + fault.location.line) ∧
    ∀ stage ∈ [(paddedText script).toList, woven.toList, dedent woven.toList],
      Script.verdict (Script.check stage) =
        Script.verdictBelow script.location.linesAbove (Script.check script.raw.toList) := by
  have hverdicts := verdict_of_insertMarkup hregistry hlanguage hwoven
  have hverdict := hverdicts (dedent woven.toList) (by simp)
  -- What the compile returns is what the script stage does with the last of the three texts.
  have hcompile : (p.compile text id).result =
      ((compileScript true (String.ofList (dedent woven.toList))).mapError
        (.tool script.logicLanguage .logic)).map fun code => { code, style } := by
    rw [result_compile_of_chooseSections hslots, result_compileSlots, hmarkup]
    change (whenPresent slots.styling _).result >>= _ = _
    rw [hstyle, hscript]
    change (p.compileLogic (some script) markup _).result.map _ = _
    rw [result_compileLogic_js hregistry hlanguage, hwoven, hcheck]
    rfl
  have hfails : ∀ fault, Script.check script.raw.toList = .error fault →
      ∃ failure, (p.compile text id).result = .error (.tool script.logicLanguage .logic failure) ∧
        failure.message = fault.cause.message ∧
        failure.line = some (script.location.linesAbove + fault.location.line) := by
    intro fault hfault
    obtain ⟨fault', hfault', hcause, hline⟩ := Script.exists_fault_of_verdict hverdict hfault
    refine ⟨fault'.toFailure, ?_, congrArg Cause.message hcause, congrArg some hline⟩
    rw [hcompile, compileScript_eq_error (by rwa [String.toList_ofList])]
    rfl
  refine ⟨⟨?_, ?_⟩, fun fault hfault => ⟨hfails fault hfault, ?_⟩, hverdicts⟩
  · -- Without a fault the last text is in order too, and the compile succeeds.
    rintro ⟨error, herror⟩
    cases hraw : Script.check script.raw.toList with
    | error fault => exact ⟨fault, rfl⟩
    | ok =>
      have hsame : Script.verdict (Script.check (dedent woven.toList)) =
          Script.verdict (.ok ()) := by
        rw [hverdict, hraw]
        rfl
      have hok : Script.check (String.ofList (dedent woven.toList)).toList = .ok () := by
        rw [String.toList_ofList]
        exact Script.eq_ok_of_verdict hsame rfl
      rw [hcompile, compileScript_eq_ok_iff.2 ⟨fun _ => hok, rfl⟩] at herror
      contradiction
  · rintro ⟨fault, hfault⟩
    obtain ⟨failure, hfailure, -⟩ := hfails fault hfault
    exact ⟨_, hfailure⟩
  · obtain ⟨document, hparse, -, rfl⟩ := chooseSections_eq_ok_iff.1 hslots
    have hget : document.slots.get .logic = some script := hscript
    obtain ⟨hmem, -⟩ := Slots.mem_of_get hget
    have hagrees :=
      Document.agreesWith_of_readSections (.refl _ _) _ (Document.readSections_of_parse hparse)
    obtain ⟨above, below, htext, hstart, habove⟩ :=
      (hagrees script hmem).exists_above (Document.readFrom_of_parse hparse script hmem)
    obtain ⟨c, hat, before, after, hraw, hlocation⟩ := Script.standsIn_of_check hfault
    refine ⟨above, before, c, after, below, hraw ▸ htext, hraw, hstart, hat, hlocation, ?_⟩
    -- The lines above the character are those above the script and those before it in the script.
    have hcut : text.toList = (above ++ before) ++ (c :: after ++ below) := by
      rw [htext, hraw]
      simp only [List.append_assoc]
    rw [hcut, Location.ofOffset_append, Location.line_advanceAll, List.count_append, habove,
      hlocation, Location.line_advanceAll]
    exact Nat.add_left_comm _ _ _

/-- A document with markup, where the indented script closes a brace that is not open. -/
def braceDocument : String :=
  "<template>a</template>\n<script>\n  export default {}\n  \x7d\n</script>"

/-- The markup section of this document. -/
def braceTemplate : Section :=
  ⟨"template", [], "a", .markup [.text "a" ⟨10, 11⟩], ⟨0, 22⟩, ⟨10, 11⟩, ⟨1, 11⟩⟩

/-- The logic section of this document. -/
def braceScript : Section :=
  ⟨"script", [], "\n  export default {}\n  \x7d\n", .text "\n  export default {}\n  \x7d\n",
    ⟨23, 65⟩, ⟨31, 56⟩, ⟨2, 9⟩⟩

theorem parse_braceDocument :
    Document.parse braceDocument = .ok ⟨[braceTemplate, braceScript]⟩ := by
  have hfirst : Markup.lexContent braceDocument.toList =
      some ⟨[], "<template".toList, .ok (.openTag "template"),
        ">a</template>\n<script>\n  export default {}\n  \x7d\n</script>".toList⟩ := rfl
  have hbreak : Markup.lexContent "\n<script>\n  export default {}\n  \x7d\n</script>".toList =
      some ⟨[], "\n".toList, .ok (.text "\n"),
        "<script>\n  export default {}\n  \x7d\n</script>".toList⟩ := rfl
  have hsecond : Markup.lexContent "<script>\n  export default {}\n  \x7d\n</script>".toList =
      some ⟨[], "<script".toList, .ok (.openTag "script"),
        ">\n  export default {}\n  \x7d\n</script>".toList⟩ := rfl
  have hmarkup : Document.readSection braceDocument.toList "template" 0 9
      ">a</template>\n<script>\n  export default {}\n  \x7d\n</script>".toList =
      .ok ⟨braceTemplate, 22, "\n<script>\n  export default {}\n  \x7d\n</script>".toList⟩ := by
    with_unfolding_all rfl
  have hscript : Document.readSection braceDocument.toList "script" 23 30
      ">\n  export default {}\n  \x7d\n</script>".toList = .ok ⟨braceScript, 65, []⟩ := by
    with_unfolding_all rfl
  have hlast : Document.readSections braceDocument.toList 65 [] = .ok [] :=
    Document.readSections_end rfl
  -- The line break between the sections is passed over.
  have hrest : Document.readSections braceDocument.toList 22
      "\n<script>\n  export default {}\n  \x7d\n</script>".toList = .ok [braceScript] := by
    rw [Document.readSections_step hbreak]
    exact Document.readSections_of_openTag hsecond rfl hscript hlast
  have hsections : Document.readSections braceDocument.toList 0 braceDocument.toList =
      .ok [braceTemplate, braceScript] :=
    Document.readSections_of_openTag hfirst rfl hmarkup hrest
  rw [Document.parse, hsections]
  rfl

/-- The script on its own has the fault on its third line, below a pair of braces. -/
theorem check_braceScript :
    Script.check braceScript.raw.toList = .error ⟨.unexpected '}', ⟨3, 3⟩⟩ := by
  with_unfolding_all rfl

/-- The markup goes into the first pair of braces. -/
theorem inject?_braceScript :
    Script.inject? (paddedText braceScript).toList "a".toList =
      some "\n\n  export default \x7btemplate: \"a\",\x7d\n  \x7d\n".toList := by
  with_unfolding_all rfl

/-- **The brace is reported on the fourth line**, where it stands in the document and in each of the
three texts that are made of the script: with an empty line above it, with the markup in it, and
without its indentation. -/
theorem compile_reports_script_fault_brace :
    (∃ failure, (compile { registry := .builtin } braceDocument "").result =
        .error (.tool "js" .logic failure) ∧
      failure.message = "Unexpected '\x7d'" ∧ failure.line = some 4) ∧
    ∀ stage ∈ ["\n\n  export default {}\n  \x7d\n",
      "\n\n  export default \x7btemplate: \"a\",\x7d\n  \x7d\n",
      "\n\nexport default \x7btemplate: \"a\",\x7d\n\x7d\n"],
      Script.verdict (Script.check stage.toList) = .error (.unexpected '}', 4) := by
  have hslots : (chooseSections braceDocument).result =
      .ok ⟨some braceTemplate, some braceScript, none⟩ :=
    chooseSections_eq_ok_iff.2 ⟨_, parse_braceDocument, by rfl, by rfl⟩
  -- What the compile does up to the check: the markup is compiled and put into the script.
  have hlanguage : languageKey braceScript.logicLanguage = "js" := rfl
  have hcheck : checksScripts { registry := .builtin } braceScript.logicLanguage = true := rfl
  have hmarkup : (compileMarkup { registry := .builtin } braceTemplate ⟨braceDocument, ""⟩).result =
    .ok "a" := by with_unfolding_all rfl
  have hinserted : injectTemplate (paddedText braceScript) "a" =
      .ok "\n\n  export default \x7btemplate: \"a\",\x7d\n  \x7d\n" :=
    injectTemplate_eq_ok_iff.2 inject?_braceScript
  have hwoven :
    (insertMarkup { registry := .builtin } braceScript.logicLanguage (paddedText braceScript)
      (some "a")).result = .ok "\n\n  export default \x7btemplate: \"a\",\x7d\n  \x7d\n" := by
    rw [result_insertMarkup_js rfl hlanguage, hinserted]
    rfl
  obtain ⟨-, hfails, hstages⟩ :=
    @compile_reports_script_fault { registry := .builtin } rfl _ "" _ hslots _ rfl hlanguage hcheck
      _ _ _
      (whenPresent_some_eq_ok_iff.2 ⟨_, hmarkup, rfl⟩) rfl hwoven
  obtain ⟨⟨failure, hresult, hmessage, hline⟩, -⟩ := hfails _ check_braceScript
  refine ⟨⟨failure, hresult, hmessage, hline⟩, ?_⟩
  -- The texts of the three stages are computed; the theorem gives their verdicts.
  have hpadded : paddedText braceScript = "\n\n  export default {}\n  \x7d\n" := rfl
  have hdedent : dedent "\n\n  export default \x7btemplate: \"a\",\x7d\n  \x7d\n".toList =
      "\n\nexport default \x7btemplate: \"a\",\x7d\n\x7d\n".toList := rfl
  rw [check_braceScript, hpadded, hdedent] at hstages
  simp only [List.forall_mem_cons] at hstages ⊢
  obtain ⟨hfirst, hsecond, hthird, -⟩ := hstages
  exact ⟨hfirst, hsecond, hthird, List.forall_mem_nil _⟩

end Pipeline

end Triptych
