import Triptych.Proofs.Document.Fragment
import Triptych.Proofs.Pipeline.Stages
import Triptych.Proofs.Script.Injection

/-!
# Weaving only inserts the template

A document with markup and a script compiles to what it compiles to without the markup, but for one
insertion: right after an opening brace stands the property `template`, whose value is a JSON string
for the compiled markup (`exists_insertion_of_compile`).

The insertion is made before the indentation is taken away, before the check and before the blanks
around the script are dropped. So three things have to be seen: that the first and the last leave it
where it is and as it is (`dedent_insert`, `trim_insert`), and that the check succeeds without it if
it does with it. For the latter the verdict is carried from the woven script without indentation to
the plain one without indentation, through both scripts as they are written.
-/

namespace Triptych

open Text

/-- The property ends in a visible character. -/
theorem stops_reverse_templateProperty (markup : List Char) :
    Stops isBlank (Script.templateProperty markup).reverse := by
  unfold Script.templateProperty
  rw [List.reverse_append, List.reverse_singleton, List.singleton_append]
  exact stops_cons (by decide) _

/-- **A script compiles without the markup if it does with it**, and the two results differ by the
property behind a brace. -/
theorem compileScript_of_inject? {check : Bool} {logic markup woven : List Char} {code : String}
    (hwoven : Script.inject? logic markup = some woven)
    (h : compileScript check (String.ofList (dedent woven)) = .ok code) :
    ∃ before after, compileScript check (String.ofList (dedent logic)) =
        .ok (String.ofList (before ++ '{' :: after)) ∧
      code = String.ofList (before ++ '{' :: (Script.templateProperty markup ++ after)) := by
  -- The plain script is in order if the woven one is: neither indentation nor the property changes
  -- the verdict.
  have hverdict : Script.verdict (Script.check (dedent logic)) =
      Script.verdict (Script.check (dedent woven)) := by
    rw [Script.verdict_check_dedent, Script.verdict_check_dedent,
      Script.verdict_check_inject hwoven]
  obtain ⟨left, right, hsegments, -, rfl⟩ := Script.inject?_segments hwoven
  have hlogic := Script.flatMap_chars_segments [] none logic
  rw [hsegments, List.flatMap_append, List.flatMap_cons, List.singleton_append] at hlogic
  have hbrace : isBlank '{' = false := by decide
  -- One cut of the script serves both: with nothing put behind the brace, and with the property.
  obtain ⟨before, after, hdedent⟩ :=
    dedent_insert hbrace (left.flatMap Script.Segment.chars) (right.flatMap Script.Segment.chars)
  have hplain := hdedent [] List.not_mem_nil
  rw [List.nil_append, List.nil_append, hlogic] at hplain
  have hproperty := hdedent _ (Script.not_mem_templateProperty markup)
  rw [hproperty] at h hverdict
  rw [hplain] at hverdict ⊢
  obtain ⟨hcheck, rfl⟩ := compileScript_eq_ok_iff.1 h
  rw [String.toList_ofList] at hcheck ⊢
  rw [trim_insert hbrace before after (stops_reverse_templateProperty markup)]
  refine ⟨trimStart before, trimEnd after ++ ['\n'], compileScript_eq_ok_iff.2 ⟨fun hon => ?_, ?_⟩,
    ?_⟩
  · rw [String.toList_ofList]
    exact Script.eq_ok_of_verdict hverdict (hcheck hon)
  · have htrim : trim (before ++ '{' :: ([] ++ after)) =
      trimStart before ++ '{' :: ([] ++ trimEnd after) :=
      trim_insert hbrace before after nofun
    rw [List.nil_append, List.nil_append] at htrim
    rw [String.toList_ofList, htrim, List.append_assoc, List.cons_append]
  · rw [List.append_assoc, List.cons_append, List.append_assoc]

namespace Pipeline

variable {p : Pipeline}

/-- **Weaving only inserts the template.** With the capabilities of this library, a document with
markup and a script compiles to what its script and styling compile to without the markup, but for
one insertion right after a brace: the property `template`, whose value is JSON for the compiled
markup and holds no control character. -/
theorem exists_insertion_of_compile (hregistry : p.registry = .builtin) {text id : String}
    {slots : Slots} (hslots : (chooseSections text).result = .ok slots) {markup script : Section}
    (hmarkup : slots.markup = some markup) (hscript : slots.logic = some script)
    (hlanguage : languageKey script.logicLanguage = "js") {out : Output}
    (h : (p.compile text id).result = .ok out) :
    ∃ compiled out₀, (p.compileMarkup markup ⟨text, id⟩).result = .ok compiled ∧
      (p.compileSlots { slots with markup := none } ⟨text, id⟩).result = .ok out₀ ∧
      out.style = out₀.style ∧
      ∃ before json after, out₀.code = before ++ "\x7b" ++ after ∧
        out.code = before ++ "\x7b" ++ ("template: " ++ json ++ ",") ++ after ∧
        (∀ c ∈ json.toList, 0x20 ≤ c.toNat) ∧ Json.parse json.toList = .ok (.string compiled) := by
  rw [result_compile_of_chooseSections hslots] at h
  obtain ⟨markup?, hpresent, hstyle, hcode⟩ := compileSlots_eq_ok_iff.1 h
  rw [hmarkup] at hpresent
  rw [hscript] at hcode
  obtain ⟨compiled, hcompiled, rfl⟩ := whenPresent_some_eq_ok_iff.1 hpresent
  obtain ⟨woven, hwoven, hcode⟩ := (compileLogic_some_eq_ok_iff hregistry hlanguage).1 hcode
  -- From here on it is a matter of the script alone.
  obtain ⟨before, after, hplain, hinserted⟩ := compileScript_of_inject? hwoven hcode
  refine ⟨compiled, ⟨String.ofList (before ++ '{' :: after), out.style⟩, hcompiled, ?_, rfl,
    String.ofList before, String.ofList (Json.quote compiled.toList), String.ofList after, ?_, ?_,
    ?_, ?_⟩
  · -- Without the markup the stages are the same, up to the logic.
    refine compileSlots_eq_ok_iff.2 ⟨none, rfl, hstyle, ?_⟩
    rw [hscript]
    exact (compileLogic_none_eq_ok_iff hregistry hlanguage).2 hplain
  · exact String.toList_injective (by simp)
  · rw [hinserted]
    unfold Script.templateProperty
    exact String.toList_injective (by simp)
  · rw [String.toList_ofList]
    exact fun c hc => Json.le_toNat_of_mem_quote hc
  · rw [String.toList_ofList, Json.parse_quote, String.ofList_toList]

/-- A document whose markup is a quotation mark. -/
def quoteDocument : String :=
  "<template>\"</template><script>export default {}</script>"

/-- The markup section of this document. -/
def quoteMarkup : Section :=
  ⟨"template", [], "\"", .markup [.text "\"" ⟨10, 11⟩], ⟨0, 22⟩, ⟨10, 11⟩, ⟨1, 11⟩⟩

/-- The logic section of this document. -/
def quoteScript : Section :=
  ⟨"script", [], "export default {}", .text "export default {}", ⟨22, 56⟩, ⟨30, 47⟩, ⟨1, 31⟩⟩

theorem parse_quoteDocument :
    Document.parse quoteDocument = .ok ⟨[quoteMarkup, quoteScript]⟩ := by
  have hfirst : Markup.lexContent quoteDocument.toList =
      some ⟨[], "<template".toList, .ok (.openTag "template"),
        ">\"</template><script>export default {}</script>".toList⟩ := rfl
  have hsecond : Markup.lexContent "<script>export default {}</script>".toList =
      some ⟨[], "<script".toList, .ok (.openTag "script"),
        ">export default {}</script>".toList⟩ := rfl
  have hmarkup : Document.readSection quoteDocument.toList "template" 0 9
      ">\"</template><script>export default {}</script>".toList =
      .ok ⟨quoteMarkup, 22, "<script>export default {}</script>".toList⟩ := by
    with_unfolding_all rfl
  have hscript : Document.readSection quoteDocument.toList "script" 22 29
      ">export default {}</script>".toList = .ok ⟨quoteScript, 56, []⟩ := by with_unfolding_all rfl
  exact Document.parse_of_pair hfirst rfl hmarkup hsecond rfl hscript

/-- The compiled markup is one quotation mark; the property writes it with a backslash. -/
theorem inject?_quoteScript :
    Script.inject? (paddedText quoteScript).toList ['"'] =
      some "export default \x7btemplate: \"\\\"\",\x7d".toList := by
  with_unfolding_all rfl

/-- With the property in it the script is accepted, so it is written as it is. -/
theorem check_quoteScript :
    Script.check (dedent "export default \x7btemplate: \"\\\"\",\x7d".toList) = .ok () := by
  with_unfolding_all rfl

/-- Markup with a quotation mark in it, which the property escapes. -/
theorem exists_insertion_of_compile_quote :
    ∃ compiled out₀,
      (compileMarkup { registry := .builtin } quoteMarkup ⟨quoteDocument, ""⟩).result =
      .ok compiled ∧
      (compileSlots { registry := .builtin } { logic := some quoteScript }
        ⟨quoteDocument, ""⟩).result = .ok out₀ ∧
      none = out₀.style ∧
      ∃ before json after, out₀.code = before ++ "\x7b" ++ after ∧
        "export default \x7btemplate: \"\\\"\",\x7d\n" =
          before ++ "\x7b" ++ ("template: " ++ json ++ ",") ++ after ∧
        (∀ c ∈ json.toList, 0x20 ≤ c.toNat) ∧ Json.parse json.toList = .ok (.string compiled) := by
  have hslots : (chooseSections quoteDocument).result =
      .ok ⟨some quoteMarkup, some quoteScript, none⟩ :=
    chooseSections_eq_ok_iff.2 ⟨_, parse_quoteDocument, by rfl, by rfl⟩
  have hlanguage : languageKey quoteScript.logicLanguage = "js" := rfl
  have hcompiled :
      (compileMarkup { registry := .builtin } quoteMarkup ⟨quoteDocument, ""⟩).result =
        .ok (String.ofList ['"']) := by with_unfolding_all rfl
  -- The stages of the compile in turn: the markup, the property in the script, the written script.
  have hcode :
      (compileLogic { registry := .builtin } (some quoteScript) (some (String.ofList ['"']))
        ⟨quoteDocument, ""⟩).result =
          .ok "export default \x7btemplate: \"\\\"\",\x7d\n" := by
    refine (compileLogic_some_eq_ok_iff rfl hlanguage).2 ⟨_, inject?_quoteScript, ?_⟩
    rw [compileScript_eq_ok_iff, String.toList_ofList]
    exact ⟨fun _ => check_quoteScript, by rfl⟩
  have hcompile : (compile { registry := .builtin } quoteDocument "").result =
      .ok ⟨"export default \x7btemplate: \"\\\"\",\x7d\n", none⟩ := by
    rw [result_compile_of_chooseSections hslots]
    exact compileSlots_eq_ok_iff.2
      ⟨_, whenPresent_some_eq_ok_iff.2 ⟨_, hcompiled, rfl⟩, rfl, hcode⟩
  exact exists_insertion_of_compile rfl hslots rfl rfl hlanguage hcompile

end Pipeline

end Triptych
