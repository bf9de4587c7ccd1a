import Triptych.Proofs.Document.Languages
import Triptych.Proofs.Markup.Shift
import Triptych.Proofs.Markup.Squeezing
import Triptych.Proofs.Pipeline.Stages

/-!
# Markup without its indentation

Before markup is made smaller it loses its indentation, the line breaks before it and the blanks
after it, and it is then read again. That it was read as part of the document does not say that it
can be read again, since the indentation is taken from every line, wherever the line starts. If all
its blanks are of the kind that separates the parts of a tag it can be, and has the same elements
(`dedent_keeps_elements`).

So a compile can fail on markup that is not well-formed only if the markup holds another blank: no
other stage fails in this way (`noMinify_compileStyling`, `noMinify_compileLogic`).
-/

namespace Triptych

open Text Markup

/-! ### Outlines and places -/

mutual

/-- An outline has no spans, so it does not tell where markup stands. -/
theorem Markup.Node.outline_shift (base : Nat) (node : Node) :
    (node.shift base).outline = node.outline := by
  match node with
  | .element tag children span =>
    have hchildren := Node.outlines_shiftAll base children
    have htag : (tag.shift base).outline = tag.outline := by
      simp [Tag.outline, Tag.shift, Attribute.outline, Attribute.shift]
    rw [Node.shift, Node.outline, Node.outline, hchildren, htag]
  | .text _ _ | .comment _ _ => rfl

/-- An outline does not tell where a tree stands. -/
theorem Markup.Node.outlines_shiftAll (base : Nat) (nodes : List Node) :
    outlines (Node.shiftAll base nodes) = outlines nodes := by
  match nodes with
  | [] => rfl
  | node :: nodes =>
    have hnode := Node.outline_shift base node
    have hnodes := Node.outlines_shiftAll base nodes
    rw [Node.shiftAll, outlines, outlines, hnode, hnodes]

end

/-! ### Stages that do not read markup -/

/-- The outcome is not that markup could not be read. -/
def NoMinify {α : Type} (outcome : Except CompileError α) : Prop :=
  ∀ error, outcome ≠ .error (.minify error)

section NoMinify

variable {α β ε : Type}

/-- A success is no failure of minification. -/
theorem noMinify_ok (value : α) : NoMinify (.ok value) := by
  intro error h
  contradiction

theorem noMinify_error {failure : CompileError} (h : ∀ error, failure ≠ .minify error) :
    NoMinify (.error failure : Except CompileError α) := by
  intro error hfailure
  exact h error (Except.error.inj hfailure)

/-- An outcome whose faults are wrapped as other failures has none. -/
theorem noMinify_mapError {wrap : ε → CompileError}
    (hwrap : ∀ fault error, wrap fault ≠ .minify error) (outcome : Except ε α) :
    NoMinify (outcome.mapError wrap) := by
  intro error h
  cases outcome with
  | ok value => contradiction
  | error fault => exact hwrap fault error (Except.error.inj h)

/-- Two stages one after the other have none if neither has. -/
theorem NoMinify.bind {first : Except CompileError α} {next : α → Except CompileError β}
    (hfirst : NoMinify first) (hnext : ∀ value, first = .ok value → NoMinify (next value)) :
    NoMinify (first >>= next) := by
  intro error h
  cases first with
  | error fault => exact hfirst error (congrArg Except.error (Except.error.inj h))
  | ok value => exact hnext value rfl error h

theorem NoMinify.map {outcome : Except CompileError α} (h : NoMinify outcome) (f : α → β) :
    NoMinify (outcome.map f) := by
  intro error hmap
  cases outcome with
  | error fault => exact h error (by rw [← Except.error.inj hmap])
  | ok value => contradiction

end NoMinify

namespace Pipeline

variable {p : Pipeline}

/-- **The stages of a compile other than minification have no failure of minification**, each for
itself. -/
theorem noMinify_applyCapability (kind : SectionRole) (language : Option String) (origin : Section)
    (text : String) (source : Source) :
    NoMinify (p.applyCapability kind language origin text source).result := by
  unfold applyCapability
  split
  next => exact noMinify_ok _
  next name capability _ =>
    have htool (outcome : Except Failure String) :
        NoMinify (outcome.mapError (CompileError.tool name kind)) :=
      noMinify_mapError (by simp) outcome
    -- Whether the call is recorded makes no difference to its result.
    rw [Traced.result_bind]
    dsimp only
    split
    · exact htool _
    · exact htool _

theorem noMinify_runPlugins (context : PluginContext) (css : String)
    (plugins : List StylesheetPlugin) :
    NoMinify (runPlugins context css plugins).result := by
  induction plugins generalizing css with
  | nil => exact noMinify_ok css
  | cons plugin plugins ih =>
    have hprocess :
        NoMinify ((plugin.process context css).mapError (CompileError.postProcess plugin.name)) :=
      noMinify_mapError (by simp) _
    unfold runPlugins
    rw [Traced.result_bind]
    show NoMinify ((Traced.orFail (plugin.process context css) (.postProcess plugin.name) >>=
      _ : Traced String).result)
    rw [Traced.result_bind, Traced.result_orFail]
    refine hprocess.bind fun processed _ => ?_
    rw [Traced.result_bind]
    exact ih processed

theorem noMinify_compileStyling (origin : Section) (source : Source) :
    NoMinify (p.compileStyling origin source).result := by
  rw [result_compileStyling]
  refine NoMinify.bind (noMinify_applyCapability _ _ _ _ _) fun compiled _ => ?_
  exact NoMinify.map (noMinify_runPlugins _ _ _) styleModule

/-- A stage for a section that may be missing has none if the stage for the section has none. -/
theorem noMinify_whenPresent {α : Type} {origin : Option Section} {compile : Section → Traced α}
    (h : ∀ s ∈ origin, NoMinify (compile s).result) :
    NoMinify (whenPresent origin compile).result := by
  cases origin with
  | none => exact noMinify_ok none
  | some origin =>
    unfold whenPresent
    rw [Traced.result_bind]
    exact NoMinify.bind (h origin rfl) fun value _ => noMinify_ok _

theorem noMinify_insertMarkup (language text : String) (markup : Option String) :
    NoMinify (p.insertMarkup language text markup).result := by
  unfold insertMarkup
  split
  next => exact noMinify_ok text
  next markup =>
    split
    next => exact noMinify_error fun _ => nofun
    next inject _ =>
      have htool : NoMinify ((inject text markup).mapError (CompileError.tool language .logic)) :=
        noMinify_mapError (by simp) _
      rw [Traced.result_bind]
      exact htool

theorem noMinify_compileLogic (origin : Option Section) (markup : Option String) (source : Source) :
    NoMinify (p.compileLogic origin markup source).result := by
  cases origin with
  | none => exact noMinify_error fun _ => nofun
  | some origin =>
    rw [result_compileLogic]
    exact NoMinify.bind (noMinify_insertMarkup _ _ _) fun woven _ =>
      noMinify_applyCapability _ _ _ _ _

/-! ### Markup that was read -/

/-- Markup that was read as part of a document reads as the same elements with fewer blanks. -/
theorem exists_parse_of_squeezes {s : Section} {source : List Char} {nodes : List Node}
    {text' : List Char} (hagrees : s.AgreesWith source) (hnodes : s.content = .markup nodes)
    (hsqueeze : Squeezes true true s.raw.toList text') :
    ∃ nodes', Markup.parse (String.ofList text') = .ok nodes' ∧
      outlines nodes' = outlines nodes := by
  obtain ⟨nodes₀, hparse, rfl⟩ := hagrees.markup nodes hnodes
  obtain ⟨nodes', hparse', houtline⟩ := parse_squeeze hparse hsqueeze
  refine ⟨nodes', hparse', houtline.trans ?_⟩
  rw [Node.outlines_shiftAll]

/-- Markup that can be read can be made smaller. -/
theorem noMinify_minify {options : Reductions} {text : String} {nodes : List Node}
    (h : Markup.parse text = .ok nodes) :
    NoMinify ((Markup.minify options text).mapError .minify) := by
  unfold Markup.minify
  rw [h]
  split
  · exact noMinify_ok _
  · exact noMinify_ok _

/-- **Minification accepts what the markup compiles to**, if the section was read from the
document. -/
theorem noMinify_compileMarkup {source : Source} {s : Section} {nodes : List Node}
    (hread : s.ReadFrom source.text.toList) (hagrees : s.AgreesWith source.text.toList)
    (hnodes : s.content = .markup nodes) (hblanks : PlainBlanks s.raw.toList) :
    NoMinify (p.compileMarkup s source).result := by
  have hlanguage : s.language? = none := Section.language?_eq_none (hread.markup nodes hnodes).2
  -- Without a language the text is passed on, once more without the line breaks before it.
  have hpassed : (p.applyCapability .markup none s (markupText s) source).result =
      .ok (String.ofList ((markupText s).toList.dropWhile isLineBreak)) := rfl
  have hsqueeze :
      Squeezes true true s.raw.toList ((markupText s).toList.dropWhile isLineBreak) := by
    refine Squeezes.dropWhile ?_ fun c => isAsciiBlank_of_isLineBreak
    rw [markupText, String.toList_ofList]
    exact squeezes_dedent_trimEnd hblanks
  obtain ⟨nodes', hparse, -⟩ := exists_parse_of_squeezes hagrees hnodes hsqueeze
  rw [result_compileMarkup, hlanguage, hpassed]
  exact noMinify_minify hparse

theorem noMinify_chooseSections (text : String) : NoMinify (chooseSections text).result := by
  have hparse : NoMinify ((Document.parse text).mapError CompileError.parse) :=
    noMinify_mapError (by simp) _
  unfold chooseSections
  rw [Traced.result_bind, Traced.result_orFail]
  refine hparse.bind fun document _ => ?_
  change NoMinify (if document.isValid then _ else _ : Traced Slots).result
  split
  next => exact noMinify_ok _
  next => exact noMinify_error fun _ => nofun

/-- The only markup section of a document is the one that counts. -/
theorem markup_slot_eq {source : List Char} {document : Document}
    (hread : ∀ s ∈ document.sections, s.ReadFrom source) (hvalid : document.isValid = true)
    {s origin : Section} (hmem : s ∈ document.sections) (hname : s.name = "template")
    (horigin : document.slots.markup = some origin) : origin = s := by
  have hget : document.slots.get .markup = some origin := horigin
  obtain ⟨hmem', htag⟩ := Slots.mem_of_get hget
  have hname' : origin.name = "template" := (hread origin hmem').name_eq htag
  refine Document.eq_of_isValid hvalid (List.mem_filter.2 ⟨hmem', ?_⟩)
    (List.mem_filter.2 ⟨hmem, ?_⟩)
  · exact beq_iff_eq.2 hname'
  · exact beq_iff_eq.2 hname

/-- With plain blanks in its markup no stage of a compile fails to read markup: the markup can be
read, and the others read none. -/
theorem noMinify_compile {source : String} {document : Document}
    (hparse : Document.parse source = .ok document) {s : Section} (hmem : s ∈ document.sections)
    {nodes : List Node} (hnodes : s.content = .markup nodes) (hblanks : PlainBlanks s.raw.toList)
    (id : String) : NoMinify (p.compile source id).result := by
  have hread := Document.readFrom_of_parse hparse
  have hagrees :=
    Document.agreesWith_of_readSections (.refl _ _) _ (Document.readSections_of_parse hparse)
  show NoMinify (chooseSections source >>= fun slots => p.compileSlots slots ⟨source, id⟩).result
  rw [Traced.result_bind]
  refine NoMinify.bind (noMinify_chooseSections source) fun slots hslots => ?_
  obtain ⟨document', hparse', hvalid, rfl⟩ := chooseSections_eq_ok_iff.1 hslots
  obtain rfl := Except.ok.inj (hparse'.symm.trans hparse)
  rw [result_compileSlots]
  refine NoMinify.bind ?_ fun markup _ => NoMinify.bind ?_ fun style _ => ?_
  · refine noMinify_whenPresent fun origin horigin => ?_
    obtain rfl := markup_slot_eq hread hvalid hmem ((hread s hmem).markup nodes hnodes).1 horigin
    exact noMinify_compileMarkup (hread origin hmem) (hagrees origin hmem) hnodes hblanks
  · exact noMinify_whenPresent fun origin _ => noMinify_compileStyling origin _
  · exact NoMinify.map (noMinify_compileLogic _ _ _) _

/-- **Markup keeps its elements without its indentation.** If all blanks in the text of a markup
section are spaces, tabs, line feeds, carriage returns and form feeds, the text without its
indentation, the line breaks before it and the blanks after it can be read, and has the elements of
the section. So if a compile fails because markup cannot be read, the text holds another blank,
whatever the pipeline. -/
theorem dedent_keeps_elements {source : String} {document : Document}
    (hparse : Document.parse source = .ok document) {s : Section} (hmem : s ∈ document.sections)
    {nodes : List Node} (hnodes : s.content = .markup nodes) :
    (PlainBlanks s.raw.toList →
      ∃ nodes', Markup.parse (markupText s) = .ok nodes' ∧ outlines nodes' = outlines nodes) ∧
    ∀ (p : Pipeline) (id : String) (error : ParseError),
      (p.compile source id).result = .error (.minify error) →
      ∃ c ∈ s.raw.toList, isBlank c = true ∧ isAsciiBlank c = false := by
  have hagrees :=
    Document.agreesWith_of_readSections (.refl _ _) _ (Document.readSections_of_parse hparse)
  refine ⟨fun hblanks => ?_, fun p id error hfails => ?_⟩
  · exact exists_parse_of_squeezes (hagrees s hmem) hnodes (squeezes_dedent_trimEnd hblanks)
  · by_cases hblanks : PlainBlanks s.raw.toList
    · exact absurd hfails (noMinify_compile hparse hmem hnodes hblanks id error)
    · simpa [PlainBlanks] using hblanks

/-- A document with a value that goes over two lines. -/
def brokenDocument : String :=
  "<template>\n  <br a=\"b\n  c\">\n</template>"

/-- Its markup section. -/
def brokenValue : Section where
  name := "template"
  attributes := []
  raw := "\n  <br a=\"b\n  c\">\n"
  content := .markup
    [.text "\n  " ⟨10, 13⟩, .element ⟨"br", [⟨"a", some "b\n  c", .double, ⟨17, 26⟩⟩], false⟩ []
      ⟨13, 27⟩, .text "\n" ⟨27, 28⟩]
  span := ⟨0, 39⟩
  contentSpan := ⟨10, 28⟩
  location := ⟨1, 11⟩

/-- What the document is read as, token by token. -/
theorem parse_brokenDocument : Document.parse brokenDocument = .ok ⟨[brokenValue]⟩ := by
  have hlex : lexContent brokenDocument.toList =
      some ⟨[], "<template".toList, .ok (.openTag "template"),
        ">\n  <br a=\"b\n  c\">\n</template>".toList⟩ := rfl
  have hname : readTag 9 ">\n  <br a=\"b\n  c\">\n</template>".toList =
      .ok ⟨[], false, 10, "\n  <br a=\"b\n  c\">\n</template>".toList⟩ := by with_unfolding_all rfl
  have hbreak : lexContent "\n  <br a=\"b\n  c\">\n</template>".toList =
      some ⟨[], "\n  ".toList, .ok (.text "\n  "),
        "<br a=\"b\n  c\">\n</template>".toList⟩ := rfl
  have hopen : lexContent "<br a=\"b\n  c\">\n</template>".toList =
      some ⟨[], "<br".toList, .ok (.openTag "br"), " a=\"b\n  c\">\n</template>".toList⟩ := rfl
  have htag : readTag 16 " a=\"b\n  c\">\n</template>".toList =
      .ok ⟨[⟨"a", some "b\n  c", .double, ⟨17, 26⟩⟩], false, 27, "\n</template>".toList⟩ := by
    with_unfolding_all rfl
  have hleaf : OpensWith 13 "<br a=\"b\n  c\">\n</template>".toList
      ⟨"br", [⟨"a", some "b\n  c", .double, ⟨17, 26⟩⟩], false⟩ 27 "\n</template>".toList :=
    opensWith_of_lexContent hopen rfl htag
  -- The content is a line break, the tag with the broken value, and another line break.
  have hbody : parseNodes (some ⟨"template", ⟨0, 10⟩⟩) []
    [] 10 "\n  <br a=\"b\n  c\">\n</template>".toList =
      .ok ⟨brokenValue.nodes, 28, 39, []⟩ := by
    rw [parseNodes_step hbreak]
    show parseNodes _ [] [.text "\n  " ⟨10, 13⟩] 13 "<br a=\"b\n  c\">\n</template>".toList = _
    rw [parseNodes_leaf hleaf rfl]
    with_unfolding_all rfl
  have hsection : Document.readSection brokenDocument.toList "template" 0 9
      ">\n  <br a=\"b\n  c\">\n</template>".toList = .ok ⟨brokenValue, 39, []⟩ := by
    have hsmall : String.ofList (lower "template".toList) = "template" := by decide
    rw [Document.readSection, hname]
    dsimp only
    rw [hsmall, if_neg (by simp), if_pos (by decide), hbody]
    rfl
  exact Document.parse_of_single hlex rfl hsection

/-- An attribute value over two lines loses its indentation with the lines around it, and the
element is read as before. -/
theorem dedent_keeps_elements_broken_value :
    (∃ nodes', Markup.parse "<br a=\"b\nc\">" = .ok nodes' ∧
      outlines nodes' = [.element ⟨"br", [⟨"a", some "", .double, ⟨0, 0⟩⟩], false⟩ [] ⟨0, 0⟩]) ∧
    ∀ id error, (compile { registry := .builtin } brokenDocument id).result ≠
      .error (.minify error) := by
  have hblanks : PlainBlanks brokenValue.raw.toList := by
    have hall : brokenValue.raw.toList.all (fun c => !isBlank c || isAsciiBlank c) = true := by
      decide
    intro c hc hblank
    simpa [hblank] using List.all_eq_true.1 hall c hc
  have htext : markupText brokenValue = "<br a=\"b\nc\">" := rfl
  obtain ⟨hkept, hcompile⟩ :=
    dedent_keeps_elements parse_brokenDocument (List.mem_singleton.2 rfl) rfl
  constructor
  · rw [← htext]
    exact hkept hblanks
  · intro id error hfails
    obtain ⟨c, hc, hblank, hother⟩ := hcompile _ id error hfails
    rw [hblanks c hc hblank] at hother
    contradiction

end Pipeline

end Triptych
