import Triptych.Document.Parser
import Triptych.Proofs.Markup.Shift
import Triptych.Proofs.Text.Slice

/-!
# Sections and the markup inside them

The markup of a section is read where it stands, up to the closing tag of the section; the text of
the section alone is read up to its end. Both give the same tree, apart from the offsets: the first
run is cut at the closing tag (`Reads.cut`), and the second is moved to where the section's text
starts (`parseNodes_shift`).

`Section.AgreesWith` puts together what a section says about its source. For a section that holds
text and is not self-closing that is also where it ends: at the first closing tag for its name.

* `agreesWith_of_readSection`: what one section is read as agrees with the source;
* `agreesWith_of_parse`: so do all sections of a document.
-/

namespace Triptych

open Text Markup

/-- The section was written with `/>`: nothing is between its tag and its end. -/
def Section.SelfClosed (source : List Char) (s : Section) : Prop :=
  s.contentSpan = ⟨s.span.stop, s.span.stop⟩ ∧ ∃ tag, Covers source s.span (tag ++ ['/', '>'])

/-- **A section agrees with its source**: its text stands there, its markup is how that text reads,
and text that is not markup ends at the first closing tag. -/
structure Section.AgreesWith (source : List Char) (s : Section) : Prop where
  covers : Covers source s.contentSpan s.raw.toList
  markup : ∀ nodes, s.content = .markup nodes →
    ∃ nodes₀, Markup.parse s.raw = .ok nodes₀ ∧ nodes = Node.shiftAll s.contentSpan.start nodes₀
  text : ∀ value, s.content = .text value → value = s.raw
  ends : ∀ value, s.content = .text value → ¬ s.SelfClosed source →
    HoldsNoClosingTag s.name.toList s.raw.toList ∧
      startsClosingTag s.name.toList (dropBytes s.contentSpan.stop source) = true

namespace Document

/-- **The markup of a section is the markup of its text**: nodes that are read up to the closing tag
are those that are read from the text before it, moved to where it starts. -/
theorem parse_of_enclosed {outer : Enclosing} {pos : Nat} {text : List Char} {found : ReadNodes}
    (h : parseNodes (some outer) [] [] pos text = .ok found) :
    ∃ read closing nodes₀, text = read ++ closing ∧ found.contentStop = pos + byteLength read ∧
      Markup.parse (String.ofList read) = .ok nodes₀ ∧ found.nodes = Node.shiftAll pos nodes₀ := by
  obtain ⟨closing, hreads, hclose⟩ := reads_of_parseNodes_enclosed h
  -- Cut at the closing tag the nodes are read up to the end of a text, still from `pos` on.
  obtain ⟨read, htext, hstop, halone⟩ := hreads.cut hclose.atEdge atEdge_nil
  rw [List.append_nil] at halone
  -- Reading the same text from its own start only moves the offsets back.
  have hmoved := parseNodes_shift pos none [] [] 0 read
  rw [Nat.zero_add] at hmoved
  have hrun := hmoved.symm.trans (parseNodes_eq_ok halone)
  cases hstart : parseNodes none [] [] 0 read with
  | error error =>
    rw [hstart] at hrun
    contradiction
  | ok found₀ =>
    rw [hstart] at hrun
    refine ⟨read, closing, found₀.nodes, htext, hstop, ?_, ?_⟩
    · rw [Markup.parse, String.toList_ofList, hstart]
      rfl
    · exact (congrArg ReadNodes.nodes (Except.ok.inj hrun)).symm

/-- Raw text ends before the first closing tag. -/
theorem break_of_readRawText {name : String} {opening : Span} {pos : Nat} {text : List Char}
    {found : ReadRawText} (h : readRawText name opening pos text = .ok found) :
    ∃ closing, text = found.content ++ closing ∧
      found.contentStop = pos + byteLength found.content ∧
      HoldsNoClosingTag name.toList found.content ∧
      startsClosingTag name.toList closing = true := by
  unfold readRawText at h
  split at h
  · contradiction
  next content closing hbreak =>
    simp only at h
    split at h
    · contradiction
    next =>
      obtain rfl := Except.ok.inj h
      obtain ⟨happend, hclosing⟩ := breakAtClosingTag_spec hbreak
      exact ⟨closing, happend.symm, rfl, holdsNoClosingTag_of_break hbreak, hclosing⟩

/-- A self-closing tag ends with `/>`. -/
theorem covers_of_selfClosing {source text : List Char} {openedAs : String} {start pos : Nat}
    {tag : ReadTag} (htag : readTag pos text = .ok tag) (hselfClosing : tag.selfClosing = true)
    (hstart : Advances 0 source start ('<' :: openedAs.toList ++ text))
    (hpos : pos = start + byteLength ('<' :: openedAs.toList)) :
    ∃ written, Covers source ⟨start, tag.stop⟩ (written ++ ['/', '>']) := by
  obtain ⟨body, rfl, hstop⟩ := (tagReads_of_readAttributes htag).exists_body_slash hselfClosing
  refine ⟨'<' :: openedAs.toList ++ body, ?_⟩
  have hwhole :
      Advances 0 source start ('<' :: openedAs.toList ++ body ++ ['/', '>'] ++ tag.rest) := by
    simpa using hstart
  have hcovers := Covers.of_advances hwhole
  rwa [List.append_assoc, byteLength_append, ← Nat.add_assoc, ← hpos, ← hstop,
    ← List.append_assoc] at hcovers

/-- A section that is read agrees with the source that it is read from. -/
theorem agreesWith_of_readSection {source text : List Char} {openedAs : String} {start pos : Nat}
    {result : ReadSection} (h : readSection source openedAs start pos text = .ok result)
    (hstart : Advances 0 source start ('<' :: openedAs.toList ++ text))
    (hpos : pos = start + byteLength ('<' :: openedAs.toList)) :
    result.found.AgreesWith source := by
  unfold readSection at h
  split at h
  · contradiction
  next tag htag =>
    have hsource : Advances 0 source tag.stop tag.rest := by
      subst hpos
      exact hstart.read.trans (readAttributes_advances htag)
    simp only at h
    split at h
    next hselfClosing =>
      obtain rfl := Except.ok.inj h
      refine ⟨?_, by simp, by simp, fun _ _ hopen => absurd ⟨rfl, ?_⟩ hopen⟩
      · have hhere : Advances 0 source tag.stop ([] ++ tag.rest) := hsource
        simpa using Covers.of_advances hhere
      · exact covers_of_selfClosing htag hselfClosing hstart hpos
    split at h
    next =>
      split at h
      · contradiction
      next body hbody =>
        obtain rfl := Except.ok.inj h
        -- Markup: the raw text of the section is cut out by offsets, and is what the parser read.
        obtain ⟨read, closing, nodes₀, hrest, hstop, hparse, hnodes⟩ := parse_of_enclosed hbody
        have hraw : takeBytes (body.contentStop - tag.stop) tag.rest = read := by
          rw [hstop, Nat.add_sub_cancel_left, hrest, takeBytes_append]
        rw [hrest] at hsource
        refine ⟨?_, ?_, by simp, by simp⟩
        · dsimp only
          rw [String.toList_ofList, hraw, hstop]
          exact Covers.of_advances hsource
        · intro nodes hcontent
          obtain rfl : body.nodes = nodes := by simpa using hcontent
          exact ⟨nodes₀, by simpa [hraw] using hparse, hnodes⟩
    next =>
      split at h
      · contradiction
      next body hbody =>
        obtain rfl := Except.ok.inj h
        -- Other text goes up to the first closing tag and is taken as it is.
        obtain ⟨closing, hrest, hstop, hnone, hclosing⟩ := break_of_readRawText hbody
        rw [hrest] at hsource
        refine ⟨?_, by simp, by simp, fun _ _ _ => ⟨?_, ?_⟩⟩
        · simpa [hstop] using Covers.of_advances hsource
        · simpa using hnone
        · simpa only [hstop, hsource.read.dropBytes_eq] using hclosing

/-- The end of the text ends the sections. -/
theorem readSections_end {source text : List Char} {pos : Nat} (hlex : lexContent text = none) :
    readSections source pos text = .ok [] := by
  rw [readSections.eq_def]
  split
  next => rfl
  next hsome => rw [hlex] at hsome; contradiction

/-- One step of `readSections`, for a token that was found. -/
theorem readSections_step {source text : List Char} {pos : Nat}
    {lexeme : Lexeme ContentFault ContentPart} (hlex : lexContent text = some lexeme) :
    readSections source pos text =
      let stop := pos + byteLength lexeme.chars
      match lexeme.token with
      | .error _ => .error (refusedContent pos (byteLength lexeme.chars) text)
      | .ok (.openTag name) =>
        match readSection source name pos stop lexeme.rest with
        | .error error => .error error
        | .ok result => (readSections source result.stop result.rest).map (result.found :: ·)
      | .ok (.closeTag name) => .error (.invalidSyntax ⟨pos, stop⟩ (.closingTagAtTopLevel name))
      | .ok _ => readSections source stop lexeme.rest := by
  -- The definition carries the proof that the text gets shorter; the token that was found is put
  -- into it.
  refine (readSections.eq_def ..).trans ?_
  split
  next hnone => rw [hlex] at hnone; contradiction
  next hsome =>
    obtain rfl := Option.some.inj (hlex.symm.trans hsome)
    dsimp only
    cases lexeme.token with
    | error fault => rfl
    | ok token =>
      cases token with
      | openTag name =>
        dsimp only
        split
        next hsection => rw [hsection]
        next result hsection =>
          rw [hsection]
          dsimp only
          cases readSections source result.stop result.rest <;> rfl
      | _ => rfl

/-- One step of `readSections`, for an opening tag that was found. -/
theorem readSections_openTag {source text : List Char} {pos : Nat}
    {lexeme : Lexeme ContentFault ContentPart} {name : String}
    (hlex : lexContent text = some lexeme) (htoken : lexeme.token = .ok (.openTag name)) :
    readSections source pos text =
      match readSection source name pos (pos + byteLength lexeme.chars) lexeme.rest with
      | .error error => .error error
      | .ok result => (readSections source result.stop result.rest).map (result.found :: ·) := by
  rw [readSections_step hlex]
  simp only [htoken]

theorem readSections_of_openTag {source text : List Char} {pos : Nat}
    {lexeme : Lexeme ContentFault ContentPart} {name : String} {result : ReadSection}
    {sections : List Section} (hlex : lexContent text = some lexeme)
    (htoken : lexeme.token = .ok (.openTag name))
    (hsection : readSection source name pos (pos + byteLength lexeme.chars) lexeme.rest =
      .ok result)
    (hsections : readSections source result.stop result.rest = .ok sections) :
    readSections source pos text = .ok (result.found :: sections) := by
  rw [readSections_openTag hlex htoken, hsection]
  dsimp only
  rw [hsections]
  rfl

/-- A document that is one section. -/
theorem parse_of_single {source name : String} {lexeme : Lexeme ContentFault ContentPart}
    {s : Section} {stop : Nat} (hlex : lexContent source.toList = some lexeme)
    (htoken : lexeme.token = .ok (.openTag name))
    (hsection : readSection source.toList name 0 (byteLength lexeme.chars) lexeme.rest =
      .ok ⟨s, stop, []⟩) :
    Document.parse source = .ok ⟨[s]⟩ := by
  have hend : readSections source.toList stop [] = .ok [] := readSections_end rfl
  rw [← Nat.zero_add (byteLength lexeme.chars)] at hsection
  rw [Document.parse, readSections_of_openTag hlex htoken hsection hend]
  rfl

/-- A document that is one section and right behind it another one. -/
theorem parse_of_pair {source name name' : String}
    {lexeme lexeme' : Lexeme ContentFault ContentPart} {s s' : Section} {stop stop' : Nat}
    {rest : List Char}
    (hlex : lexContent source.toList = some lexeme) (htoken : lexeme.token = .ok (.openTag name))
    (hsection : readSection source.toList name 0 (byteLength lexeme.chars) lexeme.rest =
      .ok ⟨s, stop, rest⟩)
    (hlex' : lexContent rest = some lexeme') (htoken' : lexeme'.token = .ok (.openTag name'))
    (hsection' : readSection source.toList name' stop (stop + byteLength lexeme'.chars)
      lexeme'.rest = .ok ⟨s', stop', []⟩) :
    Document.parse source = .ok ⟨[s, s']⟩ := by
  have hend : readSections source.toList stop' [] = .ok [] := readSections_end rfl
  rw [← Nat.zero_add (byteLength lexeme.chars)] at hsection
  rw [Document.parse, readSections_of_openTag hlex htoken hsection
    (readSections_of_openTag hlex' htoken' hsection' hend)]
  rfl

/-- The start of an opening tag is `<` and the name. -/
theorem chars_eq_of_openTag {chars rest : List Char} {name : String}
    (h : Lexes chars (.openTag name) rest) :
    chars = '<' :: name.toList := by
  cases h with
  | openTag => rw [String.toList_ofList]

/-- **What holds of every section that is read holds of all sections of a source.** -/
theorem forall_mem_of_readSections {source text : List Char} {pos : Nat} {P : Section → Prop}
    (hP : ∀ {openedAs start text result}, Advances 0 source start ('<' :: openedAs.toList ++ text) →
      readSection source openedAs start (start + byteLength ('<' :: openedAs.toList)) text =
        .ok result →
      P result.found)
    (hsource : Advances 0 source pos text) :
    ∀ sections, readSections source pos text = .ok sections → ∀ s ∈ sections, P s := by
  -- Only an opening tag makes a section. Whatever else is between two sections is passed over.
  fun_induction readSections source pos text with
  | case1 pos text hlex =>
    intro sections h
    obtain rfl := Except.ok.inj h
    simp
  | case2 | case3 | case4 | case6 => simp
  | case5 pos text lexeme hlex _ stop name htoken result hsection _ sections hsections ih =>
    intro _ h
    obtain rfl := Except.ok.inj h
    have hchars := chars_eq_of_openTag (lexes_of_lexContent hlex htoken)
    have hname : Advances 0 source pos ('<' :: name.toList ++ lexeme.rest) := by
      rw [← hchars, lexContent_append hlex]
      exact hsource
    have hbehind : Advances 0 source result.stop result.rest :=
      (hsource.trans (lexContent_advances pos hlex)).trans (readSection_advances hsection)
    refine List.forall_mem_cons.2 ⟨hP hname ?_, ih hbehind _ hsections⟩
    rw [← hchars]
    exact hsection
  | case7 pos text lexeme hlex _ stop _ _ _ _ ih =>
    exact ih (hsource.trans (lexContent_advances pos hlex))

/-- The sections that are read from a source agree with it. -/
theorem agreesWith_of_readSections {source text : List Char} {pos : Nat}
    (hsource : Advances 0 source pos text) :
    ∀ sections, readSections source pos text = .ok sections → ∀ s ∈ sections, s.AgreesWith source :=
  forall_mem_of_readSections (fun hstart h => agreesWith_of_readSection h hstart rfl) hsource

/-- **Documents and markup agree**: every section of a document that parses agrees with the
source. -/
theorem agreesWith_of_parse {source : String} {document : Document}
    (h : Document.parse source = .ok document) :
    ∀ s ∈ document.sections, s.AgreesWith source.toList := by
  exact agreesWith_of_readSections (.refl _ _) document.sections (readSections_of_parse h)

/-- A document that is one section of markup. -/
theorem agreesWith_of_parse_template :
    Section.AgreesWith "<template>x</template>".toList
      ⟨"template", [], "x", .markup [.text "x" ⟨10, 11⟩], ⟨0, 22⟩, ⟨10, 11⟩, ⟨1, 11⟩⟩ := by
  have hlex : lexContent "<template>x</template>".toList =
      some ⟨[], "<template".toList, .ok (.openTag "template"), ">x</template>".toList⟩ := rfl
  have hparse : Document.parse "<template>x</template>" =
      .ok ⟨[⟨"template", [], "x", .markup [.text "x" ⟨10, 11⟩], ⟨0, 22⟩, ⟨10, 11⟩, ⟨1, 11⟩⟩]⟩ :=
    parse_of_single hlex rfl (by with_unfolding_all rfl)
  exact agreesWith_of_parse hparse _ (List.mem_singleton.2 rfl)

end Document

end Triptych
