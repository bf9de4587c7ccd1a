import Mathlib.Data.List.Perm.Basic
import Triptych.Proofs.Document.Order
import Triptych.Proofs.Lint.Rules

/-!
# The findings of a document

The linter sorts the findings of each section on its own and puts the lists one behind the other.
The result is sorted as a whole, since a rule points inside the section that it looks at and
contents of different sections are apart. `Thorough` says what is in the list and in which order:

* which findings there are is said without a list of elements, by `OccursIn`;
* how often, and in which order at the same place, is said by the list of all checks in their order,
  `checksOf`: the list that is returned is that list in a stable order (`StableOrder`).

`thorough_of_pointsInside` holds for any rules that point inside what they look at.
-/

namespace Triptych.Lint

open Text Markup

/-! ### Stable order -/

/-- **A stable order**: `sorted` has the findings of `made` by where they start, and those that
start at the same place in the order in which they were made. -/
structure StableOrder (made sorted : List Diagnostic) : Prop where
  perm : sorted.Perm made
  ordered : sorted.Pairwise fun d later => d.span.start ≤ later.span.start
  stable : ∀ offset, sorted.filter (·.span.start == offset) = made.filter (·.span.start == offset)

/-- **Sorting by the start of the span is a stable order.** -/
theorem stableOrder_mergeSort (made : List Diagnostic) :
    StableOrder made (made.mergeSort fun d later => d.span.start ≤ later.span.start) := by
  have htrans : ∀ a b c : Diagnostic, decide (a.span.start ≤ b.span.start) = true →
      decide (b.span.start ≤ c.span.start) = true →
      decide (a.span.start ≤ c.span.start) = true := by
    intro a b c hab hbc
    exact decide_eq_true ((of_decide_eq_true hab).trans (of_decide_eq_true hbc))
  have htotal : ∀ a b : Diagnostic,
      (decide (a.span.start ≤ b.span.start) || decide (b.span.start ≤ a.span.start)) = true := by
    intro a b
    rw [Bool.or_eq_true, decide_eq_true_iff, decide_eq_true_iff]
    exact le_total _ _
  have hperm := List.mergeSort_perm made fun d later => decide (d.span.start ≤ later.span.start)
  refine ⟨hperm, ?_, ?_⟩
  · exact (List.pairwise_mergeSort htrans htotal made).imp of_decide_eq_true
  · intro offset
    -- The findings at one offset are in order already, so they are still there as a sublist.
    have hties : (made.filter (·.span.start == offset)).Pairwise fun d later =>
        decide (d.span.start ≤ later.span.start) = true := by
      apply List.pairwise_of_forall_mem_list
      intro d hd later hlater
      have hd := beq_iff_eq.1 (List.mem_filter.1 hd).2
      have hlater := beq_iff_eq.1 (List.mem_filter.1 hlater).2
      exact decide_eq_true (by omega)
    have hsublist := (List.sublist_mergeSort htrans htotal hties List.filter_sublist).filter
      (·.span.start == offset)
    simp only [List.filter_filter, Bool.and_self] at hsublist
    exact (hsublist.eq_of_length (hperm.filter _).length_eq.symm).symm

/-- Stable orders of parts are a stable order of the whole if no finding of a part starts behind one
of a later part. -/
theorem stableOrder_flatMap {sections : List Section} {made sorted : Section → List Diagnostic}
    (hparts : ∀ s ∈ sections, StableOrder (made s) (sorted s))
    (hapart : sections.Pairwise fun s later => ∀ d ∈ made s, ∀ d' ∈ made later,
      d.span.start ≤ d'.span.start) :
    StableOrder (sections.flatMap made) (sections.flatMap sorted) := by
  refine ⟨List.Perm.flatMap_left _ fun s hs => (hparts s hs).perm, ?_, ?_⟩
  · rw [List.pairwise_flatMap]
    refine ⟨fun s hs => (hparts s hs).ordered, hapart.imp_of_mem ?_⟩
    intro s later hs hlater hle d hd d' hd'
    exact hle d ((hparts s hs).perm.mem_iff.1 hd) d' ((hparts later hlater).perm.mem_iff.1 hd')
  · intro offset
    rw [List.filter_flatMap, List.filter_flatMap]
    exact List.flatMap_congr fun s hs => (hparts s hs).stable offset

/-! ### What is checked -/

/-- The finding with its location. -/
def Diagnostic.locate (source : List Char) (d : Diagnostic) : Diagnostic :=
  { d with location := Location.ofOffset source d.span.start }

/-- What all checks of a section find, in the order of the checks: every rule on the text, then on
each element every rule, an element before those inside it. -/
def checksOf (rules : RuleSet) (source : List Char) (s : Section) : List Diagnostic :=
  ((rules.flatMap fun rule => rule.checkText s.raw.toList s.contentSpan.start) ++
    (elementsOf s.nodes).flatMap fun element => rules.flatMap fun rule =>
      rule.checkElement element).map
      (Diagnostic.locate source)

/-- A finding of a section: a rule makes it about the text of the section, or about an element in
it. -/
def FoundIn (rules : RuleSet) (source : List Char) (s : Section) (d : Diagnostic) : Prop :=
  ∃ rule ∈ rules, ∃ found, d = found.locate source ∧
    (found ∈ rule.checkText s.raw.toList s.contentSpan.start ∨
      ∃ element, OccursIn element s.nodes ∧ found ∈ rule.checkElement element)

/-- A section's findings are those of its elements and of the section itself. -/
theorem mem_checksOf_iff {rules : RuleSet} {source : List Char} {s : Section} {d : Diagnostic} :
    d ∈ checksOf rules source s ↔ FoundIn rules source s d := by
  unfold checksOf FoundIn
  simp only [List.mem_map, List.mem_append, List.mem_flatMap, mem_elementsOf_iff]
  constructor
  · rintro ⟨found, ⟨rule, hrule, hfound⟩ | ⟨element, helement, rule, hrule, hfound⟩, rfl⟩
    · exact ⟨rule, hrule, found, rfl, .inl hfound⟩
    · exact ⟨rule, hrule, found, rfl, .inr ⟨element, helement, hfound⟩⟩
  · rintro ⟨rule, hrule, found, rfl, hfound | ⟨element, helement, hfound⟩⟩
    · exact ⟨found, .inl ⟨rule, hrule, hfound⟩, rfl⟩
    · exact ⟨found, .inr ⟨element, helement, rule, hrule, hfound⟩, rfl⟩

theorem stableOrder_sectionFindings (rules : RuleSet) (source : List Char) (s : Section) :
    StableOrder (checksOf rules source s) (sectionFindings rules source s) :=
  stableOrder_mergeSort _

/-! ### Where findings are -/

/-- The markup of a section is laid out in its content. -/
theorem placedIn_of_mem_elementsOf {source : List Char} {s : Section} (h : s.InPlace source) :
    (∀ element ∈ elementsOf s.nodes, element.PlacedIn s.contentSpan) ∧
      (elementsOf s.nodes).Pairwise fun element later => element.span.start < later.span.start := by
  unfold Section.nodes
  cases hcontent : s.content with
  | markup nodes =>
    have hlaidOut := h.laidOut nodes hcontent
    exact ⟨hlaidOut.placed_of_mem_elementsOf, hlaidOut.pairwise_elementsOf⟩
  | text value => exact ⟨by simp [elementsOf], .nil⟩

/-- **A finding is inside its section.** -/
theorem within_of_foundIn {rules : RuleSet} {source : List Char} {s : Section} {d : Diagnostic}
    (hrules : ∀ rule ∈ rules, rule.PointsInside) (hagrees : s.AgreesWith source)
    (hinPlace : s.InPlace source) (h : FoundIn rules source s d) : d.span.Within s.contentSpan := by
  obtain ⟨rule, hrule, found, rfl, hfound | ⟨element, helement, hfound⟩⟩ := h
  · -- The text of the section fills its content.
    have hwithin := (hrules rule hrule).text found hfound
    obtain ⟨before, after, -, hstart, hstop⟩ := hagrees.covers
    have hfills : s.contentSpan.start + byteLength s.raw.toList = s.contentSpan.stop := by
      rw [hstop, hstart]
    exact ⟨hwithin.start_le, hwithin.start_le_stop, hwithin.stop_le.trans_eq hfills⟩
  · have hplaced := (placedIn_of_mem_elementsOf hinPlace).1 element (mem_elementsOf_iff.2 helement)
    rcases (hrules rule hrule).element found hfound with hspan | ⟨attr, hattr, hspan⟩
    · show found.span.Within s.contentSpan
      rw [hspan]
      exact hplaced.within
    · show found.span.Within s.contentSpan
      rw [hspan]
      exact (hplaced.attributes attr hattr).trans hplaced.within

/-! ### The whole document -/

/-- **The findings of a document are thorough.** -/
structure Thorough (rules : RuleSet) (source : List Char) (document : Document) : Prop where
  /-- Every rule has its findings about every text and every element, and there are no others. -/
  complete : ∀ d, d ∈ documentFindings rules source document ↔
    ∃ s ∈ document.sections, s.name = "template" ∧ FoundIn rules source s d
  /-- Over the whole document the findings stand in the order of the source. At one place they stand
  in the order of the checks, and there are as many as the checks make. -/
  inOrder : StableOrder ((document.named "template").flatMap (checksOf rules source))
    (documentFindings rules source document)
  /-- No element is checked twice. -/
  once : ∀ s ∈ document.sections,
    (elementsOf s.nodes).Pairwise fun element later => element.span.start < later.span.start
  /-- The findings come section by section. -/
  bySection : documentFindings rules source document =
    (document.named "template").flatMap (sectionFindings rules source)
  /-- Those of a section are inside its content. -/
  inside : ∀ s ∈ document.named "template", ∀ d ∈ sectionFindings rules source s,
    d.span.Within s.contentSpan
  /-- Contents of different sections are apart. -/
  apart : (document.named "template").Pairwise fun s later => s.contentSpan.stop <
    later.contentSpan.start
  /-- Every location is that of the start of the span. -/
  located : ∀ d ∈ documentFindings rules source document, d.location =
    Location.ofOffset source d.span.start

/-- **The linter is thorough with rules that point inside of sections.** -/
theorem thorough_of_pointsInside {rules : RuleSet} (hrules : ∀ rule ∈ rules, rule.PointsInside)
    {source : String} {document : Document} (h : Document.parse source = .ok document) :
    Thorough rules source.toList document := by
  have hagrees :=
    Document.agreesWith_of_readSections (.refl _ _) _ (Document.readSections_of_parse h)
  have hinPlace := Document.inPlace_of_parse h
  -- What is known of one finding, of the findings of one section, and of the whole list.
  have hwithin : ∀ s ∈ document.sections, ∀ d, FoundIn rules source.toList s d →
      d.span.Within s.contentSpan := by
    intro s hs d hd
    exact within_of_foundIn hrules (hagrees s hs) (hinPlace s hs) hd
  have hmem : ∀ s d, d ∈ sectionFindings rules source.toList s ↔
      FoundIn rules source.toList s d := by
    intro s d
    rw [← mem_checksOf_iff]
    exact (stableOrder_sectionFindings rules source.toList s).perm.mem_iff
  have hnamed : ∀ s, s ∈ document.named "template" ↔
      s ∈ document.sections ∧ s.name = "template" := by
    intro s
    rw [Document.named, List.mem_filter, beq_iff_eq]
  have hcomplete : ∀ d, d ∈ documentFindings rules source.toList document ↔
      ∃ s ∈ document.sections, s.name = "template" ∧ FoundIn rules source.toList s d := by
    intro d
    show d ∈ (document.named "template").flatMap (sectionFindings rules source.toList) ↔ _
    simp only [List.mem_flatMap, hnamed, hmem, and_assoc]
  -- The contents of sections lie one behind the other.
  have hapart : (document.named "template").Pairwise fun s later => s.contentSpan.stop <
      later.contentSpan.start :=
    (Document.pairwise_contentSpan h).filter _
  refine ⟨hcomplete, ?_, ?_, rfl, ?_, hapart, ?_⟩
  · -- Contents of different sections are apart, so sorting the parts is enough.
    refine stableOrder_flatMap (fun s _ => stableOrder_sectionFindings rules source.toList s) ?_
    refine hapart.imp_of_mem ?_
    intro s later hs hlater hlt d hd d' hd'
    have hd := hwithin s ((hnamed s).1 hs).1 d (mem_checksOf_iff.1 hd)
    have hd' := hwithin later ((hnamed later).1 hlater).1 d' (mem_checksOf_iff.1 hd')
    calc d.span.start
        ≤ d.span.stop := hd.start_le_stop
      _ ≤ s.contentSpan.stop := hd.stop_le
      _ ≤ later.contentSpan.start := hlt.le
      _ ≤ d'.span.start := hd'.start_le
  · intro s hs
    exact (placedIn_of_mem_elementsOf (hinPlace s hs)).2
  · intro s hs d hd
    exact hwithin s ((hnamed s).1 hs).1 d ((hmem s d).1 hd)
  · intro d hd
    obtain ⟨s, -, -, rule, -, found, rfl, -⟩ := (hcomplete d).1 hd
    rfl

/-- **With the rules of this library the findings of a document that parses are thorough**:
complete, in order over the whole document, each inside its own section and located where it
starts. -/
theorem thorough_of_parse {source : String} {document : Document}
    (h : Document.parse source = .ok document) :
    Thorough .default source.toList document :=
  thorough_of_pointsInside pointsInside_of_mem_default h

/-- The findings about an obsolete element that has an attribute twice. -/
theorem thorough_of_parse_obsolete :
    ∃ document, Document.parse "<template><tt a a/></template>" = .ok document ∧
      Thorough .default "<template><tt a a/></template>".toList document := by
  let tag : Tag := ⟨"tt", [.bare "a" ⟨14, 15⟩, .bare "a" ⟨16, 17⟩], true⟩
  let template : Section :=
    ⟨"template", [], "<tt a a/>", .markup [.element tag [] ⟨10, 19⟩], ⟨0, 30⟩, ⟨10, 19⟩, ⟨1, 11⟩⟩
  -- The tokens of the document are computed, and the grammar puts them together.
  have hlex : lexContent "<template><tt a a/></template>".toList =
      some ⟨[], "<template".toList, .ok (.openTag "template"), "><tt a a/></template>".toList⟩ := by
    rfl
  have hname : readTag 9 "><tt a a/></template>".toList =
      .ok ⟨[], false, 10, "<tt a a/></template>".toList⟩ := by
    with_unfolding_all rfl
  have hbody : parseNodes (some ⟨"template", ⟨0, 10⟩⟩) [] [] 10 "<tt a a/></template>".toList =
      .ok ⟨template.nodes, 19, 30, []⟩ := by
    have hopen : lexContent "<tt a a/></template>".toList =
        some ⟨[], "<tt".toList, .ok (.openTag "tt"), " a a/></template>".toList⟩ := by
      rfl
    have htag : readTag 13 " a a/></template>".toList =
        .ok ⟨tag.attributes, true, 19, "</template>".toList⟩ := by
      with_unfolding_all rfl
    rw [parseNodes_leaf (opensWith_of_lexContent hopen rfl htag) rfl]
    with_unfolding_all rfl
  have hparse : Document.parse "<template><tt a a/></template>" = .ok ⟨[template]⟩ := by
    apply Document.parse_of_single hlex rfl
    show Document.readSection _ "template" 0 9 "><tt a a/></template>".toList =
      .ok ⟨template, 30, []⟩
    have hsmall : String.ofList (lower "template".toList) = "template" := by decide
    rw [Document.readSection, hname]
    dsimp only
    rw [hsmall, if_neg (by simp), if_pos (by decide), hbody]
    rfl
  exact ⟨_, hparse, thorough_of_parse hparse⟩

end Triptych.Lint
