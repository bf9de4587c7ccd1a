import Triptych.Proofs.Document.Places
import Triptych.Proofs.Markup.Layout

/-!
# Where the sections of a document stand

Sections come one after the other, and each holds its content between its two tags. So contents of
different sections are apart, with at least the opening tag of the later one between them
(`pairwise_contentSpan`).

* `inPlace_of_readSection`: what one section says of its own offsets, and where its markup is laid
  out;
* `pairwise_of_readSections`: the step from one section to the next, along a whole run.
-/

namespace Triptych

open Text Markup

/-- **A section is in place**: the content is behind an opening tag and ends with the section or
before it, and markup is laid out in it. -/
structure Section.InPlace (source : List Char) (s : Section) : Prop where
  opens : s.span.start < s.contentSpan.start
  closes : s.contentSpan.stop ≤ s.span.stop
  laidOut : ∀ nodes, s.content = .markup nodes → LaidOut source s.contentSpan nodes

namespace Document

variable {source text : List Char}

/-- The closing tag stands behind the content. -/
theorem contentStop_le_of_readRawText {name : String} {opening : Span} {pos : Nat}
    {found : ReadRawText} (h : readRawText name opening pos text = .ok found) :
    found.contentStop ≤ found.stop := by
  unfold readRawText at h
  split at h
  · contradiction
  next content closing hbreak =>
    simp only at h
    split at h
    · contradiction
    next stop rest hend =>
      obtain rfl := Except.ok.inj h
      exact (Nat.le_add_right _ _).trans (readTagEnd_advances hend).pos_le_stop

/-- A section spans from its tag to where reading it stopped. -/
theorem span_of_readSection {openedAs : String} {start pos : Nat} {result : ReadSection}
    (h : readSection source openedAs start pos text = .ok result) :
    result.found.span = ⟨start, result.stop⟩ := by
  unfold readSection at h
  split at h
  · contradiction
  next tag htag =>
    simp only at h
    split at h
    · obtain rfl := Except.ok.inj h
      rfl
    split at h
    all_goals
      split at h
      · contradiction
      · obtain rfl := Except.ok.inj h
        rfl

/-- **A section lies in its place in the source**: the span of its content is inside of its own. -/
theorem inPlace_of_readSection {openedAs : String} {start pos : Nat} {result : ReadSection}
    (h : readSection source openedAs start pos text = .ok result) (hpos : start < pos)
    (hsource : Advances 0 source pos text) : result.found.InPlace source := by
  unfold readSection at h
  split at h
  · contradiction
  next tag htag =>
    have htagEnd := readAttributes_advances htag
    have hopens : start < tag.stop := hpos.trans_le htagEnd.pos_le_stop
    simp only at h
    split at h
    · obtain rfl := Except.ok.inj h
      exact ⟨hopens, le_rfl, by simp⟩
    split at h
    · split at h
      · contradiction
      next body hbody =>
        obtain rfl := Except.ok.inj h
        -- The nodes are read where they stand, so they are laid out there.
        obtain ⟨closing, hreads, hclose⟩ := reads_of_parseNodes_enclosed hbody
        refine ⟨hopens, hclose.advances.pos_le_stop, ?_⟩
        intro nodes hnodes
        obtain rfl : body.nodes = nodes := by simpa using hnodes
        exact hreads.layout (hsource.trans htagEnd)
    · split at h
      · contradiction
      next body hbody =>
        obtain rfl := Except.ok.inj h
        exact ⟨hopens, contentStop_le_of_readRawText hbody, by simp⟩

/-- Sections are in place. -/
theorem inPlace_of_parse {source : String} {document : Document}
    (h : Document.parse source = .ok document) :
    ∀ s ∈ document.sections, s.InPlace source.toList := by
  refine forall_mem_of_readSections ?_ (.refl _ _) _ (readSections_of_parse h)
  intro openedAs start text result hstart hsection
  have hpos := byteLength_pos (List.cons_ne_nil '<' openedAs.toList)
  exact inPlace_of_readSection hsection (Nat.lt_add_of_pos_right hpos) hstart.read

/-- **Sections come one after the other**, from where the reader stands. -/
theorem pairwise_of_readSections {pos : Nat} :
    ∀ sections, readSections source pos text = .ok sections →
      (∀ s ∈ sections, pos ≤ s.span.start) ∧ sections.Pairwise fun s later =>
        s.span.stop ≤ later.span.start := by
  fun_induction readSections source pos text with
  | case1 =>
    intro sections h
    obtain rfl := Except.ok.inj h
    exact ⟨by simp, .nil⟩
  -- There are no sections where there is an error, and what is no section is passed over.
  | case2 | case3 | case4 | case6 =>
    intro sections h
    contradiction
  | case5 pos text lexeme hlex _ stop name htoken result hsection _ sections hsections ih =>
    intro _ h
    obtain rfl := Except.ok.inj h
    obtain ⟨hbehind, hpairwise⟩ := ih _ hsections
    have hspan := span_of_readSection hsection
    have hstop : stop ≤ result.stop := (readSection_advances hsection).pos_le_stop
    constructor
    · -- The first section starts where the reader stood, the others behind it.
      refine List.forall_mem_cons.2 ⟨by rw [hspan], ?_⟩
      intro s hs
      have hle := hbehind s hs
      omega
    · refine List.pairwise_cons.2 ⟨?_, hpairwise⟩
      intro later hlater
      rw [hspan]
      exact hbehind later hlater
  | case7 pos text lexeme hlex _ stop _ _ _ _ ih =>
    intro sections h
    obtain ⟨hbehind, hpairwise⟩ := ih _ h
    refine ⟨?_, hpairwise⟩
    intro s hs
    exact (Nat.le_add_right _ _).trans (hbehind s hs)

/-- **Contents of different sections are apart.** -/
theorem pairwise_contentSpan {source : String} {document : Document}
    (h : Document.parse source = .ok document) :
    document.sections.Pairwise fun s later => s.contentSpan.stop < later.contentSpan.start := by
  have hinPlace := inPlace_of_parse h
  have hpairwise := (pairwise_of_readSections _ (readSections_of_parse h)).2
  refine hpairwise.imp_of_mem ?_
  intro s later hs hlater hle
  calc s.contentSpan.stop
      ≤ s.span.stop := (hinPlace s hs).closes
    _ ≤ later.span.start := hle
    _ < later.contentSpan.start := (hinPlace later hlater).opens

end Document

end Triptych
