import Mathlib.Data.List.TakeWhile
import Mathlib.Tactic.ByContra
import Triptych.Proofs.Document.Places

/-!
# The language of a section

Two definitions speak about the language of a section. `declaresLanguage` looks at all attributes,
and decides whether a `template` is read as markup; `Section.language?` looks at the first `lang`
only, and tells later stages which language the section is in. `Attribute.NamesLanguage` is what
both look for.

They differ in one case, `HidesLanguage`: a language is named behind a first `lang` that names none,
as in `<template lang="" lang="pug">`. Such a section is kept as text, although it has no language.

* `markup_iff_of_readSection`: a `template` that is not self-closing is markup exactly if no
  attribute names a language;
* `language?_eq_none_iff`: a section has no language exactly if none is named or the named one is
  hidden;
* `markup_iff_language?_iff`: so the two agree on a section exactly if it hides no language.
-/

namespace Triptych

open Text Markup

/-- Trimming leaves nothing of a text of blanks, and of no other. -/
theorem Text.trim_eq_nil_iff {text : List Char} : trim text = [] ↔ isBlankText text = true := by
  unfold trim trimEnd dropEndWhile trimStart isBlankText
  rw [List.reverse_eq_nil_iff, List.dropWhile_eq_nil_iff, List.all_eq_true]
  constructor
  · -- The first character behind the leading blanks is none, so there is no such character.
    intro h
    apply List.dropWhile_eq_nil_iff.1
    by_contra hne
    have hblank := h _ (List.mem_reverse.2 (List.head_mem hne))
    rw [List.head_dropWhile_not isBlank hne] at hblank
    contradiction
  · intro h c hc
    exact h c ((List.dropWhile_sublist isBlank).mem (List.mem_reverse.1 hc))

/-- The attribute names a language: it is a `lang`, and its value is not blank. -/
def Markup.Attribute.NamesLanguage (attr : Attribute) : Prop :=
  attr.name = "lang" ∧ ∃ value, attr.value = some value ∧ isBlankText value.toList = false

/-- **A hidden language**: the first `lang` names no language, and one behind it does. -/
def HidesLanguage (attributes : List Attribute) : Prop :=
  ∃ before first after, attributes = before ++ first :: after ∧
    (∀ attr ∈ before, attr.name ≠ "lang") ∧ first.name = "lang" ∧ ¬ first.NamesLanguage ∧
      ∃ attr ∈ after, attr.NamesLanguage

namespace Document

theorem declaresLanguage_iff {attributes : List Attribute} :
    declaresLanguage attributes = true ↔ ∃ attr ∈ attributes, attr.NamesLanguage := by
  unfold declaresLanguage Attribute.NamesLanguage
  simp only [List.any_eq_true, Bool.and_eq_true, beq_iff_eq, Option.any_eq_true, Bool.not_eq_true']

theorem declaresLanguage_eq_false_iff {attributes : List Attribute} :
    declaresLanguage attributes = false ↔ ∀ attr ∈ attributes, ¬ attr.NamesLanguage := by
  rw [← Bool.not_eq_true, declaresLanguage_iff]
  simp only [not_exists, not_and]

end Document

/-! ### The first `lang` -/

namespace Section

variable {s : Section}

/-- The language of a section is that of its first `lang`. -/
theorem language?_eq_none_iff_first :
    s.language? = none ↔ ∀ first, s.attribute? "lang" = some first → ¬ first.NamesLanguage := by
  unfold language? attributeValue?
  cases hfind : s.attribute? "lang" with
  | none => simp
  | some first =>
    have hname : first.name = "lang" := by simpa using List.find?_some hfind
    simp only [Option.bind_some, Option.some.injEq, forall_eq', Attribute.NamesLanguage, hname,
      true_and]
    cases first.value with
    | none => simp
    | some value => simp [trim_eq_nil_iff]

/-- Where no attribute declares a language there is none. -/
theorem language?_eq_none (h : Document.declaresLanguage s.attributes = false) :
    s.language? = none := by
  apply language?_eq_none_iff_first.2
  intro first hfirst
  exact Document.declaresLanguage_eq_false_iff.1 h first (List.mem_of_find?_eq_some hfirst)

/-- **A section has no language if none is named or the named one is hidden.** -/
theorem language?_eq_none_iff :
    s.language? = none ↔ Document.declaresLanguage s.attributes = false ∨
      HidesLanguage s.attributes := by
  constructor
  · intro hnone
    by_cases hdeclares : Document.declaresLanguage s.attributes = false
    · exact .inl hdeclares
    right
    obtain ⟨named, hmem, hnamed⟩ :=
      Document.declaresLanguage_iff.1 (Bool.not_eq_false _ ▸ hdeclares)
    -- Some attribute is a `lang`, so there is a first one, and it is not the one that names the
    -- language.
    cases hfind : s.attribute? "lang" with
    | none =>
      have hnot := List.find?_eq_none.1 hfind named hmem
      exact absurd (beq_iff_eq.2 hnamed.1) hnot
    | some first =>
      have hfirst := language?_eq_none_iff_first.1 hnone first hfind
      obtain ⟨hname, before, after, hsplit, hbefore⟩ := List.find?_eq_some_iff_append.1 hfind
      have hbefore' : ∀ attr ∈ before, attr.name ≠ "lang" := by
        intro attr hattr
        simpa using hbefore attr hattr
      refine ⟨before, first, after, hsplit, hbefore', beq_iff_eq.1 hname, hfirst, named, ?_, hnamed⟩
      rw [hsplit, List.mem_append, List.mem_cons] at hmem
      rcases hmem with hmem | rfl | hmem
      · exact absurd hnamed.1 (hbefore' named hmem)
      · exact absurd hnamed hfirst
      · exact hmem
  · rintro (hdeclares | ⟨before, first, after, hsplit, hbefore, hname, hfirst, -⟩)
    · exact language?_eq_none hdeclares
    apply language?_eq_none_iff_first.2
    intro found hfound
    have hfind : s.attribute? "lang" = some first := by
      refine List.find?_eq_some_iff_append.2 ⟨beq_iff_eq.2 hname, before, after, hsplit, ?_⟩
      intro attr hattr
      simpa using hbefore attr hattr
    obtain rfl := Option.some.inj (hfind.symm.trans hfound)
    exact hfirst

end Section

theorem HidesLanguage.declaresLanguage {attributes : List Attribute}
    (h : HidesLanguage attributes) :
    Document.declaresLanguage attributes = true := by
  obtain ⟨before, first, after, rfl, -, -, -, named, hmem, hnamed⟩ := h
  exact Document.declaresLanguage_iff.2 ⟨named, by simp [hmem], hnamed⟩

/-! ### What is read as markup -/

namespace Document

/-- A `template` that is not self-closing is read as markup exactly if no attribute declares a
language. -/
theorem markup_iff_of_readSection {source text : List Char} {openedAs : String} {start pos : Nat}
    {result : ReadSection} (h : readSection source openedAs start pos text = .ok result)
    (hstart : Advances 0 source start ('<' :: openedAs.toList ++ text))
    (hpos : pos = start + byteLength ('<' :: openedAs.toList))
    (hname : result.found.name = "template") (hopen : ¬ result.found.SelfClosed source) :
    (∃ nodes, result.found.content = .markup nodes) ↔
      declaresLanguage result.found.attributes = false := by
  unfold readSection at h
  split at h
  · contradiction
  next tag htag =>
    simp only at h
    split at h
    next hselfClosing =>
      obtain rfl := Except.ok.inj h
      exact absurd ⟨rfl, covers_of_selfClosing htag hselfClosing hstart hpos⟩ hopen
    split at h
    next htemplate =>
      split at h
      · contradiction
      next body hbody =>
        obtain rfl := Except.ok.inj h
        rw [Bool.and_eq_true, Bool.not_eq_true'] at htemplate
        exact ⟨fun _ => htemplate.2, fun _ => ⟨body.nodes, rfl⟩⟩
    next htemplate =>
      split at h
      · contradiction
      next body hbody =>
        obtain rfl := Except.ok.inj h
        -- The name is `template`, so it is the attributes that keep the section from being markup.
        have hdeclares : ¬ declaresLanguage tag.attributes = false := by
          intro hnone
          apply htemplate
          rw [hnone, beq_iff_eq.2 hname]
          rfl
        constructor
        · rintro ⟨nodes, hnodes⟩
          contradiction
        · exact fun hnone => absurd hnone hdeclares

/-- **What is read as markup and what has no language.** A `template` with a closing tag is markup
exactly if none of its attributes names a language. Then it has no language; the converse fails
exactly where the first `lang` hides one. -/
theorem markup_iff_language?_iff {source : String} {document : Document}
    (h : Document.parse source = .ok document) {s : Section} (hs : s ∈ document.sections)
    (hname : s.name = "template") (hopen : ¬ s.SelfClosed source.toList) :
    ((∃ nodes, s.content = .markup nodes) ↔ ∀ attr ∈ s.attributes, ¬ attr.NamesLanguage) ∧
      ((∃ nodes, s.content = .markup nodes) → s.language? = none) ∧
      (((∃ nodes, s.content = .markup nodes) ↔ s.language? = none) ↔
        ¬ HidesLanguage s.attributes) := by
  -- The reader asks whether any attribute names a language, the section asks the first `lang` only.
  have hmarkup : (∃ nodes, s.content = .markup nodes) ↔ declaresLanguage s.attributes = false :=
    forall_mem_of_readSections
      (P := fun s => s.name = "template" → ¬ s.SelfClosed source.toList →
        ((∃ nodes, s.content = .markup nodes) ↔ declaresLanguage s.attributes = false))
      (fun hstart hsection => markup_iff_of_readSection hsection hstart rfl) (.refl _ _) _
        (readSections_of_parse h)
      s hs hname hopen
  rw [hmarkup, Section.language?_eq_none_iff]
  -- The two agree but where the first `lang` hides a language.
  refine ⟨declaresLanguage_eq_false_iff, .inl, ?_⟩
  constructor
  · intro hagree hhides
    have hnone := hagree.2 (.inr hhides)
    rw [hhides.declaresLanguage] at hnone
    contradiction
  · intro hshows
    constructor
    · exact .inl
    · rintro (hnone | hhides)
      · exact hnone
      · exact absurd hhides hshows

/-- A bare `lang` behind the one that names the language hides nothing: the section is text, and has
the language. -/
theorem markup_iff_language?_iff_bare :
    ∃ s, Document.parse "<template lang=\"pug\" lang>x</template>" = .ok ⟨[s]⟩ ∧
      s.name = "template" ∧
      ¬ s.SelfClosed "<template lang=\"pug\" lang>x</template>".toList ∧
      ((∃ nodes, s.content = .markup nodes) ↔ s.language? = none) := by
  let pug : Attribute := ⟨"lang", some "pug", .double, ⟨10, 20⟩⟩
  let s : Section :=
    ⟨"template", [pug, .bare "lang" ⟨21, 25⟩], "x", .text "x", ⟨0, 38⟩, ⟨26, 27⟩, ⟨1, 27⟩⟩
  have hparse : Document.parse "<template lang=\"pug\" lang>x</template>" = .ok ⟨[s]⟩ := by
    have hlex : lexContent "<template lang=\"pug\" lang>x</template>".toList =
        some ⟨[], "<template".toList, .ok (.openTag "template"),
            " lang=\"pug\" lang>x</template>".toList⟩ := by
      rfl
    apply parse_of_single hlex rfl
    with_unfolding_all rfl
  have hopen : ¬ s.SelfClosed "<template lang=\"pug\" lang>x</template>".toList := by
    intro hself
    exact absurd (congrArg Span.stop hself.1) (by decide)
  -- Hidden would mean that the first `lang` names nothing, but it is the one that names `pug`.
  have hshows : ¬ HidesLanguage s.attributes := by
    rintro ⟨before, first, after, hsplit, hbefore, -, hfirst, -⟩
    cases before with
    | nil =>
      obtain ⟨rfl, -⟩ := List.cons_eq_cons.1 hsplit
      exact hfirst ⟨rfl, "pug", rfl, by decide⟩
    | cons attr before =>
      obtain ⟨rfl, -⟩ := List.cons_eq_cons.1 hsplit
      exact hbefore pug List.mem_cons_self rfl
  exact ⟨s, hparse, rfl, hopen,
    (markup_iff_language?_iff hparse (List.mem_singleton.2 rfl) rfl hopen).2.2.2 hshows⟩

/-- A hidden language: the section is text and has no language. -/
theorem text_without_language :
    ∃ s, Document.parse "<template lang=\"\" lang=\"pug\">x</template>" = .ok ⟨[s]⟩ ∧
      s.name = "template" ∧
      ¬ s.SelfClosed "<template lang=\"\" lang=\"pug\">x</template>".toList ∧
      s.content = .text "x" ∧ s.language? = none := by
  have hlex : lexContent "<template lang=\"\" lang=\"pug\">x</template>".toList =
      some ⟨[], "<template".toList, .ok (.openTag "template"),
          " lang=\"\" lang=\"pug\">x</template>".toList⟩ := by
    rfl
  refine ⟨⟨"template", [⟨"lang", some "", .double, ⟨10, 17⟩⟩,
    ⟨"lang", some "pug", .double, ⟨18, 28⟩⟩], "x", .text "x", ⟨0, 41⟩, ⟨29, 30⟩, ⟨1, 30⟩⟩, ?_, rfl,
      ?_, rfl, ?_⟩
  · apply parse_of_single hlex rfl
    with_unfolding_all rfl
  · intro hself
    exact absurd (congrArg Span.stop hself.1) (by decide)
  · rfl

end Document

end Triptych
