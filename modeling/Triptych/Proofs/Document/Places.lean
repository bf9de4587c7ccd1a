import Triptych.Document.Slots
import Triptych.Proofs.Document.Fragment
import Triptych.Proofs.Text.Location

/-!
# What is known of a section wherever it stands

Every section of a document comes from one run of `readSection`, so what holds of all that it
returns holds of all sections (`forall_mem_of_readSections`). `Section.ReadFrom` collects what later
proofs need of it: the location of the inner text, the spelling of the name, and which sections are
read as markup.

The section that counts for a kind is one of the document's, with a name of that kind
(`Slots.mem_of_get`).
-/

namespace Triptych

open Text Markup

/-! ### Sections -/

/-- What `readSection` says of a section, apart from its text. -/
structure Section.ReadFrom (source : List Char) (s : Section) : Prop where
  located : s.location = Location.ofOffset source s.contentSpan.start
  small : String.ofList (lower s.name.toList) = s.name
  markup : ∀ nodes, s.content = .markup nodes →
    s.name = "template" ∧ Document.declaresLanguage s.attributes = false

namespace Document

/-- **A section is read from the text between its tags**, which start and end where it says. -/
theorem readFrom_of_readSection {source text : List Char} {openedAs : String} {start pos : Nat}
    {result : ReadSection} (h : readSection source openedAs start pos text = .ok result) :
    result.found.ReadFrom source := by
  -- The name of a section is in lower case already.
  have hsmall : String.ofList (lower (String.ofList (lower openedAs.toList)).toList) =
      String.ofList (lower openedAs.toList) := by
    rw [String.toList_ofList, lower_lower]
  unfold readSection at h
  split at h
  · contradiction
  next tag htag =>
    simp only at h
    split at h
    · obtain rfl := Except.ok.inj h
      exact ⟨rfl, hsmall, nofun⟩
    split at h
    -- Only the text of a `template` without a language is read as markup.
    next htemplate =>
      split at h
      · contradiction
      · obtain rfl := Except.ok.inj h
        rw [Bool.and_eq_true, beq_iff_eq, Bool.not_eq_true'] at htemplate
        exact ⟨rfl, hsmall, fun _ _ => htemplate⟩
    next =>
      split at h
      · contradiction
      · obtain rfl := Except.ok.inj h
        exact ⟨rfl, hsmall, nofun⟩

/-- So all sections of a document are. -/
theorem readFrom_of_parse {source : String} {document : Document}
    (h : Document.parse source = .ok document) :
    ∀ s ∈ document.sections, s.ReadFrom source.toList :=
  forall_mem_of_readSections (fun _ h => readFrom_of_readSection h) (.refl _ _) _
    (readSections_of_parse h)

end Document

/-- **Where the text of a section stands**: between what is above it and what is below it, and its
location is the one that reading all above it leads to. -/
theorem Section.AgreesWith.exists_location {source : List Char} {s : Section}
    (hagrees : s.AgreesWith source) (hread : s.ReadFrom source) :
    ∃ above below, source = above ++ (s.raw.toList ++ below) ∧
      s.contentSpan.start = byteLength above ∧
      s.location = ({} : Location).advanceAll above := by
  obtain ⟨above, below, hsource, hstart, -⟩ := hagrees.covers
  refine ⟨above, below, hsource, hstart, ?_⟩
  rw [hread.located, hstart, hsource, Location.ofOffset_append]

/-! ### The sections that count -/

namespace Slots

/-- A slot holds what was put there last. -/
theorem get_set (slots : Slots) (kind kind' : SectionRole) (s : Section) :
    (slots.set kind s).get kind' = if kind = kind' then some s else slots.get kind' := by
  cases kind <;> cases kind' <;> rfl

theorem get_place (slots : Slots) (s : Section) (kind : SectionRole) :
    (slots.place s).get kind = if SectionRole.ofTag? s.name = some kind then some s
      else slots.get kind := by
  unfold place
  cases SectionRole.ofTag? s.name with
  | none => simp
  | some kind' => simp [get_set]

/-- What a slot holds was there, or is a section that was placed. -/
theorem mem_of_get_foldl {sections : List Section} {slots : Slots} {kind : SectionRole}
    {s : Section} (h : (sections.foldl place slots).get kind = some s) :
    slots.get kind = some s ∨ s ∈ sections ∧ SectionRole.ofTag? s.name = some kind := by
  induction sections generalizing slots with
  | nil => exact .inl h
  | cons first sections ih =>
    rcases ih h with hplaced | ⟨hmem, htag⟩
    · rw [get_place] at hplaced
      split at hplaced
      next htag =>
        obtain rfl := Option.some.inj hplaced
        exact .inr ⟨List.mem_cons_self, htag⟩
      next => exact .inl hplaced
    · exact .inr ⟨List.mem_cons_of_mem _ hmem, htag⟩

/-- **The section that counts for a kind is a section of the document with a name of that kind.** -/
theorem mem_of_get {document : Document} {kind : SectionRole} {s : Section}
    (h : document.slots.get kind = some s) :
    s ∈ document.sections ∧ SectionRole.ofTag? s.name = some kind := by
  rcases mem_of_get_foldl h with hnone | hmem
  · cases kind <;> contradiction
  · exact hmem

end Slots

/-- A small name of a kind is the name that introduces the kind. -/
theorem Section.ReadFrom.name_eq {source : List Char} {s : Section} {kind : SectionRole}
    (h : s.ReadFrom source) (hkind : SectionRole.ofTag? s.name = some kind) :
    s.name = kind.sectionTag := by
  have hsame : lower kind.sectionTag.toList = lower s.name.toList := by
    have hfound := List.find?_some hkind
    simpa [equalsIgnoringCase] using hfound
  rw [← h.small, ← hsame]
  cases kind <;> decide

/-- A valid document has no two markup sections. -/
theorem Document.eq_of_isValid {document : Document} (hvalid : document.isValid = true)
    {s s' : Section} (hs : s ∈ document.named "template") (hs' : s' ∈ document.named "template") :
    s = s' := by
  have hcount : (document.named "template").length ≤ 1 := of_decide_eq_true hvalid
  match hnamed : document.named "template" with
  | [] =>
    rw [hnamed] at hs
    contradiction
  | [only] =>
    rw [hnamed, List.mem_singleton] at hs hs'
    rw [hs, hs']
  | _ :: _ :: _ =>
    rw [hnamed] at hcount
    simp at hcount

end Triptych
