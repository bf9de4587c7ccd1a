import Triptych.Proofs.Document.Places
import Triptych.Proofs.Pipeline.Stages
import Triptych.Proofs.SortedMap

/-!
# Which sections are chosen

Two parts of the library look at the names of sections. The check that there is at most one markup
section compares a name with `template`, letter by letter; the choice of a section for each kind
goes by `SectionRole.ofTag?`, which takes capitals for small letters. They agree because a document
keeps the names of its sections in small letters (`Section.ReadFrom.small`):

* `Document.ofRole`: the sections of a kind, as `SectionRole.ofTag?` tells kinds;
* `named_eq_ofRole`: in a document that was read, the names tell the same;
* `get_slots`: going through the sections from first to last, each taking the place of an earlier
  one of its kind, leaves the last of each kind.

`Chooses` says what is to come of a text in terms of `Document.ofRole` alone, and `chooses_iff` that
it does.
-/

namespace Triptych

open Text

/-! ### The sections of a kind -/

/-- The sections of a kind, in document order. -/
def Document.ofRole (document : Document) (kind : SectionRole) : List Section :=
  document.sections.filter fun s => SectionRole.ofTag? s.name = some kind

theorem SectionRole.ofTag?_sectionTag (kind : SectionRole) :
    ofTag? kind.sectionTag = some kind := by
  cases kind <;> decide

/-- A name in small letters is of a kind exactly if it is the name that introduces the kind. -/
theorem Section.ReadFrom.ofTag?_eq_some_iff {source : List Char} {s : Section}
    (h : s.ReadFrom source) (kind : SectionRole) :
    SectionRole.ofTag? s.name = some kind ↔ s.name = kind.sectionTag := by
  constructor
  · intro htag
    exact h.name_eq htag
  · intro hname
    rw [hname]
    exact SectionRole.ofTag?_sectionTag kind

/-- **Names and kinds agree** in a document that was read, however its tags were written. -/
theorem Document.named_eq_ofRole {text : String} {document : Document}
    (h : Document.parse text = .ok document) (kind : SectionRole) :
    document.named kind.sectionTag = document.ofRole kind := by
  refine List.filter_congr ?_
  intro s hs
  have hiff := (Document.readFrom_of_parse h s hs).ofTag?_eq_some_iff kind
  rw [Bool.eq_iff_iff, beq_iff_eq, decide_eq_true_iff]
  exact hiff.symm

/-! ### The last of each kind -/

namespace Slots

/-- Two choices are the same if they are so for each kind. -/
theorem ext_get {slots slots' : Slots} (h : ∀ kind, slots.get kind = slots'.get kind) :
    slots = slots' := by
  obtain ⟨markup, logic, styling⟩ := slots
  obtain ⟨markup', logic', styling'⟩ := slots'
  have hmarkup : markup = markup' := h .markup
  have hlogic : logic = logic' := h .logic
  have hstyling : styling = styling' := h .styling
  rw [hmarkup, hlogic, hstyling]

/-- **The last section of a kind counts**: it takes the place of all that came before. -/
theorem get_slots (document : Document) (kind : SectionRole) :
    document.slots.get kind = (document.ofRole kind).getLast? := by
  have hstep (slots : Slots) (s : Section) :
      (slots.place s).get kind =
        if decide (SectionRole.ofTag? s.name = some kind) = true then some (id s)
            else slots.get kind := by
    rw [get_place]
    simp only [decide_eq_true_eq, id_eq]
  have hnone : ({} : Slots).get kind = none := by
    cases kind <;> rfl
  calc document.slots.get kind
      = ((document.ofRole kind).getLast?.map id).or (({} : Slots).get kind) :=
        view_foldl (fun slots : Slots => slots.get kind) id hstep document.sections {}
    _ = (document.ofRole kind).getLast? := by rw [hnone, Option.or_none, Option.map_id_apply]

end Slots

/-! ### What comes of a text -/

namespace Pipeline

/-- **What is to come of a text**, said of the sections of each kind. -/
inductive Chooses (text : String) : Except CompileError Slots → Prop where
  /-- It is no document. -/
  | malformed {error : Markup.ParseError} (hparse : Document.parse text = .error error) :
      Chooses text (.error (.parse error))
  /-- There are two markup sections or more; they are counted. -/
  | crowded {document : Document} (hparse : Document.parse text = .ok document)
      (hmany : 2 ≤ (document.ofRole .markup).length) :
      Chooses text (.error (.structural (document.ofRole .markup).length))
  /-- Of each kind the last section is chosen, and of markup it is the only one. -/
  | chosen {document : Document} {slots : Slots} (hparse : Document.parse text = .ok document)
      (hfew : (document.ofRole .markup).length < 2)
      (hlast : ∀ kind, slots.get kind = (document.ofRole kind).getLast?)
      (honly : ∀ s, slots.markup = some s → document.ofRole .markup = [s]) :
        Chooses text (.ok slots)

variable {text : String} {document : Document}

theorem result_chooseSections_error {error : Markup.ParseError}
    (h : Document.parse text = .error error) :
    (chooseSections text).result = .error (.parse error) := by
  unfold chooseSections
  rw [Traced.result_bind, Traced.result_orFail, h]
  rfl

/-- The check of a document that was read counts its markup sections. -/
theorem result_chooseSections_ok (h : Document.parse text = .ok document) :
    (chooseSections text).result =
      if (document.ofRole .markup).length < 2 then .ok document.slots
      else .error (.structural (document.ofRole .markup).length) := by
  -- The check counts the sections with the tag of markup, which are those of that role.
  have hcount : document.countMarkup = (document.ofRole .markup).length :=
    congrArg List.length (Document.named_eq_ofRole h .markup)
  have hvalid : document.isValid = decide ((document.ofRole .markup).length < 2) := by
    unfold Document.isValid
    rw [hcount]
    exact decide_eq_decide.2 Nat.lt_succ_iff.symm
  -- The document is read, so the choice comes down to the check.
  have hresult : (chooseSections text).result =
      (if document.isValid then do
        Traced.note .validated
        Traced.noteAll ((Slots.remarks {} document.sections).map .placement)
        return document.slots
      else Traced.fail (.structural document.countMarkup) : Traced Slots).result := by
    unfold chooseSections
    rw [Traced.result_bind, Traced.result_orFail, h]
    rfl
  rw [hresult, hvalid, hcount]
  by_cases hfew : (document.ofRole .markup).length < 2
  · rw [if_pos (decide_eq_true hfew), if_pos hfew]
    rfl
  · rw [if_neg (by simpa using hfew), if_neg hfew]
    rfl

/-- Where there is at most one section of a kind, the last one is the only one. -/
theorem eq_singleton_of_getLast? {sections : List Section} {s : Section}
    (hfew : sections.length < 2) (hlast : sections.getLast? = some s) : sections = [s] := by
  match sections, hfew, hlast with
  | [only], _, hlast =>
    obtain rfl : only = s := by simpa using hlast
    rfl

/-- **Validation and choice agree.** What comes of a text, whatever sections it has and however
their tags are written, is exactly what `Chooses` says: an error if it is no document; an error with
the number of markup sections if there are two or more; and otherwise the last section of each
kind. -/
theorem chooses_iff (text : String) (result : Except CompileError Slots) :
    Chooses text result ↔ (chooseSections text).result = result := by
  constructor
  · intro h
    cases h with
    | malformed hparse => exact result_chooseSections_error hparse
    | crowded hparse hmany => rw [result_chooseSections_ok hparse, if_neg (Nat.not_lt.2 hmany)]
    | @chosen document slots hparse hfew hlast honly =>
      -- A choice is known from the sections that it has for the kinds.
      have hslots : document.slots = slots := by
        apply Slots.ext_get
        intro kind
        rw [Slots.get_slots, hlast]
      rw [result_chooseSections_ok hparse, if_pos hfew, hslots]
  · rintro rfl
    cases hparse : Document.parse text with
    | error error =>
      rw [result_chooseSections_error hparse]
      exact .malformed hparse
    | ok document =>
      rw [result_chooseSections_ok hparse]
      by_cases hfew : (document.ofRole .markup).length < 2
      · rw [if_pos hfew]
        refine .chosen hparse hfew (Slots.get_slots document) ?_
        intro s hs
        have hlast : (document.ofRole .markup).getLast? = some s :=
          (Slots.get_slots document .markup).symm.trans hs
        exact eq_singleton_of_getLast? hfew hlast
      · rw [if_neg hfew]
        exact .crowded hparse (Nat.not_lt.1 hfew)

end Pipeline

end Triptych
