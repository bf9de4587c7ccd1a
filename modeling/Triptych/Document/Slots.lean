import Triptych.Document.Section

/-!
# Choosing the sections of a document

Of each kind a document has at most one section that counts. There may be only one markup section;
of several logic or styling sections the last one counts, and sections of no kind do not count at
all. A `Placement` is a remark about a section that was left out.
-/

namespace Triptych

/-- The section of each kind that counts. -/
structure Slots where
  markup : Option Section := none
  logic : Option Section := none
  styling : Option Section := none
deriving Repr, Inhabited

/-- A remark about a section that does not count. -/
inductive Placement where
  /-- It is of no kind. -/
  | ignored (s : Section)
  /-- A later one of the same kind takes its place. -/
  | replaced (kind : SectionRole) (before after : Section)
deriving Repr

namespace Slots

/-- The section of a kind. -/
def get (slots : Slots) : SectionRole → Option Section
  | .markup => slots.markup
  | .logic => slots.logic
  | .styling => slots.styling

/-- The slots with another section of a kind. -/
def set (slots : Slots) (kind : SectionRole) (s : Section) : Slots :=
  match kind with
  | .markup => { slots with markup := some s }
  | .logic => { slots with logic := some s }
  | .styling => { slots with styling := some s }

/-- The slots after one more section. -/
def place (slots : Slots) (s : Section) : Slots :=
  match SectionRole.ofTag? s.name with
  | none => slots
  | some kind => slots.set kind s

/-- The sections that count, of sections in document order. -/
def ofSections (sections : List Section) : Slots :=
  sections.foldl place {}

/-- The remark about one more section, if there is one. -/
def remark? (slots : Slots) (s : Section) : Option Placement :=
  match SectionRole.ofTag? s.name with
  | none => some (.ignored s)
  | some kind => (slots.get kind).map fun before => .replaced kind before s

/-- The remarks about sections in document order, after those in `slots`. -/
def remarks (slots : Slots) : List Section → List Placement
  | [] => []
  | s :: sections => (slots.remark? s).toList ++ remarks (slots.place s) sections

end Slots

namespace Document

/-- The number of markup sections. -/
def countMarkup (document : Document) : Nat :=
  (document.named SectionRole.markup.sectionTag).length

/-- A document may have at most one markup section. -/
def isValid (document : Document) : Bool :=
  document.countMarkup ≤ 1

/-- The sections that count. -/
def slots (document : Document) : Slots :=
  .ofSections document.sections

end Document

end Triptych
