import Triptych.Proofs.Markup.Levels

/-!
# Settled blanks

A tree is settled (`Settled`) if the blanks of all its levels are, down to the elements that keep
their blanks. What is known of one level is known of all: settled blanks are left alone
(`Settled.collapseBlanks_eq`), and collapsing settles the blanks of a tree in which no two texts are
next to each other (`TextsApart.settled_collapseBlanks`). The texts of a tree that was read are
apart (`Printable.textsApart`).

Both properties are said level by level, so a change of a tree that keeps its shape, the names of
its tags and its texts makes no difference to them (`KeepsTexts`).
-/

namespace Triptych.Markup

open Text

/-! ### All levels of a tree -/

section Levels

variable (enters : String → Bool) (holds : String → List Node → Prop)

mutual

/-- The level inside a node is as it is to be, and so are the levels below it. -/
def Node.LevelsInside : Node → Prop
  | .element tag children _ => enters tag.name = true →
      holds tag.name children ∧ LevelsBelow children
  | .text _ _ | .comment _ _ => True

/-- The levels below the nodes are as they are to be, given the name of their parent: all of them
down to the elements that are not entered. -/
def LevelsBelow : List Node → Prop
  | [] => True
  | node :: nodes => node.LevelsInside ∧ LevelsBelow nodes

end

variable {enters holds} {nodes : List Node}

/-- What holds below a level holds inside each of its nodes. -/
theorem levelsBelow_iff_forall :
    LevelsBelow enters holds nodes ↔ ∀ node ∈ nodes, node.LevelsInside enters holds := by
  induction nodes with
  | nil => simp [LevelsBelow]
  | cons node nodes ih => rw [LevelsBelow, List.forall_mem_cons, ih]

/-- Texts have no levels below them. -/
theorem levelsBelow_others : LevelsBelow enters holds (others nodes) ↔
    LevelsBelow enters holds nodes := by
  rw [levelsBelow_iff_forall, levelsBelow_iff_forall]
  constructor
  · intro h node hnode
    -- There is no level inside a text, so those that are left out say nothing.
    cases htext : node.isText with
    | false => exact h node (List.mem_filter.2 ⟨hnode, by rw [htext]; rfl⟩)
    | true =>
      cases node with
      | text => trivial
      | element | comment => contradiction
  · intro h node hnode
    exact h node (List.mem_filter.1 hnode).1

/-- The levels below do not depend on the texts. -/
theorem levelsBelow_settle (inline : Bool) :
    LevelsBelow enters holds (settle inline nodes) ↔ LevelsBelow enters holds nodes := by
  rw [← levelsBelow_others, others_settle, levelsBelow_others]

end Levels

/-- The levels below the nodes are settled, down to the elements that keep their blanks. -/
abbrev SettledBelow : List Node → Prop :=
  LevelsBelow (fun name => !keepsBlanks name) fun name => SettledLevel (isInlineName name)

/-- No two texts are next to each other on the levels below the nodes. -/
abbrev ApartBelow : List Node → Prop :=
  LevelsBelow (fun _ => true) fun _ => ApartLevel

/-- **The blanks of a tree are settled** on all its levels, down to the elements that keep their
blanks. -/
structure Settled (nodes : List Node) : Prop where
  level : SettledLevel false nodes
  below : SettledBelow nodes

/-- No two texts are next to each other, on any level of the tree. -/
structure TextsApart (nodes : List Node) : Prop where
  level : ApartLevel nodes
  below : ApartBelow nodes

/-- Markup that can be written holds no empty text. -/
theorem Written.isEmptyText {nodes : List Node} (h : Written nodes) :
    ∀ node ∈ nodes, node.isEmptyText = false :=
  (written_iff_others.1 h).1

/-- **Where the blanks of every level are settled, settling them changes nothing.** -/
theorem Written.collapseEach_of_settled {nodes : List Node} (h : Written nodes)
    (hbelow : SettledBelow nodes) :
    Markup.collapseEach nodes = nodes := by
  induction h with
  | nil => rfl
  | text _ _ ih => exact congrArg (_ :: ·) (ih hbelow.2)
  | comment _ _ ih => exact congrArg (_ :: ·) (ih hbelow.2)
  | leaf _ _ _ ih => rw [Markup.collapseEach, Node.collapseInside_leaf, ih hbelow.2]
  | raw _ _ hraw _ _ ih => rw [Markup.collapseEach, Node.collapseInside_raw hraw, ih hbelow.2]
  | branch _ _ _ hchildren _ ihchildren ih =>
    obtain ⟨hinside, hnodes⟩ := hbelow
    rw [Markup.collapseEach, ih hnodes, Node.collapseInside]
    split
    next => rfl
    next hkeeps =>
      obtain ⟨hlevel, hchild⟩ := hinside (by simpa using hkeeps)
      rw [ihchildren hchild, hlevel.settle_eq hchildren.isEmptyText]

/-- **Settled blanks are left alone.** -/
theorem Settled.collapseBlanks_eq {nodes : List Node} (h : Settled nodes)
    (hwritten : Written nodes) :
    collapseBlanks nodes = nodes := by
  rw [collapseBlanks, hwritten.collapseEach_of_settled h.below,
    h.level.settle_eq hwritten.isEmptyText]

/-- Settling goes into each node on its own. -/
theorem collapseEach_eq_map (nodes : List Node) :
    collapseEach nodes = nodes.map Node.collapseInside := by
  induction nodes with
  | nil => rfl
  | cons node nodes ih => rw [collapseEach, List.map_cons, ih]

/-- Nodes stay what they are when what is inside of them is settled. -/
theorem Node.isText_collapseInside (node : Node) : node.collapseInside.isText = node.isText := by
  cases node with
  | element tag children span =>
    unfold Node.collapseInside
    split <;> rfl
  | text | comment => rfl

theorem ApartLevel.collapseEach {nodes : List Node} (h : ApartLevel nodes) :
    ApartLevel (collapseEach nodes) := by
  rw [collapseEach_eq_map]
  exact (apartLevel_map Node.isText_collapseInside).2 h

/-- Collapsing the levels below settles them, and keeps texts apart. -/
theorem Written.levelsBelow_collapseEach {nodes : List Node} (h : Written nodes)
    (hapart : ApartBelow nodes) :
    SettledBelow (Markup.collapseEach nodes) ∧ ApartBelow (Markup.collapseEach nodes) := by
  induction h with
  | nil => exact ⟨trivial, trivial⟩
  | text _ _ ih => exact (ih hapart.2).imp (⟨trivial, ·⟩) (⟨trivial, ·⟩)
  | comment _ _ ih => exact (ih hapart.2).imp (⟨trivial, ·⟩) (⟨trivial, ·⟩)
  | leaf _ _ _ ih =>
    rw [Markup.collapseEach, Node.collapseInside_leaf]
    -- There is nothing on the level below.
    have hnone (inline : Bool) : SettledLevel inline [] := ⟨by simp, trivial, by simp, by simp⟩
    exact (ih hapart.2).imp (⟨fun _ => ⟨hnone _, trivial⟩, ·⟩) (⟨hapart.1, ·⟩)
  | raw _ _ hraw _ _ ih =>
    rw [Markup.collapseEach, Node.collapseInside_raw hraw]
    refine (ih hapart.2).imp (⟨fun hopen => absurd hopen ?_, ·⟩) (⟨hapart.1, ·⟩)
    simp [keepsBlanks_of_holdsRawText hraw]
  | @branch tag children span nodes _ _ _ hchildren _ ihchildren ih =>
    -- The levels below the children are collapsed before the level of the children itself.
    -- Collapsing that one drops texts only, so it does not undo what was reached below.
    obtain ⟨hlevel, hbelow⟩ := hapart.1 rfl
    obtain ⟨hsettled, hkept⟩ := ihchildren hbelow
    have hempty := hchildren.collapseEach.isEmptyText
    rw [Markup.collapseEach, Node.collapseInside]
    refine (ih hapart.2).imp (⟨?_, ·⟩) (⟨?_, ·⟩)
    · split
      next hkeeps => exact fun hopen => absurd hopen (by simp [hkeeps])
      next =>
        exact fun _ =>
          ⟨hlevel.collapseEach.settledLevel hempty _, (levelsBelow_settle _).2 hsettled⟩
    · split
      next => exact hapart.1
      next => exact fun _ => ⟨hlevel.collapseEach.settle hempty _, (levelsBelow_settle _).2 hkept⟩

/-- **Collapsing blanks settles them**, where texts are apart. -/
theorem TextsApart.settled_collapseBlanks {nodes : List Node} (h : TextsApart nodes)
    (hwritten : Written nodes) :
    Settled (collapseBlanks nodes) := by
  obtain ⟨hbelow, -⟩ := hwritten.levelsBelow_collapseEach h.below
  exact ⟨h.level.collapseEach.settledLevel hwritten.collapseEach.isEmptyText false,
    (levelsBelow_settle false).2 hbelow⟩

/-- Settling the blanks brings no two texts together. -/
theorem TextsApart.collapseBlanks {nodes : List Node} (h : TextsApart nodes)
    (hwritten : Written nodes) :
    TextsApart (collapseBlanks nodes) := by
  obtain ⟨-, hbelow⟩ := hwritten.levelsBelow_collapseEach h.below
  exact ⟨h.level.collapseEach.settle hwritten.collapseEach.isEmptyText false,
    (levelsBelow_settle false).2 hbelow⟩

/-! ### Trees that are read -/

/-- A raw element has one text at most. -/
theorem textsApart_rawChildren (content : List Char) (span : Span) :
    TextsApart (rawChildren content span) := by
  unfold rawChildren
  split
  next => exact ⟨trivial, trivial⟩
  next => exact ⟨⟨fun _ => nofun, trivial⟩, trivial, trivial⟩

/-- **The texts of a tree that can be read from its markup are apart.** -/
theorem Printable.textsApart {nodes : List Node} (h : Printable nodes) : TextsApart nodes := by
  induction h with
  | nil => exact ⟨trivial, trivial⟩
  | text _ _ hfirst _ ih => exact ⟨⟨fun _ => hfirst, ih.level⟩, trivial, ih.below⟩
  | comment _ _ ih => exact ⟨⟨nofun, ih.level⟩, trivial, ih.below⟩
  | leaf _ _ _ ih => exact ⟨⟨nofun, ih.level⟩, fun _ => ⟨trivial, trivial⟩, ih.below⟩
  | @raw _ content inner _ _ _ _ _ _ _ ih =>
    have hinside := textsApart_rawChildren content inner
    exact ⟨⟨nofun, ih.level⟩, fun _ => ⟨hinside.level, hinside.below⟩, ih.below⟩
  | branch _ _ _ _ _ ihchildren ih =>
    exact ⟨⟨nofun, ih.level⟩, fun _ => ⟨ihchildren.level, ihchildren.below⟩, ih.below⟩

/-- Nothing is joined to a node before what is no text. -/
theorem joinNode_of_apart {node : Node} {nodes : List Node}
    (h : node.isText = true → NoTextFirst nodes) :
    joinNode node nodes = node :: nodes := by
  unfold joinNode
  split
  next value' span' _ => exact absurd (h rfl _ rfl) (by simp [Node.isText])
  next => rfl

/-- **Texts that stand apart are not joined.** -/
theorem joinTexts_of_apart {nodes : List Node} (hlevel : ApartLevel nodes)
    (hbelow : ApartBelow nodes) :
    joinTexts nodes = nodes := by
  induction nodes using Node.listInduction with
  | nil => rfl
  | text value span nodes ih =>
    rw [joinTexts, ih hlevel.2 hbelow.2]
    exact joinNode_of_apart hlevel.1
  | comment value span nodes ih =>
    rw [joinTexts, ih hlevel.2 hbelow.2]
    exact joinNode_of_apart fun htext => absurd htext Bool.false_ne_true
  | element tag children span nodes ihchildren ih =>
    obtain ⟨hinside, hdeeper⟩ := hbelow.1 rfl
    rw [joinTexts, ih hlevel.2 hbelow.2, Node.joinInside, ihchildren hinside hdeeper]
    exact joinNode_of_apart fun htext => absurd htext Bool.false_ne_true

/-- Where texts are apart there is nothing to join. -/
theorem TextsApart.joinTexts_eq {nodes : List Node} (h : TextsApart nodes) :
    joinTexts nodes = nodes :=
  joinTexts_of_apart h.level h.below

/-! ### Changes that make no difference to blanks -/

/-- A change of nodes that leaves their shape, the names of tags and the texts as they are. -/
structure KeepsTexts (f : Node → Node) : Prop where
  element : ∀ tag children span, ∃ tag' span',
    f (.element tag children span) = .element tag' (children.map f) span' ∧ tag'.name = tag.name
  text : ∀ value span, ∃ span', f (.text value span) = .text value span'
  comment : ∀ value span, ∃ value' span', f (.comment value span) = .comment value' span'

namespace KeepsTexts

variable {f : Node → Node} (h : KeepsTexts f)
include h

/-- What is left as it is by a map that keeps texts: what a node is, whether it is inline, and its
text. -/
theorem textChars? (node : Node) : (f node).textChars? = node.textChars? := by
  cases node with
  | element tag children span =>
    obtain ⟨tag', span', heq, -⟩ := h.element tag children span
    rw [heq]
    rfl
  | text value span =>
    obtain ⟨span', heq⟩ := h.text value span
    rw [heq]
    rfl
  | comment value span =>
    obtain ⟨value', span', heq⟩ := h.comment value span
    rw [heq]
    rfl

theorem isInline (node : Node) : (f node).isInline = node.isInline := by
  cases node with
  | element tag children span =>
    obtain ⟨tag', span', heq, hname⟩ := h.element tag children span
    rw [heq, Node.isInline, Node.isInline, hname]
  | text value span =>
    obtain ⟨span', heq⟩ := h.text value span
    rw [heq]
    rfl
  | comment value span =>
    obtain ⟨value', span', heq⟩ := h.comment value span
    rw [heq]
    rfl

theorem isText (node : Node) : (f node).isText = node.isText := by
  have hisText (node : Node) : node.isText = node.textChars?.isSome := by cases node <;> rfl
  rw [hisText, hisText, h.textChars?]

/-- Whether a level is settled depends on nothing but what such a map keeps. -/
theorem blanksBetween_map {inline : Bool} {nodes : List Node} :
    BlanksBetween inline (nodes.map f) ↔ BlanksBetween inline nodes := by
  induction nodes generalizing inline with
  | nil => exact Iff.rfl
  | cons node nodes ih =>
    have hhead : (nodes.map f).head?.any Node.isInline = nodes.head?.any Node.isInline := by
      cases nodes with
      | nil => rfl
      | cons next nodes => exact h.isInline next
    rw [List.map_cons, BlanksBetween, BlanksBetween, Node.isBlankText_eq, Node.isBlankText_eq,
      h.textChars?, h.isInline, hhead, ih]

theorem settledLevel_map {inline : Bool} {nodes : List Node} :
    SettledLevel inline (nodes.map f) ↔ SettledLevel inline nodes := by
  -- The function keeps the texts, and all parts of the claim speak of texts only.
  have hsqueezed : (∀ node ∈ nodes.map f, ∀ text ∈ node.textChars?, Squeezed text) ↔
      ∀ node ∈ nodes, ∀ text ∈ node.textChars?, Squeezed text := by
    simp only [List.forall_mem_map, h.textChars?]
  have hedge {p : List Char → Prop} {edge : Option Node} :
      (∀ node ∈ edge.map f, ∀ text ∈ node.textChars?, p text) ↔
          ∀ node ∈ edge, ∀ text ∈ node.textChars?, p text := by
    cases edge with
    | none => simp
    | some node => simp [h.textChars?]
  constructor
  · rintro ⟨hs, hb, hfirst, hlast⟩
    rw [List.head?_map, hedge] at hfirst
    rw [List.getLast?_map, hedge] at hlast
    exact ⟨hsqueezed.1 hs, h.blanksBetween_map.1 hb, hfirst, hlast⟩
  · rintro ⟨hs, hb, hfirst, hlast⟩
    rw [← hedge, ← List.head?_map] at hfirst
    rw [← hedge, ← List.getLast?_map] at hlast
    exact ⟨hsqueezed.2 hs, h.blanksBetween_map.2 hb, hfirst, hlast⟩

/-- What holds of the levels before the map holds of them after it, all the way down. -/
theorem levelsBelow_map (enters : String → Bool) {holds : String → List Node → Prop}
    (hholds : ∀ name nodes, holds name (nodes.map f) ↔ holds name nodes) (nodes : List Node) :
    LevelsBelow enters holds (nodes.map f) ↔ LevelsBelow enters holds nodes := by
  induction nodes using Node.listInduction with
  | nil => exact Iff.rfl
  | text value span nodes ih =>
    obtain ⟨span', heq⟩ := h.text value span
    rw [List.map_cons, heq]
    exact and_congr Iff.rfl ih
  | comment value span nodes ih =>
    obtain ⟨value', span', heq⟩ := h.comment value span
    rw [List.map_cons, heq]
    exact and_congr Iff.rfl ih
  | element tag children span nodes ihchildren ih =>
    obtain ⟨tag', span', heq, hname⟩ := h.element tag children span
    rw [List.map_cons, heq, LevelsBelow, LevelsBelow, Node.LevelsInside, Node.LevelsInside, hname,
      hholds, ihchildren, ih]

/-- **Whether blanks are settled depends on the shape, the names of tags and the texts alone.** -/
theorem settled_map {nodes : List Node} : Settled (nodes.map f) ↔ Settled nodes := by
  have hlevel : SettledLevel false (nodes.map f) ↔ SettledLevel false nodes := h.settledLevel_map
  have hbelow : SettledBelow (nodes.map f) ↔ SettledBelow nodes :=
    h.levelsBelow_map _ (fun _ _ => h.settledLevel_map) nodes
  exact ⟨fun hs => ⟨hlevel.1 hs.level, hbelow.1 hs.below⟩, fun hs =>
    ⟨hlevel.2 hs.level, hbelow.2 hs.below⟩⟩

/-- Whether texts are apart depends on the shape alone. -/
theorem textsApart_map {nodes : List Node} : TextsApart (nodes.map f) ↔ TextsApart nodes := by
  have hlevel : ApartLevel (nodes.map f) ↔ ApartLevel nodes := apartLevel_map h.isText
  have hbelow : ApartBelow (nodes.map f) ↔ ApartBelow nodes :=
    h.levelsBelow_map _ (fun _ _ => apartLevel_map h.isText) nodes
  exact ⟨fun ha => ⟨hlevel.1 ha.level, hbelow.1 ha.below⟩, fun ha =>
    ⟨hlevel.2 ha.level, hbelow.2 ha.below⟩⟩

end KeepsTexts

theorem stripAll_eq_map (nodes : List Node) : stripAll nodes = nodes.map Node.strip := by
  induction nodes with
  | nil => rfl
  | cons node nodes ih => rw [stripAll, List.map_cons, ih]

/-- Dropping the spans is such a map, and so is making attributes smaller. -/
theorem keepsTexts_strip : KeepsTexts Node.strip where
  element tag children span := ⟨tag.strip, ⟨0, 0⟩, by rw [Node.strip, stripAll_eq_map], rfl⟩
  text _ _ := ⟨⟨0, 0⟩, rfl⟩
  comment value _ := ⟨value, ⟨0, 0⟩, rfl⟩

theorem minifyAttributes_eq_map (options : Reductions) (nodes : List Node) :
    minifyAttributes options nodes = nodes.map (Node.mapParts (Tag.minify options) id id) := by
  induction nodes with
  | nil => rfl
  | cons node nodes ih => rw [List.map_cons, ← ih]; rfl

theorem keepsTexts_minifyAttributes (options : Reductions) :
    KeepsTexts (Node.mapParts (Tag.minify options) id id) where
  element tag children span :=
    ⟨tag.minify options, span, by rw [← minifyAttributes_eq_map]; rfl, rfl⟩
  text _ span := ⟨span, rfl⟩
  comment value span := ⟨value, span, rfl⟩

/-- So neither of them decides whether markup is settled. -/
theorem settled_stripAll {nodes : List Node} : Settled (stripAll nodes) ↔ Settled nodes := by
  rw [stripAll_eq_map]
  exact keepsTexts_strip.settled_map

theorem settled_minifyAttributes {options : Reductions} {nodes : List Node} :
    Settled (minifyAttributes options nodes) ↔ Settled nodes := by
  rw [minifyAttributes_eq_map]
  exact (keepsTexts_minifyAttributes options).settled_map

theorem textsApart_minifyAttributes {options : Reductions} {nodes : List Node} :
    TextsApart (minifyAttributes options nodes) ↔ TextsApart nodes := by
  rw [minifyAttributes_eq_map]
  exact (keepsTexts_minifyAttributes options).textsApart_map

end Triptych.Markup
