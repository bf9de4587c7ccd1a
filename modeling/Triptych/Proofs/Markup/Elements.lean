import Triptych.Markup.Walk
import Triptych.Proofs.Markup.Layout

/-!
# The elements of a tree

`elementsOf` lists the elements of a tree, each before those inside it. That the list is complete
does not depend on where the tree comes from: its members are the elements that occur in the tree at
some depth (`mem_elementsOf_iff`).

In a tree that was read from a source, the order of the list is the order of the source, and no two
elements start at the same place (`LaidOut.pairwise_elementsOf`). All of them are inside the part of
the source that the tree was read from, and their attributes are inside them
(`LaidOut.placed_of_mem_elementsOf`). Both follow from one fact about a placed element,
`Placed.exists_inner`: what it holds tiles a part of it that starts behind the opening tag.
-/

namespace Triptych

/-- The span is a part of another one. -/
structure Span.Within (span outer : Span) : Prop where
  start_le : outer.start ≤ span.start
  start_le_stop : span.start ≤ span.stop
  stop_le : span.stop ≤ outer.stop

theorem Span.Within.trans {span mid outer : Span} (h : span.Within mid) (hmid : mid.Within outer) :
    span.Within outer :=
  ⟨hmid.start_le.trans h.start_le, h.start_le_stop, h.stop_le.trans hmid.stop_le⟩

namespace Markup

open Text

/-! ### Which elements there are -/

/-- The element occurs in the nodes, at some depth. -/
inductive OccursIn (element : Element) : List Node → Prop
  | top {nodes : List Node} (hmem : .element element.tag element.children element.span ∈ nodes) :
    OccursIn element nodes
  | inside {nodes children : List Node} {tag : Tag} {span : Span}
      (hmem : .element tag children span ∈ nodes)
    (hchildren : OccursIn element children) : OccursIn element nodes

/-- What occurs among some nodes occurs among more. -/
theorem OccursIn.tail {element : Element} {nodes : List Node} (h : OccursIn element nodes)
    (node : Node) :
    OccursIn element (node :: nodes) := by
  cases h with
  | top hmem => exact .top (List.mem_cons_of_mem _ hmem)
  | inside hmem hchildren => exact .inside (List.mem_cons_of_mem _ hmem) hchildren

theorem elementsOf_eq_flatMap (nodes : List Node) :
    elementsOf nodes = nodes.flatMap Node.elements := by
  induction nodes with
  | nil => rfl
  | cons node nodes ih => rw [elementsOf, ih, List.flatMap_cons]

/-- **The list of the elements is complete**, and holds nothing else. -/
theorem mem_elementsOf_iff {element : Element} {nodes : List Node} :
    element ∈ elementsOf nodes ↔ OccursIn element nodes := by
  constructor
  · -- Down the tree: an element of the first node is that node, or inside it.
    intro h
    induction nodes using Node.listInduction with
    | nil => contradiction
    | element tag children span nodes ihchildren ih =>
      rw [elementsOf, Node.elements, List.mem_append, List.mem_cons] at h
      rcases h with (rfl | h) | h
      · exact .top List.mem_cons_self
      · exact .inside List.mem_cons_self (ihchildren h)
      · exact (ih h).tail _
    | text value span nodes ih | comment value span nodes ih => exact (ih h).tail _
  · intro h
    -- Up the tree again: what an element holds is listed behind it.
    induction h with
    | top hmem =>
      rw [elementsOf_eq_flatMap]
      exact List.mem_flatMap.2 ⟨_, hmem, List.mem_cons_self⟩
    | inside hmem _ ih =>
      rw [elementsOf_eq_flatMap]
      exact List.mem_flatMap.2 ⟨_, hmem, List.mem_cons_of_mem _ ih⟩

/-! ### Where they are -/

/-- What nodes tile does not end before it starts. -/
theorem Tiles.start_le_stop {span : Span} {nodes : List Node} (h : Tiles span nodes)
    (hnodes : ∀ node ∈ nodes, node.span.start < node.span.stop) : span.start ≤ span.stop := by
  induction nodes generalizing span with
  | nil => exact h.le
  | cons node nodes ih =>
    have hnode := hnodes node List.mem_cons_self
    have hrest := ih h.2 fun next hnext => hnodes next (List.mem_cons_of_mem _ hnext)
    have hstart := h.1
    dsimp only at hrest
    omega

/-- A tag takes a character at least. -/
theorem TagPlaced.start_lt_stop {source : List Char} {span : Span} {tag : Tag}
    (h : TagPlaced source span tag) :
    span.start < span.stop := by
  obtain ⟨body, hcovers⟩ := h.covers
  exact hcovers.start_lt_stop (by simp)

/-- A placed node is not empty. -/
theorem Placed.start_lt_stop {source : List Char} {node : Node} (h : Placed source node) :
    node.span.start < node.span.stop := by
  induction h with
  | text hne hcovers => exact hcovers.start_lt_stop (by simpa using hne)
  | comment hcovers => exact hcovers.start_lt_stop (by simp [commentStart])
  | leaf _ htag => exact htag.start_lt_stop
  | branch _ htag htiles _ _ hclosing _ _ ih =>
    have htag := htag.start_lt_stop
    have hinner := htiles.start_le_stop ih
    have hclosing := hclosing.start_le_stop
    simp only [Node.span] at htag hclosing ⊢
    omega

/-- **What an element holds** tiles a part of it, behind the opening tag. The attributes are inside
the element too. -/
theorem Placed.exists_inner {source : List Char} {tag : Tag} {children : List Node} {span : Span}
    (h : Placed source (.element tag children span)) :
    ∃ inner, span.start < inner.start ∧ inner.Within span ∧ Tiles inner children ∧
      (∀ child ∈ children, Placed source child) ∧
      ∀ attr ∈ tag.attributes, attr.span.Within span := by
  have hattributes {stop : Nat} (htag : TagPlaced source ⟨span.start, stop⟩ tag)
    (hstop : stop ≤ span.stop) :
      ∀ attr ∈ tag.attributes, attr.span.Within span := by
    intro attr hattr
    obtain ⟨more, hcovers⟩ := htag.attributes.covers attr hattr
    obtain ⟨hstart, hbefore⟩ := htag.attributes.inside attr hattr
    exact ⟨hstart, hcovers.start_le_stop, hbefore.trans hstop⟩
  cases h with
  | leaf _ htag =>
    -- Nothing is in the element: the empty part at its end will do.
    have hlt := htag.start_lt_stop
    exact ⟨⟨span.stop, span.stop⟩, hlt, ⟨hlt.le, le_rfl, le_rfl⟩,
      rfl, by simp, hattributes htag le_rfl⟩
  | @branch _ _ _ inner _ _ _ htag htiles _ hchildren hclosing =>
    have hlt : span.start < inner.start := htag.start_lt_stop
    have hinner : inner.start ≤ inner.stop :=
      htiles.start_le_stop fun child hchild => (hchildren child hchild).start_lt_stop
    have hstop : inner.stop ≤ span.stop := hclosing.start_le_stop
    exact ⟨inner, hlt, ⟨hlt.le, hinner, hstop⟩, htiles, hchildren,
      hattributes htag (hinner.trans hstop)⟩

/-- An element has a place in a span: it is a part of it and not empty, and its attributes are parts
of the element. -/
structure Element.PlacedIn (span : Span) (element : Element) : Prop where
  within : element.span.Within span
  start_lt_stop : element.span.start < element.span.stop
  attributes : ∀ attr ∈ element.tag.attributes, attr.span.Within element.span

/-- What is placed in a span is placed in any that holds it. -/
theorem Element.PlacedIn.mono {span outer : Span} {element : Element} (h : element.PlacedIn span)
    (hspan : span.Within outer) : element.PlacedIn outer :=
  ⟨h.within.trans hspan, h.start_lt_stop, h.attributes⟩

/-- The elements of nodes that tile a span have their places in it, one behind the other. -/
theorem Tiles.elementsOf {source : List Char} {span : Span} {nodes : List Node}
    (htiles : Tiles span nodes) (hplaced : ∀ node ∈ nodes, Placed source node) :
    (∀ element ∈ elementsOf nodes, element.PlacedIn span) ∧
      (Markup.elementsOf nodes).Pairwise fun element later => element.span.start <
        later.span.start := by
  -- Along the nodes. Each takes a part of the span, and what comes behind it tiles the rest.
  induction nodes using Node.listInduction generalizing span with
  | nil => exact ⟨by simp [Markup.elementsOf], .nil⟩
  | element tag children outer nodes ihchildren ih =>
    obtain ⟨hnode, hnodes⟩ := List.forall_mem_cons.1 hplaced
    obtain ⟨hstart, hrest⟩ := htiles
    have hlt : outer.start < outer.stop := hnode.start_lt_stop
    have hle := hrest.start_le_stop fun node hnode => (hnodes node hnode).start_lt_stop
    -- The element lies in the span, what it holds lies in the element, and the others lie behind
    -- it.
    have houter : outer.Within span := ⟨hstart.ge, hlt.le, hle⟩
    have hbehind : Span.Within ⟨outer.stop, span.stop⟩ span := ⟨hstart.ge.trans hlt.le, hle, le_rfl⟩
    obtain ⟨inner, hinner, hwithin, htiles, hchildren, hattributes⟩ := hnode.exists_inner
    obtain ⟨hinside, hinsideOrder⟩ := ihchildren htiles hchildren
    obtain ⟨hafter, hafterOrder⟩ := ih hrest hnodes
    rw [Markup.elementsOf, Node.elements]
    constructor
    · intro element helement
      rcases List.mem_append.1 helement with helement | helement
      · rcases List.mem_cons.1 helement with rfl | helement
        · exact ⟨houter, hlt, hattributes⟩
        · exact (hinside element helement).mono (hwithin.trans houter)
      · exact (hafter element helement).mono hbehind
    · -- The element starts before what it holds, and that ends before what comes behind the
      -- element.
      rw [List.cons_append, List.pairwise_cons, List.pairwise_append]
      refine ⟨?_, hinsideOrder, hafterOrder, ?_⟩
      · intro later hlater
        rcases List.mem_append.1 hlater with hlater | hlater
        · exact hinner.trans_le (hinside later hlater).within.start_le
        · exact hlt.trans_le (hafter later hlater).within.start_le
      · intro element helement later hlater
        calc element.span.start
            < element.span.stop := (hinside element helement).start_lt_stop
          _ ≤ outer.stop := ((hinside element helement).within.trans hwithin).stop_le
          _ ≤ later.span.start := (hafter later hlater).within.start_le
  | text value outer nodes ih | comment value outer nodes ih =>
    obtain ⟨hnode, hnodes⟩ := List.forall_mem_cons.1 hplaced
    obtain ⟨hstart, hrest⟩ := htiles
    -- A text or a comment has no elements, and only shortens the span of the rest.
    have hlt := hnode.start_lt_stop
    have hle := hrest.start_le_stop fun node hnode => (hnodes node hnode).start_lt_stop
    obtain ⟨hafter, hafterOrder⟩ := ih hrest hnodes
    have hbehind : Span.Within ⟨outer.stop, span.stop⟩ span := ⟨hstart.ge.trans hlt.le, hle, le_rfl⟩
    exact ⟨fun element helement => (hafter element helement).mono hbehind, hafterOrder⟩

/-- **The elements of a tree are inside the source of the tree**, and their attributes are inside
them. -/
theorem LaidOut.placed_of_mem_elementsOf {source : List Char} {span : Span} {nodes : List Node}
    (h : LaidOut source span nodes) : ∀ element ∈ elementsOf nodes, element.PlacedIn span :=
  (h.tiles.elementsOf h.placed).1

/-- **The elements of a tree are listed in the order of the source**, each once. -/
theorem LaidOut.pairwise_elementsOf {source : List Char} {span : Span} {nodes : List Node}
    (h : LaidOut source span nodes) :
    (elementsOf nodes).Pairwise fun element later => element.span.start < later.span.start :=
  (h.tiles.elementsOf h.placed).2

end Markup

end Triptych
