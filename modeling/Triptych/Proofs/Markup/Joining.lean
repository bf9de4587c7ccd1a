import Triptych.Proofs.Markup.PlainText
import Triptych.Proofs.Markup.RoundTrip

/-!
# Neighbouring texts

Printed one after the other, two neighbouring texts cannot be told from one. So a tree that has been
changed is read from its markup with its neighbouring texts joined, if it is read at all.
`joinTexts` joins them, which does not change the markup (`renderNodes_joinTexts`).

Two things are needed for the tree to be printable. Its nodes must be such as can be written
(`Written`), which changing a tree usually leaves alone; and its texts must stay text when
neighbouring ones are read as one (`textsStay`), which is where things go wrong when what stood
between two texts is taken out. Together they are enough (`Written.printable_joinTexts`), and the
second one is needed (`Printable.textsStay`).
-/

namespace Triptych.Markup

open Text TextState

/-! ### Trees that can be written -/

/-- The nodes can be written as markup, which does not have to read as the same nodes: texts may
look like markup and may stand next to each other. -/
inductive Written : List Node → Prop
  | nil : Written []
  | text {value : List Char} {span : Span} {nodes : List Node} (hne : value ≠ [])
      (hnodes : Written nodes) :
    Written (.text (String.ofList value) span :: nodes)
  | comment {value : List Char} {span : Span} {nodes : List Node}
      (hend : EndsFirst commentStop value)
    (hnodes : Written nodes) : Written (.comment (String.ofList value) span :: nodes)
  | leaf {tag : Tag} {span : Span} {nodes : List Node} (htag : tag.Legible)
      (hleaf : tag.takesClosingTag = false)
    (hnodes : Written nodes) : Written (.element tag [] span :: nodes)
  | raw {tag : Tag} {content : List Char} {inner span : Span} {nodes : List Node}
      (htag : tag.Legible)
    (htakes : tag.takesClosingTag = true) (hraw : holdsRawText tag.name = true)
    (hcontent : HoldsNoClosingTag tag.name.toList content) (hnodes : Written nodes) :
    Written (.element tag (rawChildren content inner) span :: nodes)
  | branch {tag : Tag} {children : List Node} {span : Span} {nodes : List Node} (htag : tag.Legible)
    (htakes : tag.takesClosingTag = true) (hraw : holdsRawText tag.name = false)
    (hchildren : Written children)
    (hnodes : Written nodes) : Written (.element tag children span :: nodes)

/-- What can be printed and read again can be written in the first place. -/
theorem Printable.written {nodes : List Node} (h : Printable nodes) : Written nodes := by
  induction h with
  | nil => exact .nil
  | text hne _ _ _ ih => exact .text hne ih
  | comment hend _ ih => exact .comment hend ih
  | leaf htag hleaf _ ih => exact .leaf htag hleaf ih
  | raw htag htakes hraw hcontent _ ih => exact .raw htag htakes hraw hcontent ih
  | branch htag htakes hraw _ _ ihchildren ih => exact .branch htag htakes hraw ihchildren ih

/-! ### Texts that stay text -/

mutual

/-- The texts inside a node stay text. -/
def Node.insideStays : Node → Bool
  | .element tag children _ => holdsRawText tag.name || textsStay .plain children
  | _ => true

/-- The texts among the nodes and inside them stay text, neighbouring ones read as one. The state is
that of a reader of the texts right before the nodes. -/
def textsStay (state : TextState) : List Node → Bool
  | [] => state.isText
  | .text value _ :: nodes => textsStay (state.run value.toList) nodes
  | node :: nodes => state.isText && (node.insideStays && textsStay .plain nodes)

end

section TextsStay

variable {state : TextState} {nodes : List Node} {span : Span}

theorem textsStay_text {value : String} :
    textsStay state (.text value span :: nodes) = textsStay (state.run value.toList) nodes := rfl

theorem textsStay_comment {value : String} :
    textsStay state (.comment value span :: nodes) = (state.isText && textsStay .plain nodes) := rfl

theorem textsStay_element {tag : Tag} {children : List Node} :
    textsStay state (.element tag children span :: nodes) =
      (state.isText && ((holdsRawText tag.name || textsStay .plain children) &&
      textsStay .plain nodes)) := rfl

/-- Where no text follows, the texts before must end. -/
theorem textsStay_of_noTextFirst (h : NoTextFirst nodes) :
    textsStay state nodes = (state.isText && textsStay .plain nodes) := by
  match nodes with
  | [] => exact (Bool.and_true _).symm
  | .text _ _ :: _ => exact absurd (h _ rfl) (by simp [Node.isText])
  | .comment _ _ :: _ => rfl
  | .element _ _ _ :: _ => rfl

end TextsStay

/-- The texts of a tree that is read from its markup stay text. -/
theorem Printable.textsStay {nodes : List Node} (h : Printable nodes) :
    textsStay .plain nodes = true := by
  induction h with
  | nil => rfl
  -- A text reaches up to the next node, which is no text, so it is judged alone.
  | text hne hplain hfirst _ ih =>
    rw [textsStay_text, String.toList_ofList, textsStay_of_noTextFirst hfirst, ih, Bool.and_true]
    exact plainRun_nil_iff.1 hplain
  | comment _ _ ih =>
    rw [textsStay_comment, ih]
    rfl
  | leaf _ _ _ ih =>
    rw [textsStay_element, ih, Bool.and_true]
    exact Bool.or_true _
  | raw _ _ hraw _ _ ih =>
    rw [textsStay_element, ih, hraw]
    rfl
  | branch _ _ hraw _ _ ihchildren ih =>
    rw [textsStay_element, ih, hraw, ihchildren]
    rfl

mutual

/-- Spans do not tell whether the inside of a node stays as it is. -/
theorem Node.insideStays_strip (node : Node) : node.strip.insideStays = node.insideStays := by
  match node with
  | .element tag children span =>
    exact congrArg (holdsRawText tag.name || ·) (textsStay_stripAll .plain children)
  | .text _ _ | .comment _ _ => rfl

/-- Whether texts stay text does not depend on where they stood. -/
theorem textsStay_stripAll (state : TextState) (nodes : List Node) :
    textsStay state (stripAll nodes) = textsStay state nodes := by
  match nodes with
  | [] => rfl
  | .text value span :: nodes => exact textsStay_stripAll (state.run value.toList) nodes
  | .comment value span :: nodes =>
    exact congrArg (state.isText && ·) (textsStay_stripAll .plain nodes)
  | .element tag children span :: nodes =>
    have hinside := Node.insideStays_strip (.element tag children span)
    have hnodes := textsStay_stripAll .plain nodes
    change (state.isText && (Node.insideStays (Node.strip (.element tag children span)) &&
      textsStay .plain (stripAll nodes))) = _
    rw [hinside, hnodes]
    rfl

end

/-! ### Joining -/

/-- Puts a node before others; a text joins one that follows it. -/
def joinNode : Node → List Node → List Node
  | .text value span, .text value' span' :: nodes =>
    .text (value ++ value') ⟨span.start, span'.stop⟩ :: nodes
  | node, nodes => node :: nodes

mutual

/-- The node with neighbouring texts joined inside it. -/
def Node.joinInside : Node → Node
  | .element tag children span => .element tag (joinTexts children) span
  | node => node

/-- The nodes with neighbouring texts joined, at any depth. -/
def joinTexts : List Node → List Node
  | [] => []
  | node :: nodes => joinNode node.joinInside (joinTexts nodes)

end

/-- A raw element has one text at most, so there is nothing to join. -/
theorem joinTexts_rawChildren (content : List Char) (span : Span) :
    joinTexts (rawChildren content span) = rawChildren content span := by
  unfold rawChildren
  split <;> rfl

/-- **Joined texts are written as the texts were.** -/
theorem renderNodes_joinNode (node : Node) (nodes : List Node) :
    renderNodes (joinNode node nodes) = node.render ++ renderNodes nodes := by
  unfold joinNode
  split
  · simp [renderNodes, Node.render, String.append_assoc]
  · rfl

mutual

theorem Node.render_joinInside (node : Node) : node.joinInside.render = node.render := by
  match node with
  | .element tag children span =>
    have hchildren := renderNodes_joinTexts children
    unfold Node.joinInside Node.render
    rw [hchildren]
  | .text _ _ | .comment _ _ => rfl

/-- **Joining texts does not change the markup.** -/
theorem renderNodes_joinTexts (nodes : List Node) :
    renderNodes (joinTexts nodes) = renderNodes nodes := by
  match nodes with
  | [] => rfl
  | node :: nodes =>
    have hnode := node.render_joinInside
    have hnodes := renderNodes_joinTexts nodes
    rw [joinTexts, renderNodes_joinNode, hnode, hnodes, renderNodes]

end

/-- No element is lost or gained where texts are joined. -/
theorem elementsOf_joinNode (node : Node) (nodes : List Node) :
    elementsOf (joinNode node nodes) = node.elements ++ elementsOf nodes := by
  unfold joinNode
  split <;> rfl

/-- Reading two texts in a row is reading the text that they make up. -/
theorem textsStay_joinNode (state : TextState) (node : Node) (nodes : List Node) :
    textsStay state (joinNode node nodes) = textsStay state (node :: nodes) := by
  unfold joinNode
  split
  · rw [textsStay_text, textsStay_text, textsStay_text, String.toList_append, run_append]
  · rfl

/-! ### Trees that can be printed when their texts are joined -/

/-- The nodes can be printed behind texts that lead to a state. -/
def PrintableAfter (state : TextState) : List Node → Prop
  | .text value _ :: nodes =>
    value.toList ≠ [] ∧ (state.run value.toList).isText = true ∧ NoTextFirst nodes ∧ Printable nodes
  | nodes => state.isText = true ∧ Printable nodes

/-- Where no text comes before, that is what it means that markup can be printed. -/
theorem PrintableAfter.printable {nodes : List Node} (h : PrintableAfter .plain nodes) :
    Printable nodes := by
  match nodes with
  | .text value span :: nodes =>
    obtain ⟨hne, hstays, hfirst, hnodes⟩ := h
    rw [← String.ofList_toList (s := value)]
    exact .text hne (plainRun_nil_iff.2 hstays) hfirst hnodes
  | [] | .comment _ _ :: _ | .element _ _ _ :: _ => exact h.2

/-- A text joins the texts before it. -/
theorem PrintableAfter.joinText {state : TextState} {value : List Char} {span : Span}
    {nodes : List Node} (hne : value ≠ []) (h : PrintableAfter (state.run value) nodes) :
    PrintableAfter state (joinNode (.text (String.ofList value) span) nodes) := by
  match nodes with
  | .text value' span' :: nodes =>
    obtain ⟨-, hstays, hfirst, hnodes⟩ := h
    rw [← run_append] at hstays
    refine ⟨?_, ?_, hfirst, hnodes⟩
    · simp [hne]
    · rwa [String.toList_append, String.toList_ofList]
  | [] | .comment _ _ :: _ | .element _ _ _ :: _ =>
    obtain ⟨hstays, hnodes⟩ := h
    refine ⟨by rwa [String.toList_ofList], by rwa [String.toList_ofList], ?_, hnodes⟩
    simp [NoTextFirst, Node.isText]

/-- **What can be written can be printed once its texts are joined**, if no text turns into markup.
The induction is on the nodes, and the state is what the text before them has come to. -/
theorem Written.printableAfter {state : TextState} {nodes : List Node} (h : Written nodes)
    (hstay : textsStay state nodes = true) : PrintableAfter state (joinTexts nodes) := by
  -- Along the nodes: a text is read on from the state before it, and everything else starts afresh.
  induction h generalizing state with
  | nil => exact ⟨hstay, .nil⟩
  | @text value span nodes hne _ ih =>
    rw [textsStay_text, String.toList_ofList] at hstay
    exact .joinText hne (ih hstay)
  | comment hend _ ih =>
    rw [textsStay_comment, Bool.and_eq_true] at hstay
    exact ⟨hstay.1, .comment hend (ih hstay.2).printable⟩
  | leaf htag hleaf _ ih =>
    rw [textsStay_element, Bool.and_eq_true, Bool.and_eq_true] at hstay
    exact ⟨hstay.1, .leaf htag hleaf (ih hstay.2.2).printable⟩
  | @raw tag content inner span nodes htag htakes hraw hcontent _ ih =>
    rw [textsStay_element, Bool.and_eq_true, Bool.and_eq_true] at hstay
    have hchildren := joinTexts_rawChildren content inner
    have hnodes := (ih hstay.2.2).printable
    refine ⟨hstay.1, ?_⟩
    rw [Node.joinInside, hchildren]
    exact .raw htag htakes hraw hcontent hnodes
  | branch htag htakes hraw _ _ ihchildren ih =>
    rw [textsStay_element, hraw, Bool.false_or, Bool.and_eq_true, Bool.and_eq_true] at hstay
    exact ⟨hstay.1, .branch htag htakes hraw (ihchildren hstay.2.1).printable
      (ih hstay.2.2).printable⟩

/-- **Nodes that can be written, and whose texts stay text, can be printed when neighbouring texts
are joined.** -/
theorem Written.printable_joinTexts {nodes : List Node} (h : Written nodes)
    (hstay : textsStay .plain nodes = true) :
    Printable (joinTexts nodes) :=
  (h.printableAfter hstay).printable

/-- Joining keeps text what is text. -/
theorem Written.textsStay_joinTexts {nodes : List Node} (h : Written nodes) (state : TextState) :
    textsStay state (joinTexts nodes) = textsStay state nodes := by
  induction h generalizing state with
  | nil => rfl
  -- Only texts are joined, and a text that is joined to the next one stays text if both do.
  | text _ _ ih =>
    rw [joinTexts, textsStay_joinNode]
    exact ih _
  | comment _ _ ih =>
    rw [joinTexts, textsStay_joinNode, textsStay_comment, ← ih]
    rfl
  | leaf _ _ _ ih =>
    rw [joinTexts, textsStay_joinNode, textsStay_element, ← ih]
    rfl
  | raw _ _ hraw _ _ ih =>
    rw [joinTexts, textsStay_joinNode, Node.joinInside, textsStay_element, textsStay_element, hraw,
      ih]
    rfl
  | branch _ _ _ _ _ ihchildren ih =>
    rw [joinTexts, textsStay_joinNode, textsStay_element, ← ih, ← ihchildren]
    rfl

theorem noneEndsInSlash_joinNode {node : Node} {nodes : List Node} :
    NoneEndsInSlash (joinNode node nodes) ↔ NoneEndsInSlash (node :: nodes) := by
  unfold NoneEndsInSlash
  rw [elementsOf_joinNode]
  rfl

/-- Joining leaves the tags. -/
theorem Written.noneEndsInSlash_joinTexts {nodes : List Node} (h : Written nodes) :
    NoneEndsInSlash (joinTexts nodes) ↔ NoneEndsInSlash nodes := by
  induction h with
  | nil => exact Iff.rfl
  | text _ _ ih => exact noneEndsInSlash_joinNode.trans ih
  | comment _ _ ih => exact noneEndsInSlash_joinNode.trans ih
  | leaf _ _ _ ih =>
    rw [joinTexts, noneEndsInSlash_joinNode, Node.joinInside, noneEndsInSlash_element,
      noneEndsInSlash_element, ih]
    rfl
  | @raw tag content inner span nodes _ _ _ _ _ ih =>
    rw [joinTexts, noneEndsInSlash_joinNode, Node.joinInside, noneEndsInSlash_element,
      noneEndsInSlash_element, ih, joinTexts_rawChildren]
  | branch _ _ _ _ _ ihchildren ih =>
    rw [joinTexts, noneEndsInSlash_joinNode, Node.joinInside, noneEndsInSlash_element,
      noneEndsInSlash_element, ih, ihchildren]

/-- **What a tree is read as from its markup.** Nodes that can be written are read again, with
neighbouring texts joined, if and only if no tag ends in a slash and the texts stay text. -/
theorem Written.parse_renderNodes_iff {nodes : List Node} (h : Written nodes) :
    (∃ nodes', parse (renderNodes nodes) = .ok nodes' ∧
      stripAll nodes' = stripAll (joinTexts nodes)) ↔
      NoneEndsInSlash nodes ∧ textsStay .plain nodes = true := by
  rw [← renderNodes_joinTexts nodes, ← h.noneEndsInSlash_joinTexts]
  constructor
  · rintro ⟨nodes', hparse, hstrip⟩
    obtain ⟨stop, hreads⟩ := parse_eq_ok_iff.1 hparse
    -- The texts that were read stay text, and they are those of the tree.
    have hstay : textsStay .plain nodes = true := by
      rw [← h.textsStay_joinTexts, ← textsStay_stripAll, ← hstrip, textsStay_stripAll]
      exact hreads.printable.textsStay
    rw [← List.append_nil (renderNodes (joinTexts nodes)).toList] at hreads
    exact ⟨((h.printable_joinTexts hstay).reread hreads hstrip).1, hstay⟩
  · rintro ⟨hslash, hstay⟩
    obtain ⟨nodes', stop, hstrip, hreads⟩ :=
      (h.printable_joinTexts hstay).reads_render hslash 0 atEdge_nil
    rw [List.append_nil] at hreads
    exact ⟨nodes', parse_eq_ok_iff.2 ⟨stop, hreads⟩, hstrip⟩

end Triptych.Markup
