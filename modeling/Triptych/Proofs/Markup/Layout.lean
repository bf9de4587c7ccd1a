import Triptych.Proofs.Markup.Grammar
import Triptych.Proofs.Text.Slice
import Mathlib.Data.List.Chain

/-!
# Where the nodes of a tree stand

A tree that was read from a source loses nothing of it. The nodes on one level *tile* the part of
the source that they were read from: each starts where the one before it ends (`Tiles`). Each node
is *placed*: what its span covers is how the node is written (`Placed`). For an element with a
closing tag that means an opening tag, a part that its children tile, and the closing tag, without
anything in between.

All offsets are given through `Covers`, which places them between characters of the source.

* `Reads.layout`: whatever the grammar reads is laid out so;
* `layout_of_parse`: the same for a text that is parsed as a whole.
-/

namespace Triptych.Markup

open Text

/-! ### The statement -/

/-- The nodes follow each other without a gap, from the start of the span to its end. -/
def Tiles : Span → List Node → Prop
  | span, [] => span.start = span.stop
  | span, node :: nodes => node.span.start = span.start ∧ Tiles ⟨node.span.stop, span.stop⟩ nodes

/-- No two texts stand next to each other. -/
def Separated (nodes : List Node) : Prop :=
  nodes.IsChain fun node next => ¬ (node.isText = true ∧ next.isText = true)

/-- The attributes stand inside the span, one after the other, each from its name on. -/
structure AttributesPlaced (source : List Char) (span : Span) (attributes : List Attribute) :
    Prop where
  inOrder : attributes.Pairwise fun attr later => attr.span.stop ≤ later.span.start
  inside : ∀ attr ∈ attributes, span.start ≤ attr.span.start ∧ attr.span.stop ≤ span.stop
  covers : ∀ attr ∈ attributes, ∃ more, Covers source attr.span (attr.name.toList ++ more)

/-- The span covers the opening tag, from `<` and the name to `>`, and the attributes stand in
it. -/
structure TagPlaced (source : List Char) (span : Span) (tag : Tag) : Prop where
  covers : ∃ body, Covers source span ('<' :: tag.name.toList ++ body ++ ['>'])
  attributes : AttributesPlaced source span tag.attributes

/-- **A node is placed** if its span covers how it is written, and so for all nodes in it. -/
inductive Placed (source : List Char) : Node → Prop
  | text {value : String} {span : Span} (hne : value ≠ "")
      (hcovers : Covers source span value.toList) :
    Placed source (.text value span)
  | comment {value : String} {span : Span}
    (hcovers : Covers source span (commentStart ++ (value.toList ++ commentStop))) :
    Placed source (.comment value span)
  | leaf {tag : Tag} {span : Span} (hleaf : tag.takesClosingTag = false)
      (htag : TagPlaced source span tag) :
    Placed source (.element tag [] span)
  | branch {tag : Tag} {children : List Node} {span inner : Span} {written gap : List Char}
    (htakes : tag.takesClosingTag = true) (htag : TagPlaced source ⟨span.start, inner.start⟩ tag)
    (htiles : Tiles inner children) (hseparated : Separated children)
    (hchildren : ∀ child ∈ children, Placed source child)
    (hclosing : Covers source ⟨inner.stop, span.stop⟩ ('<' :: '/' :: (written ++ (gap ++ ['>']))))
    (hwritten : equalsIgnoringCase written tag.name.toList = true) (hgap : Blanks gap) :
    Placed source (.element tag children span)

/-- The nodes tile the span, no two texts are next to each other, and each node is placed. -/
structure LaidOut (source : List Char) (span : Span) (nodes : List Node) : Prop where
  tiles : Tiles span nodes
  separated : Separated nodes
  placed : ∀ node ∈ nodes, Placed source node

/-! ### Attributes -/

namespace AttributesPlaced

variable {source : List Char} {start pos : Nat} {attributes : List Attribute}

theorem nil (source : List Char) (span : Span) : AttributesPlaced source span [] :=
  ⟨.nil, by simp, by simp⟩

/-- Attributes inside a span are inside a longer one. -/
theorem widen {stop : Nat} (h : AttributesPlaced source ⟨start, pos⟩ attributes)
    (hle : pos ≤ stop) :
    AttributesPlaced source ⟨start, stop⟩ attributes :=
  ⟨h.inOrder, fun attr hattr => ⟨(h.inside attr hattr).1, (h.inside attr hattr).2.trans hle⟩,
    h.covers⟩

/-- An attribute behind the others. -/
theorem append {more : List Char} (h : AttributesPlaced source ⟨start, pos⟩ attributes)
    (attr : Attribute) (hstart : start ≤ pos) (hpos : pos ≤ attr.span.start)
    (hcovers : Covers source attr.span (attr.name.toList ++ more)) :
    AttributesPlaced source ⟨start, attr.span.stop⟩ (attributes ++ [attr]) := by
  have hspan := hcovers.start_le_stop
  refine ⟨?_, ?_, ?_⟩
  · -- The new attribute starts where the reader stands, behind all others.
    rw [List.pairwise_append]
    refine ⟨h.inOrder, List.pairwise_singleton _ _, fun a ha b hb => ?_⟩
    obtain rfl := List.mem_singleton.1 hb
    exact (h.inside a ha).2.trans hpos
  · intro a ha
    rcases List.mem_append.1 ha with ha | ha
    · have hinside := h.inside a ha
      dsimp only at hinside ⊢
      omega
    · obtain rfl := List.mem_singleton.1 ha
      dsimp only
      omega
  · intro a ha
    rcases List.mem_append.1 ha with ha | ha
    · exact h.covers a ha
    · obtain rfl := List.mem_singleton.1 ha
      exact ⟨more, hcovers⟩

/-- The attributes before the last one end where it starts. -/
theorem init {attr : Attribute} (h : AttributesPlaced source ⟨start, pos⟩ (attributes ++ [attr])) :
    AttributesPlaced source ⟨start, attr.span.start⟩ attributes := by
  obtain ⟨hinOrder, -, hbefore⟩ := List.pairwise_append.1 h.inOrder
  exact ⟨hinOrder, fun a ha => ⟨(h.inside a (by simp [ha])).1, hbefore a ha attr (by simp)⟩,
    fun a ha => h.covers a (by simp [ha])⟩

end AttributesPlaced

/-- **A tag keeps its attributes in place**: what has been read, with the pending name counted in,
is placed at every step. -/
theorem TagReads.attributesPlaced {source : List Char} {start pos : Nat}
    {pending : Option (String × Span)} {done : List Attribute} {text : List Char} {found : ReadTag}
    (h : TagReads pending done pos text found) (hsource : Advances 0 source pos text)
    (hstart : start ≤ pos)
    (hplaced : AttributesPlaced source ⟨start, pos⟩ (flush pending done).reverse) :
    AttributesPlaced source ⟨start, found.stop⟩ found.attributes := by
  induction h with
  | close hgap | selfClose hgap => exact hplaced.widen (by simp only; omega)
  | slash hgap hnext _ ih => exact ih hsource.read.read (by omega) (hplaced.widen (by omega))
  -- A name is placed at once, as an attribute without a value.
  | @name pending done pos gap name rest found hgap hne hname hstop _ ih =>
    refine ih hsource.read.read (by omega) ?_
    rw [flush, List.reverse_cons]
    have hcovers : Covers source ⟨pos + byteLength gap, pos + byteLength gap + byteLength name⟩
        ((String.ofList name).toList ++ []) := by
      rw [String.toList_ofList, List.append_nil]
      exact Covers.of_advances hsource.read
    exact hplaced.append (.bare _ _) hstart (Nat.le_add_right _ _) hcovers
  | @value name span done pos gap rest value found hgap hvalue _ ih =>
    have hreader := hsource.read.read.trans (readValue_advances (readValue_of_reads hvalue))
    have hpos : pos ≤ value.stop := by
      obtain ⟨read, -, hread⟩ := readValue_advances (readValue_of_reads hvalue)
      omega
    rw [flush, List.reverse_cons] at hplaced
    have hinside := hplaced.inside (.bare name span) (by simp)
    obtain ⟨more, hcovers⟩ := hplaced.covers (.bare name span) (by simp)
    -- The value makes the attribute longer, and nothing else changes.
    obtain ⟨more', hlonger⟩ := hcovers.extend hreader (hinside.2.trans hpos)
    refine ih hreader (by omega) ?_
    rw [flush, List.reverse_cons]
    rw [List.append_assoc] at hlonger
    exact hplaced.init.append ⟨name, some value.value, value.quote, ⟨span.start, value.stop⟩⟩
      hinside.1
      (Nat.le_refl _) hlonger

/-! ### Nodes -/

/-- What an opening tag reads is placed. -/
theorem OpensWith.tagPlaced {source text after : List Char} {pos mid : Nat} {tag : Tag}
    (h : OpensWith pos text tag mid after) (hsource : Advances 0 source pos text) :
    TagPlaced source ⟨pos, mid⟩ tag := by
  obtain ⟨body, -, rfl, -, hreads⟩ := h
  -- What is read after the name is a body and the `>` that ends the tag.
  obtain ⟨inside, rfl, hstop, -⟩ := hreads.exists_body
  dsimp only at hstop hsource
  constructor
  · refine ⟨inside, ?_⟩
    have hsource' : Advances 0 source pos ('<' :: tag.name.toList ++ inside ++ ['>'] ++ after) := by
      simpa using hsource
    have hcovers := Covers.of_advances hsource'
    rw [byteLength_append, byteLength_append, ← Nat.add_assoc, ← Nat.add_assoc, ← hstop] at hcovers
    exact hcovers
  · exact hreads.attributesPlaced hsource.read (Nat.le_add_right _ _) (.nil _ _)

/-- What a closing tag reads is covered. -/
theorem ClosesWith.covers {source name text after : List Char} {pos stop : Nat}
    (h : ClosesWith name pos text stop after) (hsource : Advances 0 source pos text) :
    ∃ written gap, Covers source ⟨pos, stop⟩ ('<' :: '/' :: (written ++ (gap ++ ['>']))) ∧
      equalsIgnoringCase written name = true ∧ Blanks gap := by
  obtain ⟨written, gap, -, hwritten, hgap, rfl, rfl⟩ := h
  refine ⟨written, gap, ?_, hwritten, hgap⟩
  have hsource' : Advances 0 source pos ('<' :: '/' :: (written ++ (gap ++ ['>'])) ++ after) := by
    simpa using hsource
  have hcovers := Covers.of_advances hsource'
  simpa [Nat.add_assoc] using hcovers

theorem separated_cons {node : Node} {nodes : List Node} (h : Separated nodes)
    (hnode : node.isText = false ∨ NoTextFirst nodes) : Separated (node :: nodes) := by
  refine List.isChain_cons.2 ⟨fun next hnext => ?_, h⟩
  rintro ⟨htext, hnextText⟩
  rcases hnode with hnode | hnodes
  · rw [hnode] at htext
    contradiction
  · rw [hnodes next hnext] at hnextText
    contradiction

/-- The children of an element that holds raw text are laid out in it. -/
theorem laidOut_rawChildren {source content closing : List Char} {pos : Nat}
    (hsource : Advances 0 source pos (content ++ closing)) :
    LaidOut source ⟨pos, pos + byteLength content⟩
      (rawChildren content ⟨pos, pos + byteLength content⟩) := by
  unfold rawChildren
  split
  next hempty =>
    obtain rfl := List.isEmpty_iff.1 hempty
    exact ⟨rfl, List.isChain_nil, by simp⟩
  next hne =>
    refine ⟨⟨rfl, rfl⟩, List.isChain_singleton _, fun node hnode => ?_⟩
    obtain rfl := List.mem_singleton.1 hnode
    refine .text ?_ ?_
    · simpa using hne
    · rw [String.toList_ofList]
      exact Covers.of_advances hsource

/-- **What the grammar reads is laid out in the source.** -/
theorem Reads.layout {source text rest : List Char} {pos stop : Nat} {nodes : List Node}
    (h : Reads pos text nodes stop rest) (hsource : Advances 0 source pos text) :
    LaidOut source ⟨pos, stop⟩ nodes := by
  -- The induction is on how the nodes were read; `hsource` says at which byte of the source each
  -- part of them begins.
  induction h with
  | nil => exact ⟨rfl, List.isChain_nil, by simp⟩
  | @text pos stop value after rest nodes hne hplain hedge hreads ih =>
    -- The text goes up to an edge, so what follows it is not text.
    obtain ⟨htiles, hseparated, hplaced⟩ := ih hsource.read
    refine ⟨⟨rfl, htiles⟩, separated_cons hseparated (.inr (hreads.noTextFirst hedge)), ?_⟩
    refine List.forall_mem_cons.2 ⟨.text (by simpa using hne) ?_, hplaced⟩
    rw [String.toList_ofList]
    exact Covers.of_advances hsource
  | @comment pos stop value after rest nodes hend _ ih =>
    obtain ⟨htiles, hseparated, hplaced⟩ := ih hsource.read
    refine ⟨⟨rfl, htiles⟩, separated_cons hseparated (.inl rfl), ?_⟩
    refine List.forall_mem_cons.2 ⟨.comment ?_, hplaced⟩
    rw [String.toList_ofList]
    exact Covers.of_advances hsource
  | leaf hopen hleaf _ ih =>
    obtain ⟨htiles, hseparated, hplaced⟩ := ih (hsource.trans hopen.advances)
    refine ⟨⟨rfl, htiles⟩, separated_cons hseparated (.inl rfl), ?_⟩
    exact List.forall_mem_cons.2 ⟨.leaf hleaf (hopen.tagPlaced hsource), hplaced⟩
  | @raw pos mid outer stop text content closing after rest tag nodes hopen htakes hraw hcontent
      hclose _ ih =>
    have hinner := hsource.trans hopen.advances
    obtain ⟨htiles, hseparated, hplaced⟩ := ih (hinner.read.trans hclose.advances)
    obtain ⟨written, gap, hclosing, hwritten, hgap⟩ := hclose.covers hinner.read
    -- Raw text lies between the tags as one child, or none if it is empty.
    have hchildren := laidOut_rawChildren hinner
    refine ⟨⟨rfl, htiles⟩, separated_cons hseparated (.inl rfl), ?_⟩
    exact List.forall_mem_cons.2
      ⟨.branch htakes (hopen.tagPlaced hsource) hchildren.tiles hchildren.separated
      hchildren.placed hclosing hwritten hgap, hplaced⟩
  | branch hopen htakes hraw hchildren hclose _ ihchildren ih =>
    have hinner := hsource.trans hopen.advances
    -- The children begin where the opening tag ends, and the closing tag where they do.
    have hbehind := hinner.trans hchildren.advances
    obtain ⟨htiles, hseparated, hplaced⟩ := ih (hbehind.trans hclose.advances)
    obtain ⟨written, gap, hclosing, hwritten, hgap⟩ := hclose.covers hbehind
    have hlaidOut := ihchildren hinner
    refine ⟨⟨rfl, htiles⟩, separated_cons hseparated (.inl rfl), ?_⟩
    exact List.forall_mem_cons.2
      ⟨.branch htakes (hopen.tagPlaced hsource) hlaidOut.tiles hlaidOut.separated
      hlaidOut.placed hclosing hwritten hgap, hplaced⟩

/-- **The tree loses nothing of the source**: the nodes of a text that parses tile it from its first
byte to its last, and each of them is placed. -/
theorem layout_of_parse {source : String} {nodes : List Node} (h : parse source = .ok nodes) :
    LaidOut source.toList ⟨0, byteLength source.toList⟩ nodes := by
  obtain ⟨stop, hreads⟩ := parse_eq_ok_iff.1 h
  obtain ⟨read, hread, hstop⟩ := hreads.advances
  -- Nothing is left behind the nodes, so they end with the source.
  obtain rfl : stop = byteLength source.toList := by
    rw [hstop, hread]
    simp
  exact hreads.layout (.refl _ _)

/-- The text lies behind a tag of three bytes and takes two. -/
theorem layout_of_parse_paragraph :
    LaidOut "<p>é</p>".toList ⟨0, 9⟩ [.element ⟨"p", [], false⟩ [.text "é" ⟨3, 5⟩] ⟨0, 9⟩] := by
  have hname : IsTagName ['p'] := ⟨'p', [], rfl, rfl, by simp⟩
  have hopen : OpensWith 0 ['<', 'p', '>', 'é', '<', '/', 'p', '>'] ⟨"p", [], false⟩ 3
      ['é', '<', '/', 'p', '>'] :=
    ⟨['>', 'é', '<', '/', 'p', '>'], hname, rfl, by simp [Stops]; rfl, .close blanks_nil⟩
  have hclose : ClosesWith ['p'] 5 ['<', '/', 'p', '>'] 9 [] :=
    ⟨['p'], [], hname, rfl, blanks_nil, rfl, rfl⟩
  have hrun : PlainRun (['é'] ++ ['<', '/', 'p', '>']) ['<', '/', 'p', '>'] :=
    .step (.text (by simp) (List.all_eq_true.1 rfl) (clear_angle _)) rfl (.refl _)
  have htext : Reads 3 (['é'] ++ ['<', '/', 'p', '>']) [.text "é" ⟨3, 5⟩] 5 ['<', '/', 'p', '>'] :=
    .text (by simp) hrun hclose.atEdge .nil
  exact layout_of_parse (parse_eq_ok_iff.2 ⟨9, .branch hopen rfl rfl htext hclose .nil⟩)

end Triptych.Markup
