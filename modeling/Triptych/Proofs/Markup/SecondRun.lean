import Triptych.Proofs.Markup.Preservation
import Triptych.Proofs.Markup.Settled

/-!
# Making markup smaller twice

A second run finds little left to do. Comments that are to be removed are gone, and an attribute has
nothing left to reduce once it was reduced (`Attribute.minify_minify`), which is said of a whole
tree by its marks (`Reduced`). What is left are blanks. Collapsing them looks at each text alone, so
where a comment is removed between two texts the blanks on both sides of it are kept; the smaller
markup has one text there, and the second run collapses its blanks (`minify_twice_joins_blanks`).

So a second run changes nothing exactly if the blanks of the tree that the smaller markup is read as
are settled (`second_minify_iff`). They are if comments are kept. In any case the tree that is read
has no two texts next to each other, so that from the second run on nothing changes
(`ReadsReduced.exists_stable`).
-/

namespace Triptych.Markup

open Text

/-! ### Markup and places -/

theorem Tag.renderStart_strip (tag : Tag) : tag.strip.renderStart = tag.renderStart := by
  have hattributes : (tag.strip.attributes.map fun attr => " " ++ attr.render) =
      tag.attributes.map fun attr => " " ++ attr.render := by
    rw [Tag.strip, List.map_map]
    rfl
  rw [Tag.renderStart, Tag.renderStart, hattributes]
  rfl

/-- The markup of a tree does not depend on where its nodes stood. -/
theorem renderNodes_stripAll (nodes : List Node) :
    renderNodes (stripAll nodes) = renderNodes nodes := by
  induction nodes using Node.listInduction with
  | nil => rfl
  | text value span nodes ih => exact congrArg (value ++ ·) ih
  | comment value span nodes ih => exact congrArg (("<!--" ++ value ++ "-->") ++ ·) ih
  | element tag children span nodes ihchildren ih =>
    rw [stripAll, Node.strip, renderNodes, renderNodes, Node.render, Node.render, ihchildren, ih,
      Tag.renderStart_strip]
    rfl

/-! ### Attributes that are reduced -/

namespace Attribute

/-- True of a boolean attribute whose value is empty or repeats its name. -/
def saysNothing (attr : Attribute) : Bool :=
  attr.value.any fun value =>
    isBooleanName attr.name && (value.isEmpty || equalsIgnoringCase value.toList attr.name.toList)

variable (attr : Attribute)

/-- An attribute loses a value that says nothing, and is then telling. -/
theorem collapseBoolean_eq :
    attr.collapseBoolean = if attr.saysNothing then { attr with value := none, quote := .none }
      else attr := by
  unfold collapseBoolean saysNothing
  split
  next value hvalue => rw [hvalue, Option.any_some]
  next hnone => rw [hnone]; rfl

theorem saysNothing_collapseBoolean : attr.collapseBoolean.saysNothing = false := by
  rw [collapseBoolean_eq]
  split
  next => rfl
  next hkeep => rwa [Bool.not_eq_true] at hkeep

/-- Whether a value says something does not depend on its quotes. -/
theorem saysNothing_unquote : attr.unquote.saysNothing = attr.saysNothing := by
  unfold unquote
  split <;> rfl

theorem collapseBoolean_of_telling {attr : Attribute} (h : attr.saysNothing = false) :
    attr.collapseBoolean = attr := by
  rw [collapseBoolean_eq, h]
  rfl

/-- Quotes are dropped once. -/
theorem unquote_unquote : attr.unquote.unquote = attr.unquote := by
  by_cases hbare : (attr.value.any fun value => needsNoQuotes value.toList) = true
  · have hunquote : attr.unquote = { attr with quote := .none } := if_pos hbare
    rw [hunquote]
    exact if_pos hbare
  · have hunquote : attr.unquote = attr := if_neg hbare
    rw [hunquote, hunquote]

/-- **A reduced attribute has nothing left to reduce.** -/
theorem minify_minify (options : Reductions) :
    (attr.minify options).minify options = attr.minify options := by
  have hboolean := attr.saysNothing_collapseBoolean
  unfold minify
  split <;> split
  · have hunquote : attr.collapseBoolean.unquote.saysNothing = false := by rwa [saysNothing_unquote]
    dsimp only
    rw [collapseBoolean_of_telling hunquote, unquote_unquote]
  · exact collapseBoolean_of_telling hboolean
  · exact attr.unquote_unquote
  · rfl

/-- Where an attribute stands makes no difference to it. -/
theorem minify_strip (options : Reductions) :
    attr.strip.minify options = (attr.minify options).strip := by
  -- Both steps look at the name and the value only.
  have hboolean : attr.strip.collapseBoolean = attr.collapseBoolean.strip := by
    rw [collapseBoolean_eq, collapseBoolean_eq]
    have htelling : attr.strip.saysNothing = attr.saysNothing := rfl
    rw [htelling]
    split <;> rfl
  have hunquote (attr : Attribute) : attr.strip.unquote = attr.unquote.strip := by
    have hvalue : attr.strip.value = attr.value := rfl
    unfold unquote
    rw [hvalue]
    split <;> rfl
  unfold minify
  split <;> split
  · dsimp only
    rw [hboolean, hunquote]
  · exact hboolean
  · exact hunquote attr
  · rfl

end Attribute

/-- **A tag that was made smaller is as small as it gets.** -/
theorem Tag.minify_minify (options : Reductions) (tag : Tag) :
    (tag.minify options).minify options = tag.minify options := by
  have hattributes : (tag.attributes.map (Attribute.minify options)).map
    (Attribute.minify options) =
      tag.attributes.map (Attribute.minify options) := by
    rw [List.map_map]
    exact List.map_congr_left fun attr _ => attr.minify_minify options
  unfold Tag.minify
  rw [hattributes]

/-- Spans have no part in making attributes smaller. -/
theorem Attribute.minify_eq_self_of_strip {options : Reductions} {attr : Attribute}
    (h : attr.strip.minify options = attr.strip) : attr.minify options = attr := by
  -- Stripping forgets the place of the attribute, but that is not what is reduced.
  have hspan := (attr.keeps_minify options).span
  rw [Attribute.minify_strip] at h
  generalize attr.minify options = small at h hspan
  obtain ⟨name, value, quote, span⟩ := attr
  obtain ⟨name', value', quote', span'⟩ := small
  obtain rfl : span' = span := hspan
  simpa [Attribute.strip] using h

/-- A tag is reduced wherever it stands. -/
theorem Tag.minify_strip_eq_self_iff {options : Reductions} {tag : Tag} :
    tag.strip.minify options = tag.strip ↔ tag.minify options = tag := by
  constructor
  · intro h
    have hstrip : tag.attributes.map (Attribute.minify options ∘ Attribute.strip) =
        tag.attributes.map Attribute.strip := by
      rw [← List.map_map]
      exact congrArg Tag.attributes h
    have hattributes : tag.attributes.map (Attribute.minify options) = tag.attributes.map id := by
      refine List.map_congr_left fun attr hattr => ?_
      exact Attribute.minify_eq_self_of_strip (List.map_inj_left.1 hstrip attr hattr)
    unfold Tag.minify
    rw [hattributes, List.map_id]
  · intro h
    have hstrip : tag.strip.minify options = (tag.minify options).strip := by
      simp [Tag.minify, Tag.strip, Function.comp_def, Attribute.minify_strip]
    rw [hstrip, h]

/-! ### Trees that are reduced -/

/-- The mark has nothing left to reduce: the attributes of an element are reduced, and a comment is
there only if comments are kept. -/
def Mark.IsReduced (options : Reductions) (mark : Mark) : Prop :=
  mark.minify options = mark ∧ (mark.isComment = true → options.removeComments = false)

/-- Nothing among the nodes is left to reduce, apart from blanks; `sheltered` tells whether they
stand below an element that keeps its blanks. -/
def Reduced (options : Reductions) (sheltered : Bool) (nodes : List Node) : Prop :=
  ∀ mark ∈ marks sheltered nodes, mark.IsReduced options

/-- **A tree that was made smaller has nothing left to reduce**, apart from blanks. -/
theorem reduced_reduceNodes (options : Reductions) (nodes : List Node) :
    Reduced options false (reduceNodes options nodes) := by
  intro mark hmark
  rw [marks_reduceNodes] at hmark
  obtain ⟨mark, hkept, rfl⟩ := List.mem_map.1 hmark
  constructor
  · cases mark with
    | enter tag span => exact congrArg (Mark.enter · span) (tag.minify_minify options)
    | leave | letter | kept | comment => rfl
  · intro hcomment
    -- Reducing a mark does not turn it into a comment.
    have hbefore : mark.isComment = true := by
      cases mark with
      | comment => rfl
      | enter | leave | letter | kept => contradiction
    unfold keptMarks at hkept
    split at hkept
    next =>
      have hnone := (List.mem_filter.1 hkept).2
      rw [hbefore] at hnone
      contradiction
    next hoff => rwa [Bool.not_eq_true] at hoff

section Reduced

variable {options : Reductions} {sheltered : Bool} {nodes : List Node} {span : Span}

/-- There is nothing to reduce in a text. -/
theorem reduced_text {value : String} :
    Reduced options sheltered (.text value span :: nodes) ↔ Reduced options sheltered nodes := by
  have htext : ∀ mark ∈ (Node.text value span).marks sheltered, mark.IsReduced options := by
    intro mark hmark
    cases sheltered with
    | true =>
      obtain rfl : mark = .kept value span := by simpa [Node.marks] using hmark
      exact ⟨rfl, fun hcomment => absurd hcomment Bool.false_ne_true⟩
    | false =>
      obtain ⟨c, -, rfl⟩ := List.mem_map.1 hmark
      exact ⟨rfl, fun hcomment => absurd hcomment Bool.false_ne_true⟩
  unfold Reduced
  rw [marks, List.forall_mem_append]
  exact and_iff_right htext

/-- What is reduced, node by node. -/
theorem reduced_comment {value : String} :
    Reduced options sheltered (.comment value span :: nodes) ↔
      options.removeComments = false ∧ Reduced options sheltered nodes := by
  have hcomment : (Mark.comment value span).IsReduced options ↔ options.removeComments = false :=
    ⟨fun h => h.2 rfl, fun h => ⟨rfl, fun _ => h⟩⟩
  unfold Reduced
  rw [marks, List.forall_mem_append, Node.marks, List.forall_mem_singleton, hcomment]

theorem reduced_element {tag : Tag} {children : List Node} :
    Reduced options sheltered (.element tag children span :: nodes) ↔
      tag.minify options = tag ∧ Reduced options (sheltered || keepsBlanks tag.name) children ∧
        Reduced options sheltered nodes := by
  have henter : (Mark.enter tag span).IsReduced options ↔ tag.minify options = tag := by
    simp [Mark.IsReduced, Mark.minify, Mark.isComment]
  have hleave : Mark.leave.IsReduced options :=
    ⟨rfl, fun hcomment => absurd hcomment Bool.false_ne_true⟩
  unfold Reduced
  rw [marks_element, List.forall_mem_cons, List.forall_mem_append, List.forall_mem_cons, henter,
    and_iff_right hleave]

/-- Joining texts leaves the comments and tags, and so what is reduced. -/
theorem reduced_joinNode {node : Node} :
    Reduced options sheltered (joinNode node nodes) ↔
      Reduced options sheltered (node :: nodes) := by
  unfold joinNode
  split
  next => rw [reduced_text, reduced_text, reduced_text]
  next => rfl

end Reduced

/-- Joining texts leaves what can be reduced as it is. -/
theorem reduced_joinTexts {options : Reductions} (sheltered : Bool) (nodes : List Node) :
    Reduced options sheltered (joinTexts nodes) ↔ Reduced options sheltered nodes := by
  induction nodes using Node.listInduction generalizing sheltered with
  | nil => exact Iff.rfl
  | text value span nodes ih =>
    have hjoin : joinTexts (.text value span :: nodes) =
      joinNode (.text value span) (joinTexts nodes) := rfl
    rw [hjoin, reduced_joinNode, reduced_text, reduced_text, ih]
  | comment value span nodes ih =>
    have hjoin : joinTexts (.comment value span :: nodes) =
      joinNode (.comment value span) (joinTexts nodes) := rfl
    rw [hjoin, reduced_joinNode, reduced_comment, reduced_comment, ih]
  | element tag children span nodes ihchildren ih =>
    rw [joinTexts, reduced_joinNode, Node.joinInside, reduced_element, reduced_element, ihchildren,
      ih]

/-- What is reduced is so wherever it stands. -/
theorem reduced_stripAll {options : Reductions} (sheltered : Bool) (nodes : List Node) :
    Reduced options sheltered (stripAll nodes) ↔ Reduced options sheltered nodes := by
  induction nodes using Node.listInduction generalizing sheltered with
  | nil => exact Iff.rfl
  | text value span nodes ih => rw [stripAll, Node.strip, reduced_text, reduced_text, ih]
  | comment value span nodes ih => rw [stripAll, Node.strip, reduced_comment, reduced_comment, ih]
  | element tag children span nodes ihchildren ih =>
    have hname : tag.strip.name = tag.name := rfl
    rw [stripAll, Node.strip, reduced_element, reduced_element, Tag.minify_strip_eq_self_iff, hname,
      ihchildren, ih]

namespace Reduced

/-- **Where nothing is left to reduce, the comments that are to be removed are gone.** -/
theorem dropComments_eq {options : Reductions} {sheltered : Bool} {nodes : List Node}
    (h : Reduced options sheltered nodes) (hon : options.removeComments = true) :
    dropComments nodes = nodes := by
  match nodes with
  | [] => rfl
  | .text value span :: nodes =>
    have hnodes := dropComments_eq (reduced_text.1 h) hon
    exact congrArg (_ :: ·) hnodes
  | .comment value span :: nodes =>
    have hoff := (reduced_comment.1 h).1
    rw [hon] at hoff
    contradiction
  | .element tag children span :: nodes =>
    obtain ⟨-, hinside, hrest⟩ := reduced_element.1 h
    have hchildren := dropComments_eq hinside hon
    have hnodes := dropComments_eq hrest hon
    rw [dropComments_element, hchildren, hnodes]

/-- **Where nothing is left to reduce, attributes stay as they are.** -/
theorem minifyAttributes_eq {options : Reductions} {sheltered : Bool} {nodes : List Node}
    (h : Reduced options sheltered nodes) : minifyAttributes options nodes = nodes := by
  match nodes with
  | [] => rfl
  | .text value span :: nodes =>
    have hnodes := minifyAttributes_eq (reduced_text.1 h)
    exact congrArg (_ :: ·) hnodes
  | .comment value span :: nodes =>
    have hnodes := minifyAttributes_eq (reduced_comment.1 h).2
    exact congrArg (_ :: ·) hnodes
  | .element tag children span :: nodes =>
    obtain ⟨htag, hinside, hrest⟩ := reduced_element.1 h
    have hchildren := minifyAttributes_eq hinside
    have hnodes := minifyAttributes_eq hrest
    rw [minifyAttributes_element, htag, hchildren, hnodes]

/-- Reduced markup has no comments to drop. -/
theorem uncommented_eq {options : Reductions} {sheltered : Bool} {nodes : List Node}
    (h : Reduced options sheltered nodes) : uncommented options nodes = nodes := by
  unfold uncommented
  split
  next hon => exact h.dropComments_eq hon
  next => rfl

end Reduced

/-! ### The second run -/

/-- **Where texts are apart, what the smaller tree is read as is settled.** -/
theorem TextsApart.settled_of_stripAll {options : Reductions} {nodes read : List Node}
    (h : TextsApart (uncommented options nodes)) (hwritten : Written nodes)
    (hcollapse : options.collapseWhitespace = true)
    (hstrip : stripAll read = stripAll (joinTexts (reduceNodes options nodes))) : Settled read := by
  have hkept := hwritten.uncommented options
  have hreduce : reduceNodes options nodes =
      minifyAttributes options (Markup.collapseBlanks (uncommented options nodes)) := by
    rw [reduceNodes_eq, if_pos hcollapse]
  have hapart : TextsApart (reduceNodes options nodes) := by
    rw [hreduce]
    exact textsApart_minifyAttributes.2 (h.collapseBlanks hkept)
  have hsettled : Settled (reduceNodes options nodes) := by
    rw [hreduce]
    exact settled_minifyAttributes.2 (h.settled_collapseBlanks hkept)
  -- The smaller tree has no texts to join either, so what is read differs from it in places only.
  rw [hapart.joinTexts_eq] at hstrip
  rw [← settled_stripAll, ← hstrip] at hsettled
  exact settled_stripAll.1 hsettled

/-- The text is the markup of a tree in which only blanks are left to reduce, and is read as that
tree. -/
structure ReadsReduced (options : Reductions) (text : String) (read : List Node) : Prop where
  parse_eq : parse text = .ok read
  render_eq : renderNodes read = text
  reduced : Reduced options false read

/-- **Smaller markup is of this kind**, as long as it is read as the smaller tree. If no two texts
are next to each other in the tree without its comments, its blanks are settled. -/
theorem Printable.readsReduced {nodes : List Node} (h : Printable nodes) {options : Reductions}
    (hslash : NoneEndsInSlash nodes)
    (hstay : Markup.textsStay .plain (uncommented options nodes) = true) :
    ∃ read, ReadsReduced options (renderNodes (reduceNodes options nodes)) read ∧
      (TextsApart (uncommented options nodes) → options.collapseWhitespace = true →
        Settled read) := by
  have hwritten := h.written
  have hreduced := hwritten.reduceNodes options
  have hreads := hreduced.parse_renderNodes_iff.2
    ⟨(hwritten.noneEndsInSlash_reduceNodes options).2 hslash,
      (hwritten.textsStay_reduceNodes options).trans hstay⟩
  -- What is read is the smaller tree, but for places and for texts that have become neighbours.
  obtain ⟨read, hparse, hstrip⟩ := hreads
  refine ⟨read, ⟨hparse, ?_, ?_⟩, fun hapart hcollapse => ?_⟩
  · calc renderNodes read
        = renderNodes (stripAll read) := (renderNodes_stripAll read).symm
      _ = renderNodes (stripAll (joinTexts (reduceNodes options nodes))) := by rw [hstrip]
      _ = renderNodes (reduceNodes options nodes) := by
        rw [renderNodes_stripAll, renderNodes_joinTexts]
  · have hjoined := (reduced_joinTexts false _).2 (reduced_reduceNodes options nodes)
    rw [← reduced_stripAll, ← hstrip] at hjoined
    exact (reduced_stripAll false read).1 hjoined
  · exact hapart.settled_of_stripAll hwritten hcollapse hstrip

namespace ReadsReduced

variable {options : Reductions} {text : String} {read : List Node}
    (h : ReadsReduced options text read)
include h

/-- What the first run wrote is read as markup that can be printed. -/
theorem printable : Printable read := by
  obtain ⟨stop, hreads⟩ := parse_eq_ok_iff.1 h.parse_eq
  exact hreads.printable

theorem noneEndsInSlash_and_textsStay : NoneEndsInSlash read ∧ textsStay .plain read = true := by
  refine h.printable.written.parse_renderNodes_iff.1 ⟨read, ?_, ?_⟩
  · rw [h.render_eq, h.parse_eq]
  · rw [h.printable.textsApart.joinTexts_eq]

/-- The second run reads it and writes the reduced nodes. -/
theorem minify_eq (hoptions : options.changesNothing = false) :
    minify options text = .ok (renderNodes (reduceNodes options read)) := by
  rw [minify, hoptions, h.parse_eq]
  rfl

/-- **Markup in which only blanks are left to reduce stays as it is exactly if these are settled**,
or are not to be collapsed. -/
theorem render_reduceNodes_iff :
    renderNodes (reduceNodes options read) = text ↔
      (options.collapseWhitespace = true → Settled read) := by
  have hwritten := h.printable.written
  have hapart := h.printable.textsApart
  obtain ⟨hslash, hstay⟩ := h.noneEndsInSlash_and_textsStay
  have hreduce := reduceNodes_eq options read
  rw [h.reduced.uncommented_eq] at hreduce
  cases hcollapse : options.collapseWhitespace with
  | false =>
    rw [hcollapse, if_neg Bool.false_ne_true, h.reduced.minifyAttributes_eq] at hreduce
    rw [hreduce]
    exact iff_of_true h.render_eq fun hon => absurd hon Bool.false_ne_true
  | true =>
    rw [hcollapse, if_pos rfl] at hreduce
    constructor
    · intro hsame _
      -- Both trees are read from the text, so they are the same; and the second one is settled.
      have hagain : NoneEndsInSlash (reduceNodes options read) ∧
          textsStay .plain (reduceNodes options read) = true := by
        rw [hwritten.noneEndsInSlash_reduceNodes, hwritten.textsStay_reduceNodes,
          h.reduced.uncommented_eq]
        exact ⟨hslash, hstay⟩
      obtain ⟨read', hparse, hstrip⟩ :=
        (hwritten.reduceNodes options).parse_renderNodes_iff.2 hagain
      rw [hsame, h.parse_eq] at hparse
      obtain rfl := Except.ok.inj hparse
      rw [← h.reduced.uncommented_eq] at hapart
      exact hapart.settled_of_stripAll hwritten hcollapse hstrip
    · intro hsettled
      rw [hreduce, (hsettled rfl).collapseBlanks_eq hwritten, h.reduced.minifyAttributes_eq,
        h.render_eq]

/-- From the second run on nothing changes. -/
theorem exists_stable (hoptions : options.changesNothing = false) :
    ∃ text', minify options text = .ok text' ∧ minify options text' = .ok text' ∧
      (text' = text ↔ (options.collapseWhitespace = true → Settled read)) := by
  obtain ⟨hslash, hstay⟩ := h.noneEndsInSlash_and_textsStay
  rw [← h.reduced.uncommented_eq] at hstay
  -- The tree that is read has no comment to remove and no two texts next to each other, so this run
  -- settles its blanks.
  obtain ⟨read', hreads, hsettles⟩ := h.printable.readsReduced hslash hstay
  refine ⟨_, h.minify_eq hoptions, ?_, h.render_reduceNodes_iff⟩
  have hsettled : options.collapseWhitespace = true → Settled read' := by
    refine hsettles ?_
    rw [h.reduced.uncommented_eq]
    exact h.printable.textsApart
  rw [hreads.minify_eq hoptions, hreads.render_reduceNodes_iff.2 hsettled]

end ReadsReduced

/-- **Making markup smaller twice.** If nothing is to be reduced, a second run changes nothing.
Otherwise let no tag of the markup end in a slash, and let the texts that come together where
comments are removed stay text, so that the smaller markup is read as the smaller tree. Then a
second run changes nothing exactly if the blanks of that tree are settled, or are not to be
collapsed; they are settled if comments are kept, and also if no two texts come together where
comments are removed. From the second run on nothing changes in any case. -/
theorem second_minify_iff {options : Reductions} {source out : String}
    (hminify : minify options source = .ok out) :
    (options.changesNothing = true → minify options out = .ok out) ∧
    ∀ nodes, parse source = .ok nodes → NoneEndsInSlash nodes →
      (options.removeComments = true → textsStay .plain (dropComments nodes) = true) →
      ∃ read out', parse out = .ok read ∧ minify options out = .ok out' ∧
        minify options out' = .ok out' ∧
        (out' = out ↔ (options.collapseWhitespace = true → Settled read)) ∧
        (options.removeComments = false ∨ TextsApart (dropComments nodes) → out' = out) := by
  have hnothing (h : options.changesNothing = true) (text : String) :
      minify options text = .ok text := by
    rw [minify, h]
    rfl
  refine ⟨fun h => hnothing h out, fun nodes hparse hslash hstay => ?_⟩
  obtain ⟨stop, hreads⟩ := parse_eq_ok_iff.1 hparse
  cases hoptions : options.changesNothing with
  | true =>
    have hcollapse : options.collapseWhitespace = false := by
      rw [beq_iff_eq.1 hoptions]
    obtain rfl : source = out := by
      rw [hnothing hoptions] at hminify
      exact Except.ok.inj hminify
    refine ⟨nodes, source, hparse, hminify, hminify, ?_, fun _ => rfl⟩
    exact iff_of_true rfl fun hon => absurd hon (by rw [hcollapse]; exact Bool.false_ne_true)
  | false =>
    have hout : renderNodes (reduceNodes options nodes) = out := by
      rw [minify, hoptions, hparse] at hminify
      exact Except.ok.inj hminify
    -- Without comments being removed no texts come together, and each text of a tree that was read
    -- stays text.
    have huncommented : textsStay .plain (uncommented options nodes) = true := by
      unfold uncommented
      split
      next hon => exact hstay hon
      next => exact hreads.printable.textsStay
    obtain ⟨read, hreduced, hsettles⟩ := hreads.printable.readsReduced hslash huncommented
    rw [hout] at hreduced
    obtain ⟨out', hsecond, hthird, hsame⟩ := hreduced.exists_stable hoptions
    refine ⟨read, out', hreduced.parse_eq, hsecond, hthird, hsame, fun hapart =>
      hsame.2 (hsettles ?_)⟩
    unfold uncommented
    split
    next hon =>
      rw [hon] at hapart
      exact hapart.resolve_left Bool.noConfusion
    next => exact hreads.printable.textsApart

/-- Where a comment between two blanks is dropped both blanks are written, and the second run is the
last that changes anything. -/
theorem second_minify_iff_standard :
    minify .standard "a <!-- x --> b" = .ok "a  b" ∧
      ∃ read out', parse "a  b" = .ok read ∧ minify .standard "a  b" = .ok out' ∧
      minify .standard out' = .ok out' ∧
        (out' = "a  b" ↔ Settled read) := by
  have hparse : parse "a <!-- x --> b" =
      .ok [.text "a " ⟨0, 2⟩, .comment " x " ⟨2, 12⟩, .text " b" ⟨12, 14⟩] := by
    with_unfolding_all rfl
  have hminify : minify .standard "a <!-- x --> b" = .ok "a  b" := by
    rw [minify, hparse]
    rfl
  have hstay : textsStay .plain
      (dropComments [.text "a " ⟨0, 2⟩, .comment " x " ⟨2, 12⟩, .text " b" ⟨12, 14⟩]) = true := rfl
  obtain ⟨read, out', hread, hsecond, hthird, hsame, -⟩ :=
    (second_minify_iff hminify).2 _ hparse noneEndsInSlash_nil fun _ => hstay
  exact ⟨hminify, read, out', hread, hsecond, hthird, hsame.trans ⟨fun h => h rfl, fun h _ => h⟩⟩

/-- The blanks on both sides of a comment come together when it is removed, and only the second run
makes one of them; so making markup smaller is not idempotent. -/
theorem minify_twice_joins_blanks :
    ¬ ∀ options source out, minify options source = .ok out → minify options out = .ok out := by
  have hparse : parse "a <!-- x --> b" =
      .ok [.text "a " ⟨0, 2⟩, .comment " x " ⟨2, 12⟩, .text " b" ⟨12, 14⟩] := by
    with_unfolding_all rfl
  have hfirst : minify { collapseWhitespace := true, removeComments := true } "a <!-- x --> b" =
      .ok "a  b" := by
    rw [minify, hparse]
    rfl
  have hagain : parse "a  b" = .ok [.text "a  b" ⟨0, 4⟩] := by with_unfolding_all rfl
  have hsecond : minify { collapseWhitespace := true, removeComments := true } "a  b" =
      .ok "a b" := by
    rw [minify, hagain]
    rfl
  intro hidem
  have hsame := hidem _ _ _ hfirst
  rw [hsecond] at hsame
  exact absurd hsame (by decide)

end Triptych.Markup
