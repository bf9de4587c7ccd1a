import Mathlib.Data.List.Forall2
import Triptych.Proofs.Markup.Minify

/-!
# What smaller markup keeps

A tree is read off in the order of the document as a list of *marks*: an element is entered and
left, a comment is met, and a text gives its visible characters one by one. Below an element that
keeps its blanks a text is one mark as a whole. The marks of a tree tell its elements and how they
are nested, and where the texts and comments stand among them.

Making a tree smaller keeps its marks (`reduceNodes_keeps_marks`): those of comments are gone if
comments are removed, those of elements may have other attributes, and nothing else changes. Each
reduction does one thing to the marks: dropping comments filters them (`marks_dropComments`),
collapsing blanks does nothing (`marks_collapseBlanks`), and reducing attributes maps them one by
one (`marks_minifyAttributes`).
-/

namespace Triptych.Markup

open Text

/-! ### Marks -/

/-- What is met on the way through a tree. -/
inductive Mark where
  | enter (tag : Tag) (span : Span)
  | leave
  /-- A visible character of a text whose blanks may be collapsed. -/
  | letter (char : Char)
  /-- A text below an element that keeps its blanks. -/
  | kept (value : String) (span : Span)
  | comment (value : String) (span : Span)
deriving DecidableEq, Repr

/-- The characters of a text that are no blanks. -/
def visible (text : List Char) : List Char :=
  text.filter (!isBlank ·)

/-- The elements that keep their blanks are these four, in letters of either case. -/
theorem keepsBlanks_iff {name : String} :
    keepsBlanks name = true ↔
      ∃ known ∈ ["pre", "textarea", "script", "style"], lower name.toList = known.toList := by
  have hsmall : ∀ known ∈ ["pre", "textarea", "script", "style"],
      lower known.toList = known.toList := by decide
  rw [keepsBlanks, isNamedIn, List.any_eq_true]
  refine exists_congr fun known => and_congr_right fun hknown => ?_
  rw [equalsIgnoringCase, beq_iff_eq, hsmall known hknown, eq_comm]

mutual

/-- The marks of a node; `sheltered` tells whether it stands below an element that keeps its
blanks. -/
def Node.marks (sheltered : Bool) : Node → List Mark
  | .element tag children span =>
    .enter tag span :: (marks (sheltered || keepsBlanks tag.name) children ++ [.leave])
  | .text value span => if sheltered then [.kept value span] else (visible value.toList).map .letter
  | .comment value span => [.comment value span]

/-- The marks of nodes. -/
def marks (sheltered : Bool) : List Node → List Mark
  | [] => []
  | node :: nodes => node.marks sheltered ++ marks sheltered nodes

end

mutual

/-- The visible characters of the texts in a node. -/
def Node.visibleText : Node → List Char
  | .element _ children _ => visibleText children
  | .text value _ => visible value.toList
  | .comment _ _ => []

/-- The visible characters of all texts, in the order of the document. -/
def visibleText : List Node → List Char
  | [] => []
  | node :: nodes => node.visibleText ++ visibleText nodes

end

namespace Mark

/-- True of a comment. -/
def isComment : Mark → Bool
  | .comment _ _ => true
  | _ => false

/-- True of a text below an element that keeps its blanks. -/
def isKept : Mark → Bool
  | .kept _ _ => true
  | _ => false

/-- The visible characters of a mark. -/
def visibleChars : Mark → List Char
  | .letter c => [c]
  | .kept value _ => visible value.toList
  | _ => []

end Mark

/-- What may become of an attribute: its name and its span stay, and its value stays too, or is
dropped if it says nothing that the name of a boolean attribute does not say. -/
structure Attribute.Keeps (options : Reductions) (attr attr' : Attribute) : Prop where
  name : attr'.name = attr.name
  span : attr'.span = attr.span
  value : attr'.value = attr.value ∨
    attr'.value = none ∧ options.collapseBooleanAttributes = true ∧ isBooleanName attr.name = true ∧
      ∃ value, attr.value = some value ∧
      (value = "" ∨ equalsIgnoringCase value.toList attr.name.toList = true)

/-- What may become of a tag. -/
structure Tag.Keeps (options : Reductions) (tag tag' : Tag) : Prop where
  name : tag'.name = tag.name
  selfClosing : tag'.selfClosing = tag.selfClosing
  attributes : List.Forall₂ (Attribute.Keeps options) tag.attributes tag'.attributes

/-- What may become of a mark: only attributes change. -/
def Mark.Keeps (options : Reductions) : Mark → Mark → Prop
  | .enter tag span, .enter tag' span' => tag.Keeps options tag' ∧ span' = span
  | mark, mark' => mark' = mark

section Marks

variable (sheltered : Bool) (nodes : List Node)

theorem marks_element (tag : Tag) (children : List Node) (span : Span) :
    marks sheltered (.element tag children span :: nodes) =
      .enter tag span :: (marks (sheltered || keepsBlanks tag.name) children ++
        .leave :: marks sheltered nodes) := by
  rw [marks, Node.marks, List.cons_append, List.append_assoc]
  rfl

theorem marks_text (value : String) (span : Span) :
    marks false (.text value span :: nodes) =
      (visible value.toList).map .letter ++ marks false nodes := rfl

theorem marks_kept (value : String) (span : Span) :
    marks true (.text value span :: nodes) = .kept value span :: marks true nodes := rfl

end Marks

/-- The visible characters of the texts can be told from the marks. -/
theorem visibleText_eq (sheltered : Bool) (nodes : List Node) :
    visibleText nodes = (marks sheltered nodes).flatMap Mark.visibleChars := by
  match nodes with
  | [] => rfl
  | .element tag children span :: nodes =>
    have hchildren := visibleText_eq (sheltered || keepsBlanks tag.name) children
    have hnodes := visibleText_eq sheltered nodes
    rw [marks_element, List.flatMap_cons, List.flatMap_append, ← hchildren, List.flatMap_cons,
      ← hnodes]
    rfl
  | .comment value span :: nodes => exact visibleText_eq sheltered nodes
  | .text value span :: nodes =>
    have hnodes := visibleText_eq sheltered nodes
    rw [visibleText, Node.visibleText, hnodes]
    -- A sheltered text is one mark, any other one is a mark for each visible character.
    cases sheltered with
    | true => rfl
    | false =>
      rw [marks_text, List.flatMap_append, List.flatMap_map]
      exact congrArg (· ++ _) (List.flatMap_singleton' _).symm

/-! ### Comments -/

/-- Letters are no comments. -/
theorem filter_letters (chars : List Char) :
    (chars.map Mark.letter).filter (fun mark => !mark.isComment) = chars.map Mark.letter := by
  rw [List.filter_eq_self]
  intro mark hmark
  obtain ⟨c, -, rfl⟩ := List.mem_map.1 hmark
  rfl

/-- **Dropping comments drops the marks of comments.** -/
theorem marks_dropComments (sheltered : Bool) (nodes : List Node) :
    marks sheltered (dropComments nodes) = (marks sheltered nodes).filter fun mark =>
      !mark.isComment := by
  match nodes with
  | [] => rfl
  | .comment value span :: nodes => exact marks_dropComments sheltered nodes
  | .element tag children span :: nodes =>
    have hchildren := marks_dropComments (sheltered || keepsBlanks tag.name) children
    have hnodes := marks_dropComments sheltered nodes
    rw [dropComments_element, marks_element, marks_element, hchildren, hnodes,
      List.filter_cons_of_pos rfl, List.filter_append, List.filter_cons_of_pos rfl]
  | .text value span :: nodes =>
    have hnodes := marks_dropComments sheltered nodes
    have hdrop : dropComments (.text value span :: nodes) =
      .text value span :: dropComments nodes := rfl
    cases sheltered with
    | true => rw [hdrop, marks_kept, marks_kept, hnodes, List.filter_cons_of_pos rfl]
    | false => rw [hdrop, marks_text, marks_text, hnodes, List.filter_append, filter_letters]

/-! ### Blanks -/

/-- Squeezing drops nothing that is visible. -/
theorem visible_squeezeBlanks (inRun : Bool) (text : List Char) :
    visible (squeezeBlanks inRun text) = visible text := by
  unfold visible
  induction text generalizing inRun with
  | nil => rfl
  | cons c text ih =>
    unfold squeezeBlanks
    split
    next hc =>
      rw [List.filter_cons_of_neg (by simp [hc])]
      split
      next => exact ih true
      next => exact ih true
    next hc =>
      rw [List.filter_cons_of_pos (by simp [hc]), List.filter_cons_of_pos (by simp [hc]), ih]

/-- Blanks are not visible. -/
theorem visible_blanks {text : List Char} (h : ∀ c ∈ text, isBlank c = true) :
    visible text = [] := by
  unfold visible
  rw [List.filter_eq_nil_iff]
  intro c hc
  simp [h c hc]

theorem visible_append (text more : List Char) :
    visible (text ++ more) = visible text ++ visible more :=
  List.filter_append ..

/-- Nor does trimming drop anything that is. -/
theorem visible_trimStart (text : List Char) : visible (trimStart text) = visible text := by
  have hsplit := visible_append (text.takeWhile isBlank) (text.dropWhile isBlank)
  rw [List.takeWhile_append_dropWhile, visible_blanks fun _ hc => of_mem_takeWhile hc] at hsplit
  exact hsplit.symm

theorem visible_trimEnd (text : List Char) : visible (trimEnd text) = visible text := by
  obtain ⟨blanks, hblanks, hsplit⟩ := exists_trimEnd_append text
  have hvisible := visible_append (trimEnd text) blanks
  rw [← hsplit, visible_blanks hblanks, List.append_nil] at hvisible
  exact hvisible.symm

/-- A change of a text that keeps its visible characters keeps the marks. -/
theorem Node.marks_mapText {f : List Char → List Char}
    (hf : ∀ text, visible (f text) = visible text) (node : Node) :
    (node.mapText f).marks false = node.marks false := by
  cases node with
  | text value span =>
    show (visible (String.ofList (f value.toList)).toList).map Mark.letter =
      (visible value.toList).map Mark.letter
    rw [String.toList_ofList, hf]
  | element | comment => rfl

/-- **No step of minification at a level changes its marks**, where blanks are not kept. -/
theorem marks_dropLooseBlanks (before : Option Node) (nodes : List Node) :
    marks false (dropLooseBlanks before nodes) = marks false nodes := by
  induction nodes generalizing before with
  | nil => rfl
  | cons node nodes ih =>
    simp only [dropLooseBlanks]
    split
    next hdrop =>
      rw [Bool.and_eq_true] at hdrop
      cases node with
      | element | comment => exact absurd hdrop.1 (by simp [Node.isBlankText])
      | text value span =>
        -- The dropped text has no visible character, and so no marks.
        have hblanks : ∀ c ∈ value.toList, isBlank c = true := List.all_eq_true.1 hdrop.1
        rw [ih, marks_text, visible_blanks hblanks]
        rfl
    next => rw [marks, marks, ih]

theorem marks_trimFirst (nodes : List Node) :
    marks false (trimFirst nodes) = marks false nodes := by
  cases nodes with
  | nil => rfl
  | cons node nodes => rw [trimFirst, marks, marks, node.marks_mapText visible_trimStart]

theorem marks_trimLast (nodes : List Node) : marks false (trimLast nodes) = marks false nodes := by
  fun_induction trimLast nodes with
  | case1 => rfl
  | case2 node =>
    rw [marks, node.marks_mapText visible_trimEnd]
    rfl
  | case3 node next nodes ih => rw [marks, marks, ih]

theorem marks_filter (nodes : List Node) :
    marks false (nodes.filter fun node => !node.isEmptyText) = marks false nodes := by
  induction nodes with
  | nil => rfl
  | cons node nodes ih =>
    rw [List.filter_cons]
    split
    next => rw [marks, marks, ih]
    next hempty =>
      obtain ⟨span, rfl⟩ := Node.isEmptyText_iff.1 (by simpa using hempty)
      exact ih

theorem marks_collapseText (nodes : List Node) :
    marks false (nodes.map Node.collapseText) = marks false nodes := by
  have hnode : Node.collapseText = Node.mapText (squeezeBlanks false) := by
    funext node
    cases node <;> rfl
  induction nodes with
  | nil => rfl
  | cons node nodes ih =>
    rw [List.map_cons, marks, marks, ih, hnode, node.marks_mapText (visible_squeezeBlanks false)]

/-- Collapsing the blanks of a level keeps its marks. -/
theorem marks_settle (inline : Bool) (nodes : List Node) :
    marks false (settle inline nodes) = marks false nodes := by
  have hloose : marks false (dropLooseBlanks none (nodes.map Node.collapseText)) =
      marks false nodes := by
    rw [marks_dropLooseBlanks, marks_collapseText]
  unfold settle
  split
  next => exact hloose
  next => rw [marks_filter, marks_trimLast, marks_trimFirst, hloose]

/-- The levels below keep their marks, too. Where blanks are kept nothing is done at all. -/
theorem marks_collapseEach (nodes : List Node) :
    marks false (collapseEach nodes) = marks false nodes := by
  match nodes with
  | [] => rfl
  | .comment value span :: nodes =>
    exact congrArg (Mark.comment value span :: ·) (marks_collapseEach nodes)
  | .element tag children span :: nodes =>
    have hchildren := marks_collapseEach children
    have hnodes := marks_collapseEach nodes
    rw [collapseEach, Node.collapseInside]
    split
    next => rw [marks_element, marks_element, hnodes]
    next hkeeps =>
      -- Outside of elements that keep their blanks, a level is settled when the levels below it
      -- are.
      rw [Bool.not_eq_true] at hkeeps
      rw [marks_element, marks_element, hnodes, hkeeps, Bool.or_self, marks_settle, hchildren]
  | .text value span :: nodes =>
    have hnodes := marks_collapseEach nodes
    rw [collapseEach, marks, marks, hnodes]
    rfl

/-- **Collapsing blanks keeps the marks.** -/
theorem marks_collapseBlanks (nodes : List Node) :
    marks false (collapseBlanks nodes) = marks false nodes :=
  (marks_settle false _).trans (marks_collapseEach nodes)

/-! ### Attributes -/

/-- The mark with smaller attributes. -/
def Mark.minify (options : Reductions) : Mark → Mark
  | .enter tag span => .enter (tag.minify options) span
  | mark => mark

/-- **Reducing attributes reduces those of each mark.** -/
theorem marks_minifyAttributes (options : Reductions) (sheltered : Bool) (nodes : List Node) :
    marks sheltered (minifyAttributes options nodes) =
      (marks sheltered nodes).map (Mark.minify options) := by
  match nodes with
  | [] => rfl
  | .comment value span :: nodes =>
    exact congrArg (Mark.comment value span :: ·) (marks_minifyAttributes options sheltered nodes)
  | .element tag children span :: nodes =>
    have hchildren := marks_minifyAttributes options (sheltered || keepsBlanks tag.name) children
    have hnodes := marks_minifyAttributes options sheltered nodes
    -- A smaller tag keeps its name, and with it whether its texts are sheltered.
    have hname : (tag.minify options).name = tag.name := rfl
    rw [minifyAttributes_element, marks_element, marks_element, hname, hchildren, hnodes,
      List.map_cons, List.map_append, List.map_cons]
    rfl
  | .text value span :: nodes =>
    have hnodes := marks_minifyAttributes options sheltered nodes
    have htext : minifyAttributes options (.text value span :: nodes) =
        .text value span :: minifyAttributes options nodes := rfl
    cases sheltered with
    | true =>
      rw [htext, marks_kept, marks_kept, hnodes]
      rfl
    | false =>
      rw [htext, marks_text, marks_text, hnodes, List.map_append, List.map_map]
      rfl

/-- A value is dropped where it is empty or repeats the name of a boolean attribute. -/
theorem Attribute.keeps_collapseBoolean {options : Reductions}
    (h : options.collapseBooleanAttributes = true) (attr : Attribute) :
    attr.Keeps options attr.collapseBoolean := by
  unfold Attribute.collapseBoolean
  split
  next value hvalue =>
    split
    next hdrop =>
      rw [Bool.and_eq_true, Bool.or_eq_true, String.isEmpty_iff] at hdrop
      exact ⟨rfl, rfl, .inr ⟨rfl, h, hdrop.1, value, hvalue, hdrop.2⟩⟩
    next => exact ⟨rfl, rfl, .inl rfl⟩
  next => exact ⟨rfl, rfl, .inl rfl⟩

/-- Only the quotes are dropped. -/
theorem Attribute.Keeps.unquote {options : Reductions} {attr attr' : Attribute}
    (h : attr.Keeps options attr') :
    attr.Keeps options attr'.unquote := by
  unfold Attribute.unquote
  split
  next => exact ⟨h.name, h.span, h.value⟩
  next => exact h

/-- A smaller attribute means what it did, for each of the things that may happen to it. -/
theorem Attribute.keeps_minify (options : Reductions) (attr : Attribute) :
    attr.Keeps options (attr.minify options) := by
  have hboolean :
      attr.Keeps options (if options.collapseBooleanAttributes then attr.collapseBoolean
          else attr) := by
    split
    next hcollapse => exact attr.keeps_collapseBoolean hcollapse
    next => exact ⟨rfl, rfl, .inl rfl⟩
  unfold Attribute.minify
  dsimp only
  split
  next => exact hboolean.unquote
  next => exact hboolean

/-- Among the marks only tags become smaller. -/
theorem Mark.keeps_minify (options : Reductions) (mark : Mark) :
    mark.Keeps options (mark.minify options) := by
  cases mark with
  | enter tag span =>
    refine ⟨⟨rfl, rfl, ?_⟩, rfl⟩
    rw [Tag.minify, List.forall₂_map_right_iff, List.forall₂_same]
    exact fun attr _ => attr.keeps_minify options
  | leave | letter | kept | comment => rfl

/-! ### All together -/

/-- The marks that are to be kept. -/
def keptMarks (options : Reductions) (nodes : List Node) : List Mark :=
  if options.removeComments then (marks false nodes).filter fun mark => !mark.isComment
    else marks false nodes

/-- **The marks after minification**: the comments are gone if they are to go, and the tags are
smaller. -/
theorem marks_reduceNodes (options : Reductions) (nodes : List Node) :
    marks false (reduceNodes options nodes) =
      (keptMarks options nodes).map (Mark.minify options) := by
  have hcomments : marks false (uncommented options nodes) = keptMarks options nodes := by
    unfold uncommented keptMarks
    split
    next => exact marks_dropComments false nodes
    next => rfl
  rw [reduceNodes_eq, marks_minifyAttributes, ← hcomments]
  split
  next => rw [marks_collapseBlanks]
  next => rfl

/-- A comment shows nothing on the page. -/
theorem flatMap_visibleChars_uncommented (marks : List Mark) :
    (marks.filter fun mark => !mark.isComment).flatMap Mark.visibleChars =
      marks.flatMap Mark.visibleChars := by
  induction marks with
  | nil => rfl
  | cons mark marks ih =>
    cases mark with
    | comment => exact ih
    | enter | leave | letter | kept =>
      rw [List.filter_cons_of_pos rfl, List.flatMap_cons, List.flatMap_cons, ih]

/-- The marks that have no attributes stay as they are. -/
theorem filter_map_minify (options : Reductions) {p : Mark → Bool}
    (hp : ∀ tag span, p (.enter tag span) = false) (marks : List Mark) :
    (marks.map (Mark.minify options)).filter p = marks.filter p := by
  induction marks with
  | nil => rfl
  | cons mark marks ih =>
    rw [List.map_cons]
    cases mark with
    | enter tag span =>
      rw [Mark.minify, List.filter_cons_of_neg (by simp [hp]), List.filter_cons_of_neg
        (by simp [hp]), ih]
    | leave | letter | kept | comment => simp only [Mark.minify, List.filter_cons, ih]

/-- **Making a tree smaller keeps what it says.** Read in the order of the document, it has the
marks of the tree: every element with its name, its way of closing and its span, entered and left
where it was, every attribute with its name and span, and a value that stays unless it says nothing;
every visible character of a text; every text below an element that keeps its blanks; and every
comment, unless comments are removed. -/
theorem reduceNodes_keeps_marks (options : Reductions) (nodes : List Node) :
    List.Forall₂ (Mark.Keeps options) (keptMarks options nodes)
      (marks false (reduceNodes options nodes)) ∧
    visibleText (reduceNodes options nodes) = visibleText nodes ∧
    (marks false (reduceNodes options nodes)).filter Mark.isKept =
    (marks false nodes).filter Mark.isKept ∧
    (marks false (reduceNodes options nodes)).filter Mark.isComment =
      if options.removeComments then [] else (marks false nodes).filter Mark.isComment := by
  have hmarks := marks_reduceNodes options nodes
  refine ⟨?_, ?_, ?_, ?_⟩
  · -- Mark by mark, only tags become smaller.
    rw [hmarks, List.forall₂_map_right_iff, List.forall₂_same]
    exact fun mark _ => mark.keeps_minify options
  · rw [visibleText_eq false, visibleText_eq false, hmarks, List.flatMap_map]
    -- A smaller tag shows as little as before, and so does a comment that goes.
    have hchars (mark : Mark) : (mark.minify options).visibleChars = mark.visibleChars := by
      cases mark <;> rfl
    simp only [hchars]
    unfold keptMarks
    split
    next => exact flatMap_visibleChars_uncommented _
    next => rfl
  · -- Kept texts are not among the comments that go.
    rw [hmarks, filter_map_minify options fun _ _ => rfl]
    unfold keptMarks
    split
    next =>
      rw [List.filter_filter]
      refine List.filter_congr fun mark _ => ?_
      cases mark <;> rfl
    next => rfl
  · rw [hmarks, filter_map_minify options fun _ _ => rfl]
    unfold keptMarks
    split
    next =>
      rw [List.filter_filter, List.filter_eq_nil_iff]
      intro mark _
      rw [Bool.and_not_self]
      exact Bool.false_ne_true
    next => rfl

end Triptych.Markup
