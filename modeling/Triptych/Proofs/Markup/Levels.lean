import Triptych.Proofs.Markup.Minify

/-!
# The blanks of one level

What collapsing the blanks of a level arrives at, said of the level that it makes. A level is
*settled* (`SettledLevel`) if every blank of its texts is a single space, if a text of blanks only
stands between inline neighbours, and if no blank is left at an edge of the level where the parent
is not inline.

Settled blanks are left alone (`SettledLevel.settle_eq`). Collapsing does not always settle them:
each text is looked at alone, with the neighbours that it had before any was dropped, so two texts
next to each other may both bring a blank. Where no two texts are next to each other (`ApartLevel`)
the neighbours of a text are not dropped, and collapsing does settle its blanks
(`ApartLevel.settledLevel`).
-/

namespace Triptych.Markup

open Text

/-! ### Blanks in a text -/

/-- Every blank of the text is a space, and none stands next to another one. -/
structure Squeezed (text : List Char) : Prop where
  spaces : ∀ c ∈ text, isBlank c = true → c = ' '
  single : ¬ [' ', ' '] <:+: text

theorem squeezed_nil : Squeezed [] := ⟨by simp, by simp⟩

/-- A text is squeezed if its first character is no blank, or a space with no blank behind it, and
the rest is squeezed. -/
theorem squeezed_cons_iff {c : Char} {text : List Char} :
    Squeezed (c :: text) ↔ (isBlank c = true → c = ' ' ∧ Stops isBlank text) ∧ Squeezed text := by
  constructor
  · intro h
    have hspaces := List.forall_mem_cons.1 h.spaces
    refine ⟨fun hc => ⟨hspaces.1 hc, fun d hd => ?_⟩, hspaces.2, fun hpair =>
      h.single (List.infix_cons hpair)⟩
    -- A blank behind a blank would be a second space.
    rw [Bool.eq_false_iff]
    intro hblank
    obtain ⟨rest, rfl⟩ := List.head?_eq_some_iff.1 hd
    obtain rfl := hspaces.1 hc
    obtain rfl := hspaces.2 d List.mem_cons_self hblank
    exact h.single ⟨[], rest, rfl⟩
  · rintro ⟨hc, hspaces, hsingle⟩
    refine ⟨List.forall_mem_cons.2 ⟨fun hblank => (hc hblank).1, hspaces⟩, fun hpair => ?_⟩
    rcases List.infix_cons_iff.1 hpair with hprefix | hpair
    · obtain ⟨rfl, rest, rfl⟩ := List.cons_prefix_cons.1 hprefix
      have hstop := (hc (by decide)).2 ' ' rfl
      exact absurd hstop (by decide)
    · exact hsingle hpair

/-- Any part of a squeezed text is squeezed, so trimming keeps it so. -/
theorem Squeezed.of_infix {text part : List Char} (h : Squeezed text) (hpart : part <:+: text) :
    Squeezed part :=
  ⟨fun c hc => h.spaces c (hpart.subset hc), fun hpair => h.single (hpair.trans hpart)⟩

theorem Squeezed.trimStart {text : List Char} (h : Squeezed text) : Squeezed (trimStart text) :=
  h.of_infix (List.dropWhile_suffix isBlank).isInfix

theorem Squeezed.trimEnd {text : List Char} (h : Squeezed text) : Squeezed (trimEnd text) := by
  obtain ⟨blanks, -, hsplit⟩ := exists_trimEnd_append text
  refine h.of_infix (List.IsPrefix.isInfix ?_)
  exact ⟨blanks, hsplit.symm⟩

/-- **Squeezing makes a squeezed text**, which does not start with a blank if one stands before
it. -/
theorem squeezed_squeezeBlanks (inRun : Bool) (text : List Char) :
    Squeezed (squeezeBlanks inRun text) ∧
      (inRun = true → Stops isBlank (squeezeBlanks inRun text)) := by
  induction text generalizing inRun with
  | nil => exact ⟨squeezed_nil, fun _ => nofun⟩
  | cons c text ih =>
    unfold squeezeBlanks
    split
    next hc =>
      obtain ⟨hsqueezed, hstops⟩ := ih true
      split
      next => exact ⟨hsqueezed, fun _ => hstops rfl⟩
      next hrun =>
        exact ⟨squeezed_cons_iff.2 ⟨fun _ => ⟨rfl, hstops rfl⟩, hsqueezed⟩, fun h => absurd h hrun⟩
    -- A visible character starts afresh.
    next hc =>
      refine ⟨squeezed_cons_iff.2 ⟨fun h => absurd h hc, (ih false).1⟩, fun _ => stops_cons ?_ _⟩
      rwa [Bool.not_eq_true] at hc

/-- A squeezed text is left alone. -/
theorem Squeezed.squeezeBlanks_eq {text : List Char} (h : Squeezed text) {inRun : Bool}
    (hrun : inRun = true → Stops isBlank text) : squeezeBlanks inRun text = text := by
  induction text generalizing inRun with
  | nil => rfl
  | cons c text ih =>
    obtain ⟨hblank, hrest⟩ := squeezed_cons_iff.1 h
    unfold squeezeBlanks
    split
    next hc =>
      obtain ⟨rfl, hstops⟩ := hblank hc
      have hfirst : ¬ inRun = true := fun hrunning => absurd (hrun hrunning ' ' rfl) (by simp [hc])
      rw [if_neg hfirst, ih hrest fun _ => hstops]
    next => rw [ih hrest fun h => absurd h Bool.false_ne_true]

/-! ### Settled levels -/

/-- The characters of a text. -/
def Node.textChars? : Node → Option (List Char)
  | .text value _ => some value.toList
  | .element _ _ _ | .comment _ _ => none

/-- Every text of blanks only stands between two inline nodes; `inline` tells whether one stands
before the nodes. -/
def BlanksBetween (inline : Bool) : List Node → Prop
  | [] => True
  | node :: nodes =>
    (node.isBlankText = true → inline = true ∧ nodes.head?.any Node.isInline = true) ∧
      BlanksBetween node.isInline nodes

/-- **The blanks of a level are settled**, where `inline` tells whether its parent stands in a line
of text. -/
structure SettledLevel (inline : Bool) (nodes : List Node) : Prop where
  squeezed : ∀ node ∈ nodes, ∀ text ∈ node.textChars?, Squeezed text
  between : BlanksBetween false nodes
  first : inline = false → ∀ node ∈ nodes.head?, ∀ text ∈ node.textChars?, Stops isBlank text
  last : inline = false →
    ∀ node ∈ nodes.getLast?, ∀ text ∈ node.textChars?, Stops isBlank text.reverse

/-- A blank text is a text of blanks. -/
theorem Node.isBlankText_eq (node : Node) :
    node.isBlankText = node.textChars?.any Text.isBlankText := by
  cases node <;> rfl

/-- A change that leaves the text of a node leaves the node. -/
theorem Node.mapText_eq_self {f : List Char → List Char} {node : Node}
    (h : ∀ text ∈ node.textChars?, f text = text) :
    node.mapText f = node := by
  cases node with
  | text value span => rw [Node.mapText, h _ rfl, String.ofList_toList]
  | element | comment => rfl

theorem Node.collapseText_eq_mapText : Node.collapseText = Node.mapText (squeezeBlanks false) := by
  funext node
  cases node <;> rfl

/-- **A level without loose blanks loses none.** -/
theorem dropLooseBlanks_of_between {before : Option Node} {nodes : List Node}
    (h : BlanksBetween (before.any Node.isInline) nodes) :
    dropLooseBlanks before nodes = nodes := by
  induction nodes generalizing before with
  | nil => rfl
  | cons node nodes ih =>
    obtain ⟨hnode, hnodes⟩ := h
    have hkept :
        (node.isBlankText && !(before.any Node.isInline && nodes.head?.any Node.isInline)) =
        false := by
      rw [Bool.and_eq_false_imp]
      intro hblank
      rw [(hnode hblank).1, (hnode hblank).2]
      rfl
    simp only [dropLooseBlanks, hkept]
    exact congrArg (node :: ·) (ih hnodes)

/-- Where the first text does not start with a blank, there is nothing to trim. -/
theorem trimFirst_eq_self {nodes : List Node}
    (h : ∀ node ∈ nodes.head?, ∀ text ∈ node.textChars?, Stops isBlank text) :
    trimFirst nodes = nodes := by
  cases nodes with
  | nil => rfl
  | cons node nodes =>
    refine congrArg (· :: nodes) (Node.mapText_eq_self fun text htext => ?_)
    exact dropWhile_eq_self_of_stops (h node rfl text htext)

/-- Where the last text does not end in a blank, there is nothing to trim. -/
theorem trimLast_eq_self {nodes : List Node}
    (h : ∀ node ∈ nodes.getLast?, ∀ text ∈ node.textChars?, Stops isBlank text.reverse) :
    trimLast nodes = nodes := by
  fun_induction trimLast nodes with
  | case1 => rfl
  | case2 node =>
    refine congrArg (· :: []) (Node.mapText_eq_self fun text htext => ?_)
    rw [trimEnd, dropEndWhile, dropWhile_eq_self_of_stops (h node rfl text htext),
      List.reverse_reverse]
  | case3 node next nodes ih =>
    rw [ih]
    rwa [List.getLast?_cons_cons] at h

theorem settle_true (nodes : List Node) :
    settle true nodes = dropLooseBlanks none (nodes.map Node.collapseText) := rfl

theorem settle_false (nodes : List Node) :
    settle false nodes =
      (trimLast (trimFirst (dropLooseBlanks none (nodes.map Node.collapseText)))).filter
        fun node => !node.isEmptyText := rfl

/-- **Settled blanks of a level are left alone.** -/
theorem SettledLevel.settle_eq {inline : Bool} {nodes : List Node} (h : SettledLevel inline nodes)
    (hne : ∀ node ∈ nodes, node.isEmptyText = false) : settle inline nodes = nodes := by
  -- Collapsing finds no runs, and nothing is loose between the nodes.
  have hcollapse : nodes.map Node.collapseText = nodes := by
    calc nodes.map Node.collapseText
        = nodes.map id := by
          refine List.map_congr_left fun node hnode => ?_
          rw [Node.collapseText_eq_mapText]
          refine Node.mapText_eq_self fun text htext => ?_
          exact (h.squeezed node hnode text htext).squeezeBlanks_eq fun hrun =>
            absurd hrun Bool.false_ne_true
      _ = nodes := List.map_id nodes
  have hloose : dropLooseBlanks none nodes = nodes := dropLooseBlanks_of_between h.between
  cases inline with
  | true => rw [settle_true, hcollapse, hloose]
  -- In a block the edges are trimmed, too, and texts that get empty go.
  | false =>
    rw [settle_false, hcollapse, hloose, trimFirst_eq_self (h.first rfl),
      trimLast_eq_self (h.last rfl)]
    refine List.filter_eq_self.2 fun node hnode => ?_
    rw [hne node hnode]
    rfl

/-! ### Trimming and what it leaves alone -/

@[simp] theorem Node.textChars?_mapText (f : List Char → List Char) (node : Node) :
    (node.mapText f).textChars? = node.textChars?.map f := by
  cases node with
  | text value span => exact congrArg some String.toList_ofList
  | element | comment => rfl

theorem Node.mem_textChars?_mapText {f : List Char → List Char} {node : Node} {text : List Char} :
    text ∈ (node.mapText f).textChars? ↔ ∃ value ∈ node.textChars?, f value = text := by
  rw [Node.textChars?_mapText]
  exact Option.map_eq_some_iff

@[simp] theorem Node.isInline_mapText (f : List Char → List Char) (node : Node) :
    (node.mapText f).isInline = node.isInline := by
  cases node <;> rfl

@[simp] theorem Node.isText_mapText (f : List Char → List Char) (node : Node) :
    (node.mapText f).isText = node.isText := by
  cases node <;> rfl

/-- Squeezing and trimming do not make a text blank that is not, nor the other way round. -/
theorem Node.isBlankText_mapText {f : List Char → List Char}
    (hf : ∀ text, Text.isBlankText (f text) = Text.isBlankText text) (node : Node) :
    (node.mapText f).isBlankText = node.isBlankText := by
  rw [Node.isBlankText_eq, Node.isBlankText_eq, Node.textChars?_mapText]
  cases node.textChars? with
  | none => rfl
  | some text => exact hf text

theorem isBlankText_trimStart (text : List Char) :
    Text.isBlankText (trimStart text) = Text.isBlankText text := by
  have hblanks : (text.takeWhile isBlank).all isBlank = true := List.all_takeWhile
  calc Text.isBlankText (trimStart text)
      = ((text.takeWhile isBlank).all isBlank && (text.dropWhile isBlank).all isBlank) := by
        rw [hblanks, Bool.true_and]
        rfl
    _ = Text.isBlankText text := by
        rw [← List.all_append, List.takeWhile_append_dropWhile]
        rfl

theorem isBlankText_trimEnd (text : List Char) :
    Text.isBlankText (trimEnd text) = Text.isBlankText text := by
  obtain ⟨blanks, hblanks, hsplit⟩ := exists_trimEnd_append text
  have hall : text.all isBlank = ((trimEnd text).all isBlank && blanks.all isBlank) := by
    rw [← List.all_append, ← hsplit]
  rw [List.all_eq_true.2 hblanks, Bool.and_true] at hall
  exact hall.symm

/-- Trimming the first text makes no difference to where texts of blanks only stand. -/
theorem blanksBetween_trimFirst {inline : Bool} {nodes : List Node} :
    BlanksBetween inline (trimFirst nodes) ↔ BlanksBetween inline nodes := by
  cases nodes with
  | nil => exact Iff.rfl
  | cons node nodes =>
    rw [trimFirst, BlanksBetween, BlanksBetween, node.isBlankText_mapText isBlankText_trimStart,
      Node.isInline_mapText]

/-- Trimming the last text leaves the first node an inline one or not, as it was. -/
theorem any_isInline_trimLast (nodes : List Node) :
    (trimLast nodes).head?.any Node.isInline = nodes.head?.any Node.isInline := by
  match nodes with
  | [] => rfl
  | [node] => exact node.isInline_mapText trimEnd
  | _ :: _ :: _ => rfl

/-- Trimming the last text makes no difference to it either. -/
theorem blanksBetween_trimLast {inline : Bool} {nodes : List Node} :
    BlanksBetween inline (trimLast nodes) ↔ BlanksBetween inline nodes := by
  fun_induction trimLast nodes generalizing inline with
  | case1 => exact Iff.rfl
  | case2 node =>
    rw [BlanksBetween, BlanksBetween, node.isBlankText_mapText isBlankText_trimEnd]
    exact Iff.rfl
  | case3 node next nodes ih => rw [BlanksBetween, BlanksBetween, any_isInline_trimLast, ih]

/-- The first and the last node of such a level are no blank texts. -/
theorem BlanksBetween.head? {nodes : List Node} (h : BlanksBetween false nodes) {node : Node}
    (hnode : node ∈ nodes.head?) : node.isBlankText = false := by
  obtain ⟨rest, rfl⟩ := List.head?_eq_some_iff.1 hnode
  rw [Bool.eq_false_iff]
  intro hblank
  exact absurd (h.1 hblank).1 Bool.false_ne_true

theorem BlanksBetween.getLast? {inline : Bool} {nodes : List Node} (h : BlanksBetween inline nodes)
    {node : Node} (hnode : node ∈ nodes.getLast?) : node.isBlankText = false := by
  induction nodes generalizing inline with
  | nil => contradiction
  | cons first nodes ih =>
    cases nodes with
    | nil =>
      obtain rfl : first = node := by simpa using hnode
      rw [Bool.eq_false_iff]
      intro hblank
      exact absurd (h.1 hblank).2 Bool.false_ne_true
    | cons next nodes =>
      rw [List.getLast?_cons_cons] at hnode
      exact ih h.2 hnode

/-- Trimming changes one node at most, the first or the last. -/
theorem mem_trimFirst {node : Node} {nodes : List Node} (h : node ∈ trimFirst nodes) :
    node ∈ nodes ∨ ∃ first ∈ nodes.head?, node = first.mapText trimStart := by
  cases nodes with
  | nil => contradiction
  | cons first nodes =>
    rcases List.mem_cons.1 h with rfl | hmem
    · exact .inr ⟨first, rfl, rfl⟩
    · exact .inl (List.mem_cons_of_mem first hmem)

theorem mem_trimLast {node : Node} {nodes : List Node} (h : node ∈ trimLast nodes) :
    node ∈ nodes ∨ ∃ last ∈ nodes.getLast?, node = last.mapText trimEnd := by
  fun_induction trimLast nodes with
  | case1 => contradiction
  | case2 last => exact .inr ⟨last, rfl, List.mem_singleton.1 h⟩
  | case3 first next nodes ih =>
    rcases List.mem_cons.1 h with rfl | hmem
    · exact .inl List.mem_cons_self
    · rw [List.getLast?_cons_cons]
      exact (ih hmem).imp_left (List.mem_cons_of_mem first)

/-- What stands at an edge is the trimmed node. -/
theorem head?_trimFirst (nodes : List Node) :
    (trimFirst nodes).head? = nodes.head?.map (Node.mapText trimStart) := by
  cases nodes <;> rfl

theorem getLast?_trimLast (nodes : List Node) :
    (trimLast nodes).getLast? = nodes.getLast?.map (Node.mapText trimEnd) := by
  fun_induction trimLast nodes with
  | case1 => rfl
  | case2 node => rfl
  | case3 node next nodes ih =>
    rw [List.getLast?_cons_cons, List.getLast?_cons, ih, List.getLast?_cons]
    rfl

/-- Trimming at the end brings no blank to the start. -/
theorem stops_trimEnd {text : List Char} (h : Stops isBlank text) :
    Stops isBlank (trimEnd text) := by
  obtain ⟨blanks, -, hsplit⟩ := exists_trimEnd_append text
  rw [hsplit] at h
  have hnil : Stops isBlank [] := nofun
  have hcut := h.cut hnil
  rwa [List.append_nil] at hcut

/-- A trimmed text does not end in a blank. -/
theorem stops_reverse_trimEnd (text : List Char) : Stops isBlank (trimEnd text).reverse := by
  rw [trimEnd, dropEndWhile, List.reverse_reverse]
  exact stops_dropWhile text.reverse

/-! ### Texts apart -/

/-- No two texts are next to each other on the level. -/
def ApartLevel : List Node → Prop
  | [] => True
  | node :: nodes => (node.isText = true → NoTextFirst nodes) ∧ ApartLevel nodes

/-- A change of nodes that keeps which of them are texts keeps the texts of a level apart. -/
theorem noTextFirst_map {f : Node → Node} (hf : ∀ node, (f node).isText = node.isText)
    {nodes : List Node} :
    NoTextFirst (nodes.map f) ↔ NoTextFirst nodes := by
  cases nodes with
  | nil => exact Iff.rfl
  | cons node nodes => simp [NoTextFirst, hf]

theorem apartLevel_map {f : Node → Node} (hf : ∀ node, (f node).isText = node.isText)
    {nodes : List Node} :
    ApartLevel (nodes.map f) ↔ ApartLevel nodes := by
  induction nodes with
  | nil => exact Iff.rfl
  | cons node nodes ih => rw [List.map_cons, ApartLevel, ApartLevel, hf, noTextFirst_map hf, ih]

/-- A blank text is a text. -/
theorem Node.isText_of_isBlankText {node : Node} (h : node.isBlankText = true) :
    node.isText = true := by
  cases node with
  | text => rfl
  | element | comment => contradiction

/-- A node that is no text is no blank text. -/
theorem NoTextFirst.isBlankText {node : Node} {nodes : List Node}
    (h : NoTextFirst (node :: nodes)) :
    node.isBlankText = false := by
  rw [Bool.eq_false_iff]
  intro hblank
  have htext := h node rfl
  rw [Node.isText_of_isBlankText hblank] at htext
  contradiction

/-- What is no text is not dropped. -/
theorem head?_dropLooseBlanks {nodes : List Node} (h : NoTextFirst nodes) (before : Option Node) :
    (dropLooseBlanks before nodes).head? = nodes.head? := by
  cases nodes with
  | nil => rfl
  | cons node nodes =>
    simp only [dropLooseBlanks, h.isBlankText]
    rfl

/-- Dropping blank texts brings no text to the front of nodes that begin with none. -/
theorem noTextFirst_dropLooseBlanks {nodes : List Node} (h : NoTextFirst nodes)
    (before : Option Node) :
    NoTextFirst (dropLooseBlanks before nodes) := by
  unfold NoTextFirst
  rwa [head?_dropLooseBlanks h]

/-- **Texts that stand apart stay so** when some of them are dropped. -/
theorem ApartLevel.dropLooseBlanks {nodes : List Node} (h : ApartLevel nodes)
    (before : Option Node) :
    ApartLevel (dropLooseBlanks before nodes) := by
  induction nodes generalizing before with
  | nil => trivial
  | cons node nodes ih =>
    simp only [Markup.dropLooseBlanks]
    split
    next => exact ih h.2 _
    next => exact ⟨fun htext => noTextFirst_dropLooseBlanks (h.1 htext) _, ih h.2 _⟩

/-- What stands before nodes that do not start with a text makes no difference to their blanks. -/
theorem BlanksBetween.of_noTextFirst {inline inline' : Bool} {nodes : List Node}
    (h : BlanksBetween inline nodes) (hfirst : NoTextFirst nodes) :
    BlanksBetween inline' nodes := by
  cases nodes with
  | nil => trivial
  | cons node nodes =>
    refine ⟨fun hblank => ?_, h.2⟩
    rw [hfirst.isBlankText] at hblank
    contradiction

/-- **The blanks that are kept stand between inline nodes**, where texts are apart: their neighbours
are no texts, so these are not dropped and stay their neighbours. -/
theorem ApartLevel.blanksBetween_dropLooseBlanks {nodes : List Node} (h : ApartLevel nodes)
    (before : Option Node) :
    BlanksBetween (before.any Node.isInline) (Markup.dropLooseBlanks before nodes) := by
  induction nodes generalizing before with
  | nil => trivial
  | cons node nodes ih =>
    obtain ⟨hnode, hnodes⟩ := h
    have hrest := ih hnodes (some node)
    simp only [Markup.dropLooseBlanks]
    split
    next hdrop =>
      rw [Bool.and_eq_true] at hdrop
      -- What follows a text is none, so it does not matter to it what stands before.
      have hfirst := hnode (Node.isText_of_isBlankText hdrop.1)
      exact hrest.of_noTextFirst (noTextFirst_dropLooseBlanks hfirst _)
    next hkeep =>
      refine ⟨fun hblank => ?_, hrest⟩
      rw [hblank, Bool.true_and, Bool.not_eq_true', Bool.not_eq_false, Bool.and_eq_true] at hkeep
      rw [head?_dropLooseBlanks (hnode (Node.isText_of_isBlankText hblank))]
      exact hkeep

/-- An empty text is blank. -/
theorem Node.isBlankText_of_isEmptyText {node : Node} (h : node.isEmptyText = true) :
    node.isBlankText = true := by
  obtain ⟨span, rfl⟩ := Node.isEmptyText_iff.1 h
  rfl

/-- Where the blanks at the edges are taken, no text is taken as a whole. -/
theorem isEmptyText_of_mem_trim {nodes : List Node} (h : BlanksBetween false nodes)
    (hne : ∀ node ∈ nodes, node.isEmptyText = false) :
    ∀ node ∈ trimLast (trimFirst nodes), node.isEmptyText = false := by
  have hfirst := blanksBetween_trimFirst.2 h
  intro node hnode
  rw [Bool.eq_false_iff]
  intro hempty
  -- An empty text is one of blanks only, and at the edges there is none.
  have hblank := Node.isBlankText_of_isEmptyText hempty
  rcases mem_trimLast hnode with hmem | ⟨last, hlast, rfl⟩
  · rcases mem_trimFirst hmem with hmem | ⟨first, hhead, rfl⟩
    · rw [hne node hmem] at hempty
      contradiction
    · rw [first.isBlankText_mapText isBlankText_trimStart, h.head? hhead] at hblank
      contradiction
  · rw [last.isBlankText_mapText isBlankText_trimEnd, hfirst.getLast? hlast] at hblank
    contradiction

/-- The first node of a level stays as it is, or it is the last one, too, and is trimmed. -/
theorem head?_trimLast {node : Node} {nodes : List Node} (h : node ∈ (trimLast nodes).head?) :
    ∃ first ∈ nodes.head?, node = first ∨ node = first.mapText trimEnd := by
  match nodes with
  | [] => contradiction
  | [first] => exact ⟨first, rfl, .inr (by simpa [trimLast] using h.symm)⟩
  | first :: next :: nodes => exact ⟨first, rfl, .inl (by simpa [trimLast] using h.symm)⟩

/-- A text that is trimmed stays squeezed. -/
theorem squeezed_of_mem_trim {nodes : List Node}
    (h : ∀ node ∈ nodes, ∀ text ∈ node.textChars?, Squeezed text) :
    ∀ node ∈ trimLast (trimFirst nodes), ∀ text ∈ node.textChars?, Squeezed text := by
  have hfirst : ∀ node ∈ trimFirst nodes, ∀ text ∈ node.textChars?, Squeezed text := by
    intro node hnode text htext
    rcases mem_trimFirst hnode with hmem | ⟨first, hhead, rfl⟩
    · exact h node hmem text htext
    · obtain ⟨value, hvalue, rfl⟩ := Node.mem_textChars?_mapText.1 htext
      exact (h first (List.mem_of_head? hhead) value hvalue).trimStart
  intro node hnode text htext
  rcases mem_trimLast hnode with hmem | ⟨last, hlast, rfl⟩
  · exact hfirst node hmem text htext
  · obtain ⟨value, hvalue, rfl⟩ := Node.mem_textChars?_mapText.1 htext
    exact (hfirst last (List.mem_of_getLast? hlast) value hvalue).trimEnd

/-- The first text that is trimmed starts with a visible character. -/
theorem stops_of_head?_trim {nodes : List Node} {node : Node}
    (h : node ∈ (trimLast (trimFirst nodes)).head?) :
    ∀ text ∈ node.textChars?, Stops isBlank text := by
  obtain ⟨first, hfirst, hnode⟩ := head?_trimLast h
  rw [head?_trimFirst] at hfirst
  obtain ⟨first, -, rfl⟩ := Option.map_eq_some_iff.1 hfirst
  intro text htext
  rcases hnode with rfl | rfl
  · obtain ⟨value, -, rfl⟩ := Node.mem_textChars?_mapText.1 htext
    exact stops_dropWhile value
  · obtain ⟨trimmed, htrimmed, rfl⟩ := Node.mem_textChars?_mapText.1 htext
    obtain ⟨value, -, rfl⟩ := Node.mem_textChars?_mapText.1 htrimmed
    exact stops_trimEnd (stops_dropWhile value)

/-- The trimmed text does not end in a blank. -/
theorem stops_of_getLast?_trim {nodes : List Node} {node : Node}
    (h : node ∈ (trimLast nodes).getLast?) :
    ∀ text ∈ node.textChars?, Stops isBlank text.reverse := by
  rw [getLast?_trimLast] at h
  obtain ⟨last, -, rfl⟩ := Option.map_eq_some_iff.1 h
  intro text htext
  obtain ⟨value, -, rfl⟩ := Node.mem_textChars?_mapText.1 htext
  exact stops_reverse_trimEnd value

theorem ApartLevel.map_collapseText {nodes : List Node} (h : ApartLevel nodes) :
    ApartLevel (nodes.map Node.collapseText) := by
  rw [Node.collapseText_eq_mapText]
  exact (apartLevel_map (Node.isText_mapText _)).2 h

/-- Where nothing is trimmed, too, the blanks that are left stand between inline nodes. -/
theorem ApartLevel.blanksBetween_settle {nodes : List Node} (h : ApartLevel nodes) :
    BlanksBetween false (settle true nodes) :=
  h.map_collapseText.blanksBetween_dropLooseBlanks none

/-- Where texts are apart, all that is done at the edges of a level is to trim. -/
theorem ApartLevel.settle_false {nodes : List Node} (h : ApartLevel nodes)
    (hne : ∀ node ∈ nodes, node.isEmptyText = false) :
    settle false nodes = trimLast (trimFirst (settle true nodes)) := by
  have hempty := isEmptyText_of_mem_trim h.blanksBetween_settle (isEmptyText_of_mem_settle hne)
  refine List.filter_eq_self.2 fun node hnode => ?_
  rw [hempty node hnode]
  rfl

/-- **Collapsing the blanks of a level settles them**, where texts are apart. -/
theorem ApartLevel.settledLevel {nodes : List Node} (h : ApartLevel nodes)
    (hne : ∀ node ∈ nodes, node.isEmptyText = false) (inline : Bool) :
    SettledLevel inline (settle inline nodes) := by
  have hbetween := h.blanksBetween_settle
  -- Each text of the level was collapsed, and collapsing squeezes.
  have hsqueezed : ∀ node ∈ settle true nodes, ∀ text ∈ node.textChars?, Squeezed text := by
    intro node hnode text htext
    obtain ⟨node, -, rfl⟩ := List.mem_map.1 (mem_of_mem_dropLooseBlanks hnode)
    rw [Node.collapseText_eq_mapText] at htext
    obtain ⟨value, -, rfl⟩ := Node.mem_textChars?_mapText.1 htext
    exact (squeezed_squeezeBlanks false value).1
  cases inline with
  | true => exact ⟨hsqueezed, hbetween, nofun, nofun⟩
  | false =>
    rw [h.settle_false hne]
    refine ⟨squeezed_of_mem_trim hsqueezed, ?_, fun _ node => stops_of_head?_trim, fun _ node =>
      stops_of_getLast?_trim⟩
    exact blanksBetween_trimLast.2 (blanksBetween_trimFirst.2 hbetween)

/-- Trimming keeps texts apart. -/
theorem apartLevel_trimFirst {nodes : List Node} :
    ApartLevel (trimFirst nodes) ↔ ApartLevel nodes := by
  cases nodes with
  | nil => exact Iff.rfl
  | cons node nodes => rw [trimFirst, ApartLevel, ApartLevel, Node.isText_mapText]

theorem noTextFirst_trimLast {nodes : List Node} :
    NoTextFirst (trimLast nodes) ↔ NoTextFirst nodes := by
  match nodes with
  | [] => exact Iff.rfl
  | [node] => simp [NoTextFirst, trimLast]
  | _ :: _ :: _ => exact Iff.rfl

theorem apartLevel_trimLast {nodes : List Node} :
    ApartLevel (trimLast nodes) ↔ ApartLevel nodes := by
  fun_induction trimLast nodes with
  | case1 => exact Iff.rfl
  | case2 node =>
    rw [ApartLevel, Node.isText_mapText]
    exact Iff.rfl
  | case3 node next nodes ih => rw [ApartLevel, ApartLevel, noTextFirst_trimLast, ih]

/-- Texts that are apart stay apart, since what is dropped are texts. -/
theorem ApartLevel.settle {nodes : List Node} (h : ApartLevel nodes)
    (hne : ∀ node ∈ nodes, node.isEmptyText = false) (inline : Bool) :
    ApartLevel (settle inline nodes) := by
  have hloose : ApartLevel (Markup.settle true nodes) := h.map_collapseText.dropLooseBlanks none
  cases inline with
  | true => exact hloose
  | false =>
    rw [h.settle_false hne]
    exact apartLevel_trimLast.2 (apartLevel_trimFirst.2 hloose)

end Triptych.Markup
