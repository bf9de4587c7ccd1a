import Triptych.Markup.Minify
import Triptych.Proofs.Markup.Joining
import Triptych.Proofs.Text.Indentation

/-!
# Smaller markup still parses

Of the four reductions none makes a tree that cannot be written (`Written.reduceNodes`), and none
changes which tags end in a slash. Collapsing blanks does not change whether texts stay text either:
a blank next to another one, at the start of a level or before something that is no text does
nothing (`textsStay_settle`). What is left is dropping comments, which may join two texts to markup.
So smaller markup is read as the smaller tree unless one of two things happens, and both do happen
(`minify_loses_tree`):

* a tag ends in a value without quotes and a slash, which the printed tag then takes for its own;
* two texts on both sides of a comment read as markup when the comment is gone.

`parse_minify_iff` says that these are the only two.
-/

namespace Triptych.Markup

open Text TextState

/-! ### Nodes one by one -/

/-- A list of nodes can be written if each of them can. -/
theorem written_cons_iff {node : Node} {nodes : List Node} :
    Written (node :: nodes) ↔ Written [node] ∧ Written nodes := by
  constructor
  · intro h
    cases h with
    | text hne hnodes => exact ⟨.text hne .nil, hnodes⟩
    | comment hend hnodes => exact ⟨.comment hend .nil, hnodes⟩
    | leaf htag hleaf hnodes => exact ⟨.leaf htag hleaf .nil, hnodes⟩
    | raw htag htakes hraw hcontent hnodes => exact ⟨.raw htag htakes hraw hcontent .nil, hnodes⟩
    | branch htag htakes hraw hchildren hnodes =>
      exact ⟨.branch htag htakes hraw hchildren .nil, hnodes⟩
  · rintro ⟨h, hnodes⟩
    cases h with
    | text hne => exact .text hne hnodes
    | comment hend => exact .comment hend hnodes
    | leaf htag hleaf => exact .leaf htag hleaf hnodes
    | raw htag htakes hraw hcontent => exact .raw htag htakes hraw hcontent hnodes
    | branch htag htakes hraw hchildren => exact .branch htag htakes hraw hchildren hnodes

theorem written_iff_forall {nodes : List Node} :
    Written nodes ↔ ∀ node ∈ nodes, Written [node] := by
  induction nodes with
  | nil => exact ⟨fun _ _ h => absurd h List.not_mem_nil, fun _ => .nil⟩
  | cons node nodes ih => rw [written_cons_iff, List.forall_mem_cons, ih]

/-- A text with characters can be written. -/
theorem written_text {value : String} (span : Span) (h : value.toList ≠ []) :
    Written [.text value span] := by
  have htext := @Written.text value.toList span [] h .nil
  rwa [String.ofList_toList] at htext

/-- The nodes that are no texts. -/
def others (nodes : List Node) : List Node :=
  nodes.filter fun node => !node.isText

/-- What is no text stays among the others. -/
theorem others_cons {node : Node} (h : node.isText = false) (nodes : List Node) :
    others (node :: nodes) = node :: others nodes :=
  List.filter_cons_of_pos (by simp [h])

/-- Texts hold no elements. -/
theorem elementsOf_others (nodes : List Node) : elementsOf (others nodes) = elementsOf nodes := by
  induction nodes with
  | nil => rfl
  | cons node nodes ih =>
    cases node with
    | text => exact ih
    | element | comment => rw [others_cons rfl, elementsOf, elementsOf, ih]

/-- Which tags end in a slash does not depend on the texts. -/
theorem noneEndsInSlash_congr {nodes nodes' : List Node} (h : others nodes = others nodes') :
    NoneEndsInSlash nodes ↔ NoneEndsInSlash nodes' := by
  unfold NoneEndsInSlash
  rw [← elementsOf_others nodes, h, elementsOf_others]

/-- Whether nodes can be written does not depend on the texts, as long as none is empty. -/
theorem written_iff_others {nodes : List Node} :
    Written nodes ↔ (∀ node ∈ nodes, node.isEmptyText = false) ∧ Written (others nodes) := by
  rw [written_iff_forall, @written_iff_forall (others nodes)]
  constructor
  · intro h
    refine ⟨fun node hnode => ?_, fun node hnode => h node (List.mem_filter.1 hnode).1⟩
    cases h node hnode with
    | text hne => simpa [Node.isEmptyText] using hne
    | comment | leaf | raw | branch => rfl
  · rintro ⟨hempty, hothers⟩ node hnode
    -- A text can be written if it is not empty, which is the only thing to be asked of it.
    cases htext : node.isText with
    | false => exact hothers node (List.mem_filter.2 ⟨hnode, by simp [htext]⟩)
    | true =>
      cases node with
      | element | comment => contradiction
      | text value span =>
        have hvalue : value.toList ≠ [] := by simpa [Node.isEmptyText] using hempty _ hnode
        exact written_text span hvalue

/-! ### Comments -/

theorem dropComments_element (tag : Tag) (children nodes : List Node) (span : Span) :
    dropComments (.element tag children span :: nodes) =
      .element tag (dropComments children) span :: dropComments nodes := rfl

/-- The content of a raw element holds no comments. -/
theorem dropComments_rawChildren (content : List Char) (span : Span) :
    dropComments (rawChildren content span) = rawChildren content span := by
  unfold rawChildren
  split <;> rfl

/-- **Without its comments markup can still be written.** -/
theorem Written.dropComments {nodes : List Node} (h : Written nodes) :
    Written (dropComments nodes) := by
  induction h with
  | nil => exact .nil
  | text hne _ ih => exact .text hne ih
  | comment _ _ ih => exact ih
  | leaf htag hleaf _ ih => exact .leaf htag hleaf ih
  | raw htag htakes hraw hcontent _ ih =>
    rw [dropComments_element, dropComments_rawChildren]
    exact .raw htag htakes hraw hcontent ih
  | branch htag htakes hraw _ _ ihchildren ih => exact .branch htag htakes hraw ihchildren ih

/-- A comment has no attributes. -/
theorem Written.noneEndsInSlash_dropComments {nodes : List Node} (h : Written nodes) :
    NoneEndsInSlash (Markup.dropComments nodes) ↔ NoneEndsInSlash nodes := by
  induction h with
  | nil => exact Iff.rfl
  | text _ _ ih => exact ih
  | comment _ _ ih => exact ih
  | leaf _ _ _ ih =>
    rw [dropComments_element, noneEndsInSlash_element, noneEndsInSlash_element, ih]
    rfl
  | raw _ _ _ _ _ ih =>
    rw [dropComments_element, dropComments_rawChildren, noneEndsInSlash_element,
      noneEndsInSlash_element, ih]
  | branch _ _ _ _ _ ihchildren ih =>
    rw [dropComments_element, noneEndsInSlash_element, noneEndsInSlash_element, ihchildren, ih]

/-! ### Blanks in a text -/

/-- Of a run of blanks one is left. -/
theorem squeezeBlanks_ne_nil {text : List Char} (h : text ≠ []) :
    squeezeBlanks false text ≠ [] := by
  obtain ⟨c, cs, rfl⟩ := List.exists_cons_of_ne_nil h
  unfold squeezeBlanks
  split <;> simp

namespace TextState

/-- A run of blanks does what its first one does. -/
theorem run_squeezeBlanks {inRun : Bool} {state : TextState} (text : List Char)
    (h : inRun = true → state.afterBlank = state) :
    state.run (squeezeBlanks inRun text) = state.run text := by
  induction text generalizing inRun state with
  | nil => rfl
  | cons c text ih =>
    unfold squeezeBlanks
    split
    next hc =>
      have hspace : isBlank ' ' = true := by decide
      split
      -- Inside a run a blank changes nothing; the first one of a run counts as the space that is
      -- kept.
      next hrun =>
        rw [run_cons, next_blank hc, h hrun]
        exact ih fun _ => h hrun
      next =>
        rw [run_cons, run_cons, next_blank hc, next_blank hspace]
        exact ih fun _ => afterBlank_afterBlank state
    next =>
      rw [run_cons, run_cons]
      exact ih (by simp)

/-- Blanks at the start of a text change nothing: no tag is open there. -/
theorem run_plain_trimStart (text : List Char) : run .plain (trimStart text) = run .plain text := by
  have hblanks : run .plain (text.takeWhile isBlank) = .plain :=
    run_plain_blanks fun _ hc => of_mem_takeWhile hc
  have hsplit := run_append .plain (text.takeWhile isBlank) (text.dropWhile isBlank)
  rw [List.takeWhile_append_dropWhile, hblanks] at hsplit
  exact hsplit.symm

/-- Blanks at the end do not turn a text into markup. -/
theorem isText_run_trimEnd (state : TextState) (text : List Char) :
    (state.run (trimEnd text)).isText = (state.run text).isText := by
  obtain ⟨blanks, hblanks, hsplit⟩ := exists_trimEnd_append text
  have hrun := run_append state (trimEnd text) blanks
  rw [← hsplit] at hrun
  rw [hrun, isText_run_blanks hblanks]

end TextState

/-! ### Blanks on one level -/

/-- An element ends the text before it, and a new text starts behind it. -/
theorem textsStay_cons {node : Node} (h : node.isText = false) (state : TextState)
    (nodes : List Node) :
    textsStay state (node :: nodes) =
      (state.isText && (node.insideStays && textsStay .plain nodes)) := by
  cases node with
  | text => contradiction
  | element | comment => rfl

/-- Squeezing blanks turns no text into markup. A run of blanks counts like one. -/
theorem textsStay_collapseText (state : TextState) (nodes : List Node) :
    textsStay state (nodes.map Node.collapseText) = textsStay state nodes := by
  induction nodes generalizing state with
  | nil => rfl
  | cons node nodes ih =>
    rw [List.map_cons]
    cases node with
    | text value span =>
      rw [Node.collapseText, textsStay_text, textsStay_text, String.toList_ofList,
        run_squeezeBlanks _ (by simp)]
      exact ih _
    | element | comment =>
      rw [Node.collapseText, textsStay_cons rfl, textsStay_cons rfl, ih]
      simp

/-- A text of blanks that has no inline neighbour on one of its sides says nothing. -/
theorem textsStay_dropLooseBlanks {before : Option Node} {state : TextState} (nodes : List Node)
    (h : before.any Node.isInline = false → state = .plain) :
    textsStay state (dropLooseBlanks before nodes) = textsStay state nodes := by
  -- Along the nodes: something can be under way only where a text is right before.
  induction nodes generalizing before state with
  | nil => rfl
  | cons node nodes ih =>
    simp only [dropLooseBlanks]
    split
    next hdrop =>
      rw [Bool.and_eq_true, Bool.not_eq_true', Bool.and_eq_false_iff] at hdrop
      obtain ⟨hblank, hloose⟩ := hdrop
      cases node with
      | element | comment => contradiction
      | text value span =>
        have hblanks : ∀ c ∈ value.toList, isBlank c = true := List.all_eq_true.1 hblank
        rw [ih (by simp [Node.isInline]), textsStay_text]
        rcases hloose with hbefore | hafter
        · rw [h hbefore, run_plain_blanks hblanks]
        · -- What comes next is no text, so all that counts is that the blanks are text.
          have hfirst : NoTextFirst nodes := by
            intro next hnext
            cases next with
            | text =>
              rw [Option.mem_def.1 hnext] at hafter
              contradiction
            | element | comment => rfl
          have hstart (state : TextState) :
              textsStay state nodes = (state.isText && textsStay .plain nodes) :=
            textsStay_of_noTextFirst hfirst
          rw [hstart, hstart (state.run _), isText_run_blanks hblanks]
    next =>
      cases node with
      | text value span => exact ih (by simp [Node.isInline])
      | element | comment =>
        rw [textsStay_cons rfl, textsStay_cons rfl, ih fun _ => rfl]

/-- Trimming the first text turns no text into markup. -/
theorem textsStay_trimFirst (nodes : List Node) :
    textsStay .plain (trimFirst nodes) = textsStay .plain nodes := by
  match nodes with
  | [] => rfl
  | .text value span :: nodes =>
    rw [trimFirst, Node.mapText, textsStay_text, textsStay_text, String.toList_ofList,
      run_plain_trimStart]
  | .element _ _ _ :: _ | .comment _ _ :: _ => rfl

theorem textsStay_trimLast (state : TextState) (nodes : List Node) :
    textsStay state (trimLast nodes) = textsStay state nodes := by
  fun_induction trimLast nodes generalizing state with
  | case1 => rfl
  | case2 node =>
    cases node with
    | text value span =>
      rw [Node.mapText, textsStay_text, textsStay_text, String.toList_ofList]
      exact isText_run_trimEnd state value.toList
    | element | comment => rfl
  | case3 node next nodes ih =>
    cases node with
    | text value span => exact ih _
    | element | comment => rw [textsStay_cons rfl, textsStay_cons rfl, ih]

/-- An empty text can go: what was read of the text around it stays as it is. -/
theorem textsStay_filter (state : TextState) (nodes : List Node) :
    textsStay state (nodes.filter fun node => !node.isEmptyText) = textsStay state nodes := by
  induction nodes generalizing state with
  | nil => rfl
  | cons node nodes ih =>
    rw [List.filter_cons]
    split
    next =>
      cases node with
      | text value span => exact ih _
      | element | comment => rw [textsStay_cons rfl, textsStay_cons rfl, ih]
    next hempty =>
      obtain ⟨span, rfl⟩ := Node.isEmptyText_iff.1 (by simpa using hempty)
      rw [textsStay_text, ih]
      rfl

/-- **Collapsing the blanks of a level does not change whether its texts stay text.** -/
theorem textsStay_settle (inline : Bool) (nodes : List Node) :
    textsStay .plain (settle inline nodes) = textsStay .plain nodes := by
  have hloose : textsStay .plain (dropLooseBlanks none (nodes.map Node.collapseText)) =
      textsStay .plain nodes := by
    rw [textsStay_dropLooseBlanks _ fun _ => rfl, textsStay_collapseText]
  unfold settle
  split
  next => exact hloose
  next => rw [textsStay_filter, textsStay_trimLast, textsStay_trimFirst, hloose]

/-- **Only texts are touched by what happens to the blanks of a level**: each of the steps leaves
the other nodes as they are and in place. -/
theorem others_dropLooseBlanks (before : Option Node) (nodes : List Node) :
    others (dropLooseBlanks before nodes) = others nodes := by
  induction nodes generalizing before with
  | nil => rfl
  | cons node nodes ih =>
    simp only [dropLooseBlanks]
    split
    -- Only a text of blanks is dropped.
    next hdrop =>
      rw [Bool.and_eq_true] at hdrop
      cases node with
      | text => exact ih _
      | element | comment => exact absurd hdrop.1 (by simp [Node.isBlankText])
    next =>
      cases node with
      | text => exact ih _
      | element | comment => rw [others_cons rfl, others_cons rfl, ih]

theorem others_collapseText (nodes : List Node) :
    others (nodes.map Node.collapseText) = others nodes := by
  induction nodes with
  | nil => rfl
  | cons node nodes ih =>
    cases node with
    | text => exact ih
    | element | comment =>
      rw [List.map_cons, Node.collapseText, others_cons rfl, others_cons rfl, ih]
      simp

theorem others_trimFirst (nodes : List Node) : others (trimFirst nodes) = others nodes := by
  match nodes with
  | [] => rfl
  | .text _ _ :: _ | .element _ _ _ :: _ | .comment _ _ :: _ => rfl

theorem others_trimLast (nodes : List Node) : others (trimLast nodes) = others nodes := by
  fun_induction trimLast nodes with
  | case1 => rfl
  | case2 node =>
    cases node with
    | text | element | comment => rfl
  | case3 node next nodes ih =>
    cases node with
    | text => exact ih
    | element | comment => rw [others_cons rfl, others_cons rfl, ih]

theorem others_filter (nodes : List Node) :
    others (nodes.filter fun node => !node.isEmptyText) = others nodes := by
  unfold others
  rw [List.filter_filter]
  refine List.filter_congr fun node _ => ?_
  cases node <;> rfl

/-- Collapsing the blanks of a level changes texts only. -/
theorem others_settle (inline : Bool) (nodes : List Node) :
    others (settle inline nodes) = others nodes := by
  have hloose : others (dropLooseBlanks none (nodes.map Node.collapseText)) = others nodes := by
    rw [others_dropLooseBlanks, others_collapseText]
  unfold settle
  split
  next => exact hloose
  next => rw [others_filter, others_trimLast, others_trimFirst, hloose]

/-- Nothing new comes in where blanks are dropped. -/
theorem mem_of_mem_dropLooseBlanks {before : Option Node} {node : Node} {nodes : List Node}
    (h : node ∈ dropLooseBlanks before nodes) : node ∈ nodes := by
  induction nodes generalizing before with
  | nil => exact h
  | cons first nodes ih =>
    simp only [dropLooseBlanks] at h
    split at h
    next => exact List.mem_cons_of_mem first (ih h)
    next =>
      rcases List.mem_cons.1 h with rfl | hmem
      · exact List.mem_cons_self
      · exact List.mem_cons_of_mem first (ih hmem)

/-- A level that holds no empty text holds none when its blanks are settled: what is left of a text
by squeezing and trimming is dropped when nothing is left. -/
theorem isEmptyText_of_mem_settle {inline : Bool} {nodes : List Node}
    (h : ∀ node ∈ nodes, node.isEmptyText = false) :
    ∀ node ∈ settle inline nodes, node.isEmptyText = false := by
  intro node hnode
  unfold settle at hnode
  split at hnode
  next =>
    obtain ⟨node', hmem, rfl⟩ := List.mem_map.1 (mem_of_mem_dropLooseBlanks hnode)
    cases node' with
    | text value span =>
      have hne : value.toList ≠ [] := by simpa [Node.isEmptyText] using h _ hmem
      simpa [Node.collapseText, Node.isEmptyText] using squeezeBlanks_ne_nil hne
    | element | comment => rfl
  next => simpa using (List.mem_filter.1 hnode).2

theorem Written.settle {nodes : List Node} (h : Written nodes) (inline : Bool) :
    Written (settle inline nodes) := by
  obtain ⟨hempty, hothers⟩ := written_iff_others.1 h
  refine written_iff_others.2 ⟨isEmptyText_of_mem_settle hempty, ?_⟩
  rwa [others_settle]

/-! ### Blanks on all levels -/

/-- Raw elements are among those that keep their blanks. -/
theorem keepsBlanks_of_holdsRawText {name : String} (h : holdsRawText name = true) :
    keepsBlanks name = true := by
  unfold keepsBlanks blankKeepingElements isNamedIn
  rw [List.any_append]
  exact Bool.or_eq_true_iff.2 (.inr h)

theorem settle_nil (inline : Bool) : Markup.settle inline [] = [] := by
  cases inline <;> rfl

theorem Node.collapseInside_leaf (tag : Tag) (span : Span) :
    Node.collapseInside (.element tag [] span) = .element tag [] span := by
  rw [Node.collapseInside]
  split
  next => rfl
  next => rw [collapseEach, settle_nil]

/-- The content of a raw element is left alone. -/
theorem Node.collapseInside_raw {tag : Tag} (h : holdsRawText tag.name = true)
    (children : List Node) (span : Span) :
    Node.collapseInside (.element tag children span) = .element tag children span := by
  rw [Node.collapseInside, if_pos (keepsBlanks_of_holdsRawText h)]

/-- **Settling the blanks below every element keeps markup writable.** -/
theorem Written.collapseEach {nodes : List Node} (h : Written nodes) :
    Written (collapseEach nodes) := by
  induction h with
  | nil => exact .nil
  | text hne _ ih => exact .text hne ih
  | comment hend _ ih => exact .comment hend ih
  | leaf htag hleaf _ ih =>
    rw [Markup.collapseEach, Node.collapseInside_leaf]
    exact .leaf htag hleaf ih
  | raw htag htakes hraw hcontent _ ih =>
    rw [Markup.collapseEach, Node.collapseInside_raw hraw]
    exact .raw htag htakes hraw hcontent ih
  | branch htag htakes hraw hchildren _ ihchildren ih =>
    rw [Markup.collapseEach, Node.collapseInside]
    split
    next => exact .branch htag htakes hraw hchildren ih
    next => exact .branch htag htakes hraw (ihchildren.settle _) ih

/-- No attribute changes where blanks are settled. -/
theorem Written.noneEndsInSlash_collapseEach {nodes : List Node} (h : Written nodes) :
    NoneEndsInSlash (Markup.collapseEach nodes) ↔ NoneEndsInSlash nodes := by
  induction h with
  | nil => exact Iff.rfl
  | text _ _ ih => exact ih
  | comment _ _ ih => exact ih
  | leaf _ _ _ ih =>
    rw [Markup.collapseEach, Node.collapseInside_leaf, noneEndsInSlash_element,
      noneEndsInSlash_element, ih]
  | raw _ _ hraw _ _ ih =>
    rw [Markup.collapseEach, Node.collapseInside_raw hraw, noneEndsInSlash_element,
      noneEndsInSlash_element, ih]
  | @branch tag children span nodes _ _ _ _ _ ihchildren ih =>
    rw [Markup.collapseEach, Node.collapseInside, noneEndsInSlash_element, ← ih]
    split
    next => rw [noneEndsInSlash_element]
    next => rw [noneEndsInSlash_element, noneEndsInSlash_congr (others_settle _ _), ihchildren]

/-- Settling blanks inside elements leaves the texts between the elements. -/
theorem Written.textsStay_collapseEach {nodes : List Node} (h : Written nodes) (state : TextState) :
    textsStay state (Markup.collapseEach nodes) = textsStay state nodes := by
  induction h generalizing state with
  | nil => rfl
  | text _ _ ih => exact ih _
  | comment _ _ ih => rw [textsStay_comment, ← ih]; rfl
  | leaf _ _ _ ih =>
    rw [Markup.collapseEach, Node.collapseInside_leaf, textsStay_element, textsStay_element, ih]
  | raw _ _ hraw _ _ ih =>
    rw [Markup.collapseEach, Node.collapseInside_raw hraw, textsStay_element, textsStay_element, ih]
  | branch _ _ _ _ _ ihchildren ih =>
    rw [Markup.collapseEach, Node.collapseInside, textsStay_element, ← ih]
    split
    next => rw [textsStay_element]
    next => rw [textsStay_element, textsStay_settle, ihchildren]

theorem Written.collapseBlanks {nodes : List Node} (h : Written nodes) :
    Written (collapseBlanks nodes) :=
  h.collapseEach.settle false

theorem Written.noneEndsInSlash_collapseBlanks {nodes : List Node} (h : Written nodes) :
    NoneEndsInSlash (Markup.collapseBlanks nodes) ↔ NoneEndsInSlash nodes :=
  (noneEndsInSlash_congr (others_settle false _)).trans h.noneEndsInSlash_collapseEach

/-- **Collapsing blanks does not change whether texts stay text.** -/
theorem Written.textsStay_collapseBlanks {nodes : List Node} (h : Written nodes) :
    textsStay .plain (Markup.collapseBlanks nodes) = textsStay .plain nodes :=
  (textsStay_settle false _).trans (h.textsStay_collapseEach .plain)

/-! ### Attributes -/

/-- A value that needs no quotes can be written without them. -/
theorem isBareValue_of_needsNoQuotes {value : List Char} (h : needsNoQuotes value = true) :
    IsBareValue value := by
  simp only [needsNoQuotes, Bool.and_eq_true, Bool.not_eq_true', List.isEmpty_eq_false_iff,
    List.any_eq_false, Bool.or_eq_true, not_or, beq_iff_eq] at h
  obtain ⟨⟨hne, hchars⟩, -⟩ := h
  have hhead (quote : Char) (hquote : ∀ c ∈ value, c ≠ quote) : value.head? ≠ some quote :=
    fun hfirst => hquote quote (List.mem_of_head? hfirst) rfl
  refine ⟨hne, fun c hc => ?_, hhead _ fun c hc => ?_, hhead _ fun c hc => ?_⟩
  · obtain ⟨⟨⟨⟨⟨⟨hblank, -⟩, -⟩, -⟩, -⟩, hopen⟩, hclose⟩ := hchars c hc
    have hascii : isAsciiBlank c = false := Bool.eq_false_iff.2 fun h =>
      hblank (isBlank_of_isAsciiBlank h)
    simp [isUnquotedChar, hascii, hopen, hclose]
  · exact (hchars c hc).1.1.1.1.1.2
  · exact (hchars c hc).1.1.1.1.2

/-- True of an attribute without quotes whose value ends in a slash, with something before it. -/
def Attribute.endsInSlash : Attribute → Bool
  | ⟨_, some value, .none, _⟩ => 2 ≤ byteLength value.toList && value.toList.getLast? == some '/'
  | _ => false

/-- What stands before the end of a tag is its last attribute, unless the tag closes itself. -/
theorem Tag.endsInSlash_eq (tag : Tag) :
    tag.endsInSlash = (!tag.selfClosing && tag.attributes.getLast?.any Attribute.endsInSlash) := by
  unfold Tag.endsInSlash
  congr 1
  cases tag.attributes.getLast? with
  | none => rfl
  | some attr =>
    obtain ⟨name, value, quote, span⟩ := attr
    cases value <;> cases quote <;> rfl

/-- A value that does not end in a slash is no danger to the end of its tag. -/
theorem Attribute.endsInSlash_of_getLast {attr : Attribute}
    (h : ∀ value ∈ attr.value, value.toList.getLast? ≠ some '/') : attr.endsInSlash = false := by
  unfold endsInSlash
  split
  next value _ =>
    have hlast := h value rfl
    simp [hlast]
  next => rfl

/-- **An attribute that can be read can be read when it is made smaller**, step by step: first
without the value that repeats its name, and then without its quotes. -/
theorem Attribute.Legible.collapseBoolean {attr : Attribute} (h : attr.Legible) :
    attr.collapseBoolean.Legible := by
  unfold Attribute.collapseBoolean
  split
  next =>
    split
    next => exact ⟨h.name_ne_nil, h.name_chars, by simp, fun _ => rfl⟩
    next => exact h
  next => exact h

/-- A value that repeats the name of its attribute does not end in a slash. -/
theorem Attribute.Legible.endsInSlash_collapseBoolean {attr : Attribute} (h : attr.Legible) :
    attr.collapseBoolean.endsInSlash = attr.endsInSlash := by
  unfold Attribute.collapseBoolean
  split
  next value hvalue =>
    split
    next hdrop =>
      rw [Bool.and_eq_true, Bool.or_eq_true] at hdrop
      -- A value that goes is empty or repeats the name, and no name holds a slash.
      have hlast : value.toList.getLast? ≠ some '/' := by
        intro hslash
        have hmem := List.mem_of_getLast? hslash
        rcases hdrop.2 with hempty | hrepeats
        · simp [String.isEmpty_iff.1 hempty] at hmem
        · have hname : ∀ c ∈ attr.name.toList, (c != '/') = true := by
            intro c hc
            rw [bne_iff_ne]
            rintro rfl
            exact absurd (h.name_chars _ hc) (by decide)
          have hletter (c : Char) (hc : isAsciiLetter c = true) : (c != '/') = true :=
            bne_iff_ne.2 (ne_of_isAsciiLetter hc).2.1
          exact absurd (forall_of_equalsIgnoringCase hletter hrepeats hname _ hmem) (by decide)
      rw [attr.endsInSlash_of_getLast (by simpa [hvalue] using hlast)]
      rfl
    next => rfl
  next => rfl

theorem Attribute.Legible.unquote {attr : Attribute} (h : attr.Legible) : attr.unquote.Legible := by
  unfold Attribute.unquote
  split
  next hbare =>
    refine ⟨h.name_ne_nil, h.name_chars, fun value hvalue => ?_, fun _ => rfl⟩
    rw [Option.mem_def.1 hvalue] at hbare
    exact isBareValue_of_needsNoQuotes hbare
  next => exact h

/-- A value that ends in a slash keeps its quotes. -/
theorem Attribute.endsInSlash_unquote (attr : Attribute) :
    attr.unquote.endsInSlash = attr.endsInSlash := by
  unfold Attribute.unquote
  split
  next hbare =>
    have hlast : ∀ value ∈ attr.value, value.toList.getLast? ≠ some '/' := by
      intro value hvalue
      rw [Option.mem_def.1 hvalue] at hbare
      simp only [Option.any_some, needsNoQuotes, Bool.and_eq_true, bne_iff_ne] at hbare
      exact hbare.2
    rw [attr.endsInSlash_of_getLast hlast]
    exact endsInSlash_of_getLast hlast
  next => rfl

/-- Both steps together, with the last character of the attribute kept. -/
theorem Attribute.Legible.minify {attr : Attribute} (h : attr.Legible) (options : Reductions) :
    (attr.minify options).Legible ∧ (attr.minify options).endsInSlash = attr.endsInSlash := by
  unfold Attribute.minify
  split <;> split
  · exact ⟨h.collapseBoolean.unquote, (endsInSlash_unquote _).trans h.endsInSlash_collapseBoolean⟩
  · exact ⟨h.collapseBoolean, h.endsInSlash_collapseBoolean⟩
  · exact ⟨h.unquote, endsInSlash_unquote _⟩
  · exact ⟨h, rfl⟩

/-- The tag with smaller attributes. -/
def Tag.minify (options : Reductions) (tag : Tag) : Tag :=
  { tag with attributes := tag.attributes.map (Attribute.minify options) }

theorem Tag.Legible.minify {tag : Tag} (h : tag.Legible) (options : Reductions) :
    (tag.minify options).Legible := by
  refine ⟨h.name, fun attr hattr => ?_⟩
  obtain ⟨attr', hmem, rfl⟩ := List.mem_map.1 hattr
  exact ((h.attributes attr' hmem).minify options).1

theorem Tag.Legible.endsInSlash_minify {tag : Tag} (h : tag.Legible) (options : Reductions) :
    (tag.minify options).endsInSlash = tag.endsInSlash := by
  rw [Tag.endsInSlash_eq, Tag.endsInSlash_eq, Tag.minify, List.getLast?_map]
  cases hlast : tag.attributes.getLast? with
  | none => rfl
  | some attr =>
    have hattr := ((h.attributes attr (List.mem_of_getLast? hlast)).minify options).2
    rw [Option.map_some, Option.any_some, Option.any_some, hattr]

section MinifyAttributes

variable (options : Reductions) {nodes : List Node} {span : Span}

theorem minifyAttributes_element (tag : Tag) (children : List Node) :
    minifyAttributes options (.element tag children span :: nodes) =
      .element (tag.minify options) (minifyAttributes options children) span :: minifyAttributes
        options nodes := rfl

theorem minifyAttributes_rawChildren (content : List Char) :
    minifyAttributes options (rawChildren content span) = rawChildren content span := by
  unfold rawChildren
  split <;> rfl

end MinifyAttributes

/-- **Markup with smaller attributes can still be written.** -/
theorem Written.minifyAttributes {nodes : List Node} (h : Written nodes) (options : Reductions) :
    Written (minifyAttributes options nodes) := by
  induction h with
  | nil => exact .nil
  | text hne _ ih => exact .text hne ih
  | comment hend _ ih => exact .comment hend ih
  | leaf htag hleaf _ ih => exact .leaf (htag.minify options) hleaf ih
  | raw htag htakes hraw hcontent _ ih =>
    rw [minifyAttributes_element, minifyAttributes_rawChildren]
    exact .raw (htag.minify options) htakes hraw hcontent ih
  | branch htag htakes hraw _ _ ihchildren ih =>
    exact .branch (htag.minify options) htakes hraw ihchildren ih

/-- Smaller attributes end in a slash where the attributes did. -/
theorem Written.noneEndsInSlash_minifyAttributes {nodes : List Node} (h : Written nodes)
    (options : Reductions) :
    NoneEndsInSlash (Markup.minifyAttributes options nodes) ↔ NoneEndsInSlash nodes := by
  induction h with
  | nil => exact Iff.rfl
  | text _ _ ih => exact ih
  | comment _ _ ih => exact ih
  | leaf htag _ _ ih =>
    rw [minifyAttributes_element, noneEndsInSlash_element, noneEndsInSlash_element,
      htag.endsInSlash_minify, ih]
    rfl
  | raw htag _ _ _ _ ih =>
    rw [minifyAttributes_element, noneEndsInSlash_element, noneEndsInSlash_element,
      htag.endsInSlash_minify, ih, minifyAttributes_rawChildren]
  | branch htag _ _ _ _ ihchildren ih =>
    rw [minifyAttributes_element, noneEndsInSlash_element, noneEndsInSlash_element,
      htag.endsInSlash_minify, ih, ihchildren]

mutual

/-- The texts below an element do not depend on its attributes. -/
theorem Node.insideStays_minifyAttributes (options : Reductions) (node : Node) :
    (Node.mapParts (Tag.minify options) id id node).insideStays = node.insideStays := by
  match node with
  | .element tag children span =>
    exact congrArg (holdsRawText tag.name || ·) (textsStay_minifyAttributes options .plain children)
  | .text _ _ | .comment _ _ => rfl

theorem textsStay_minifyAttributes (options : Reductions) (state : TextState) (nodes : List Node) :
    textsStay state (minifyAttributes options nodes) = textsStay state nodes := by
  match nodes with
  | [] => rfl
  | .text value span :: nodes =>
    exact textsStay_minifyAttributes options (state.run value.toList) nodes
  | .comment value span :: nodes =>
    exact congrArg (state.isText && ·) (textsStay_minifyAttributes options .plain nodes)
  | .element tag children span :: nodes =>
    have hinside := Node.insideStays_minifyAttributes options (.element tag children span)
    have hnodes := textsStay_minifyAttributes options .plain nodes
    change (state.isText &&
      ((Node.mapParts (Tag.minify options) id id (.element tag children span)).insideStays &&
      textsStay .plain (minifyAttributes options nodes))) = _
    rw [hinside, hnodes]
    rfl

end

/-! ### All together -/

/-- The tree without its comments, if these are to be removed. -/
def uncommented (options : Reductions) (nodes : List Node) : List Node :=
  if options.removeComments then dropComments nodes else nodes

theorem reduceNodes_eq (options : Reductions) (nodes : List Node) :
    reduceNodes options nodes =
      minifyAttributes options
        (if options.collapseWhitespace then collapseBlanks (uncommented options nodes)
          else uncommented options nodes) := rfl

section ReduceNodes

variable {nodes : List Node} (h : Written nodes) (options : Reductions)
include h

/-- The first of the three steps, if it is asked for. -/
theorem Written.uncommented : Written (uncommented options nodes) := by
  unfold Markup.uncommented
  split
  next => exact h.dropComments
  next => exact h

/-- **What minification makes of markup can be written**, and its tags end in a slash where they
did. -/
theorem Written.reduceNodes : Written (reduceNodes options nodes) := by
  have hkept := h.uncommented options
  rw [reduceNodes_eq]
  refine Written.minifyAttributes ?_ options
  split
  next => exact hkept.collapseBlanks
  next => exact hkept

theorem Written.noneEndsInSlash_reduceNodes :
    NoneEndsInSlash (Markup.reduceNodes options nodes) ↔ NoneEndsInSlash nodes := by
  have hkept := h.uncommented options
  have hcomments : NoneEndsInSlash (Markup.uncommented options nodes) ↔ NoneEndsInSlash nodes := by
    unfold Markup.uncommented
    split
    next => exact h.noneEndsInSlash_dropComments
    next => rfl
  rw [← hcomments, reduceNodes_eq]
  split
  next =>
    rw [hkept.collapseBlanks.noneEndsInSlash_minifyAttributes options]
    exact hkept.noneEndsInSlash_collapseBlanks
  next => exact hkept.noneEndsInSlash_minifyAttributes options

/-- Only dropping comments can make something else of texts. -/
theorem Written.textsStay_reduceNodes :
    textsStay .plain (Markup.reduceNodes options nodes) =
      textsStay .plain (Markup.uncommented options nodes) := by
  have hkept := h.uncommented options
  rw [reduceNodes_eq, textsStay_minifyAttributes]
  split
  next => exact hkept.textsStay_collapseBlanks
  next => rfl

end ReduceNodes

/-- **Smaller markup is read as the smaller tree**, neighbouring texts joined, if and only if no tag
ends in a slash and the texts that come together where comments are removed stay text. -/
theorem parse_minify_iff {options : Reductions} {source out : String} {nodes : List Node}
    (hparse : parse source = .ok nodes) (hoptions : options.changesNothing = false)
    (hminify : minify options source = .ok out) :
    (∃ nodes', parse out = .ok nodes' ∧ stripAll nodes' =
      stripAll (joinTexts (reduceNodes options nodes))) ↔
      NoneEndsInSlash nodes ∧
        (options.removeComments = true → textsStay .plain (dropComments nodes) = true) := by
  obtain ⟨stop, hreads⟩ := parse_eq_ok_iff.1 hparse
  have hprintable := hreads.printable
  have hwritten := hprintable.written
  have hout : out = renderNodes (reduceNodes options nodes) := by
    rw [minify, hoptions, hparse] at hminify
    exact (Except.ok.inj hminify).symm
  rw [hout, (hwritten.reduceNodes options).parse_renderNodes_iff,
    hwritten.noneEndsInSlash_reduceNodes options, hwritten.textsStay_reduceNodes options]
  unfold uncommented
  split
  next hon => simp [hon]
  next hoff => simp [hoff, hprintable.textsStay]

/-- Where a comment is dropped, the two texts around it are written as one. -/
theorem parse_minify_iff_standard :
    minify .standard "a <!-- b --> c" = .ok "a  c" ∧
      ∃ nodes', parse "a  c" = .ok nodes' ∧ stripAll nodes' = [.text "a  c" ⟨0, 0⟩] := by
  have hparse : parse "a <!-- b --> c" =
      .ok [.text "a " ⟨0, 2⟩, .comment " b " ⟨2, 12⟩, .text " c" ⟨12, 14⟩] := by
    with_unfolding_all rfl
  have hminify : minify .standard "a <!-- b --> c" = .ok "a  c" := by
    rw [minify, hparse]
    rfl
  refine ⟨hminify, (parse_minify_iff hparse rfl hminify).2 ⟨?_, fun _ => ?_⟩⟩
  · exact noneEndsInSlash_nil
  · rfl

/-- **Smaller markup that cannot be read**: where a comment is removed and two texts open a tag, and
where a value without quotes, which ends in a slash, comes to stand before the end of its tag. -/
theorem minify_loses_tree :
    (parse "<<!-- x -->b" = .ok [.text "<" ⟨0, 1⟩, .comment " x " ⟨1, 11⟩, .text "b" ⟨11, 12⟩] ∧
      minify { removeComments := true } "<<!-- x -->b" = .ok "<b" ∧
      parse "<b" = .error (.unexpectedEnd 2 .tagEnd)) ∧
    (parse "<a x=b/ >t</a>" =
        .ok [.element ⟨"a", [⟨"x", some "b/", .none, ⟨3, 7⟩⟩], false⟩ [.text "t" ⟨9, 10⟩] ⟨0, 14⟩] ∧
      minify { removeComments := true } "<a x=b/ >t</a>" = .ok "<a x=b/>t</a>" ∧
      parse "<a x=b/>t</a>" = .error (.invalidSyntax ⟨9, 12⟩ (.strayClosingTag "a"))) := by
  -- The tokens are computed; the tree before minification is read by the grammar.
  have hangle : lexContent "<b".toList = some ⟨[], "<b".toList, .ok (.openTag "b"), []⟩ := rfl
  have hclosed : lexContent "<a x=b/>t</a>".toList =
      some ⟨[], "<a".toList, .ok (.openTag "a"), " x=b/>t</a>".toList⟩ := rfl
  have hspaced : lexContent "<a x=b/ >t</a>".toList =
      some ⟨[], "<a".toList, .ok (.openTag "a"), " x=b/ >t</a>".toList⟩ := rfl
  have htag : readTag 2 " x=b/ >t</a>".toList =
      .ok ⟨[⟨"x", some "b/", .none, ⟨3, 7⟩⟩], false, 9, "t</a>".toList⟩ := by
    with_unfolding_all rfl
  have hopen : OpensWith 0 "<a x=b/ >t</a>".toList ⟨"a", [⟨"x", some "b/", .none, ⟨3, 7⟩⟩], false⟩ 9
      "t</a>".toList :=
    opensWith_of_lexContent hspaced rfl htag
  have hclose : ClosesWith "a".toList 10 "</a>".toList 14 [] :=
    ⟨['a'], [], ⟨'a', [], rfl, rfl, by simp⟩, rfl, blanks_nil, rfl, rfl⟩
  have hlexes : Lexes ['t'] (.text "t") "</a>".toList := .text (by simp) (by simp) (by simp [Stops])
  have hinside : Reads 9 "t</a>".toList [.text "t" ⟨9, 10⟩] 10 "</a>".toList :=
    .text (List.cons_ne_nil _ _) (.step hlexes rfl (.refl _)) hclose.atEdge .nil
  have htree := parse_eq_ok_iff.2 ⟨14, Reads.branch hopen rfl rfl hinside hclose .nil⟩
  have htexts : parse "<<!-- x -->b" =
      .ok [.text "<" ⟨0, 1⟩, .comment " x " ⟨1, 11⟩, .text "b" ⟨11, 12⟩] := by
    with_unfolding_all rfl
  refine ⟨⟨htexts, ?_, ?_⟩, htree, ?_, ?_⟩
  · rw [minify, htexts]
    rfl
  · rw [parse, parseNodes_step hangle]
    with_unfolding_all rfl
  · rw [minify, htree]
    rfl
  · rw [parse, parseNodes_step hclosed]
    with_unfolding_all rfl

end Triptych.Markup
