import Mathlib.Tactic.NthRewrite
import Triptych.Proofs.Markup.Levels

/-!
# Words of inline content

The words of a tree are those of its texts, put together in the order of the document. In a tree of
texts and inline elements blanks are collapsed without splitting a word, but words may be joined
(`words_reduceNodes`): a text of blanks only is dropped where it is the first or the last child of
an element, although the words before and behind that element may have no other blank between them
(`minify_joins_words`).

A run of blanks that is squeezed stays a run of blanks, and as long as something is left of each run
the words are the same (`Respaced`). What is left to look at are the blanks that are dropped: every
character of a text is a `Letter`, which knows whether it goes, and the words that are left are
compared letter by letter (`words_keptChars`).
-/

namespace Triptych.Markup

open Text

/-! ### Words -/

/-- The words of a text, with blanks between them. -/
def words (text : List Char) : List (List Char) :=
  (text.splitOnP isBlank).filter (!·.isEmpty)

/-- True when the text starts with a visible character. -/
def startsVisible (text : List Char) : Bool :=
  text.head?.any (!isBlank ·)

/-- The second words are the first ones, some of them joined to the word behind. -/
inductive Joins : List (List Char) → List (List Char) → Prop
  | nil : Joins [] []
  | keep (word : List Char) {rest rest' : List (List Char)} : Joins rest rest' →
      Joins (word :: rest) (word :: rest')
  | join (word : List Char) {rest rest' : List (List Char)} {next : List Char} :
      Joins rest (next :: rest') → Joins (word :: rest) ((word ++ next) :: rest')

@[simp] theorem words_nil : words [] = [] := rfl

/-- A blank parts two texts into words of their own. -/
theorem words_append_blank {c : Char} (hc : isBlank c = true) (text more : List Char) :
    words (text ++ c :: more) = words text ++ words more := by
  rw [words, List.splitOnP_append_cons text more hc, List.filter_append]
  rfl

theorem words_cons_blank {c : Char} (hc : isBlank c = true) (text : List Char) :
    words (c :: text) = words text :=
  words_append_blank hc [] text

/-- Blanks at the start or at the end are in no word. -/
theorem words_blanks_append {gap : List Char} (h : ∀ c ∈ gap, isBlank c = true) (text : List Char) :
    words (gap ++ text) = words text := by
  induction gap with
  | nil => rfl
  | cons c gap ih =>
    obtain ⟨hc, hgap⟩ := List.forall_mem_cons.1 h
    rw [List.cons_append, words_cons_blank hc, ih hgap]

theorem words_append_blanks {gap : List Char} (h : ∀ c ∈ gap, isBlank c = true) (text : List Char) :
    words (text ++ gap) = words text := by
  cases gap with
  | nil => rw [List.append_nil]
  | cons c gap =>
    obtain ⟨hc, hgap⟩ := List.forall_mem_cons.1 h
    have hnone := words_blanks_append hgap []
    rw [List.append_nil] at hnone
    rw [words_append_blank hc, hnone, words_nil, List.append_nil]

/-- A visible character is a word of its own unless another one follows. -/
theorem words_cons_alone {c : Char} (hc : isBlank c = false) {text : List Char}
    (h : startsVisible text = false) :
    words (c :: text) = [c] :: words text := by
  have hword : words [c] = [[c]] := by
    rw [words, List.splitOnP_eq_singleton (List.forall_mem_singleton.2 hc)]
    rfl
  cases text with
  | nil => exact hword
  | cons d text =>
    have hd : isBlank d = true := by simpa [startsVisible] using h
    have hsplit := words_append_blank hd [c] text
    rw [hword] at hsplit
    rw [words_cons_blank hd]
    exact hsplit

/-- A visible character belongs to the word that follows it. -/
theorem words_cons_visible {c : Char} (hc : isBlank c = false) {text : List Char}
    (h : startsVisible text = true) :
    ∃ word rest, word ≠ [] ∧ words text = word :: rest ∧
      words (c :: text) = (c :: word) :: rest := by
  cases text with
  | nil => contradiction
  | cons d text =>
    have hd : isBlank d = false := by simpa [startsVisible] using h
    obtain ⟨part, parts, hparts⟩ := List.exists_cons_of_ne_nil (List.splitOnP_ne_nil isBlank text)
    refine ⟨d :: part, parts.filter (!·.isEmpty), List.cons_ne_nil _ _, ?_, ?_⟩
    · simp [words, List.splitOnP_cons_eq_if_modifyHead, hd, hparts]
    · simp [words, List.splitOnP_cons_eq_if_modifyHead, hc, hd, hparts]

/-! ### Other blanks in the same places -/

/-- Two texts that differ in their blanks only, and have blanks in the same places. -/
inductive Respaced : List Char → List Char → Prop
  | nil : Respaced [] []
  | same (c : Char) {text text' : List Char} : Respaced text text' →
      Respaced (c :: text) (c :: text')
  | gap {gap gap' text text' : List Char} : gap ≠ [] → gap' ≠ [] → (∀ c ∈ gap, isBlank c = true) →
      (∀ c ∈ gap', isBlank c = true) → Respaced text text' → Respaced (gap ++ text) (gap' ++ text')

namespace Respaced

variable {text text' more more' : List Char}

/-- Respaced texts may be put one behind the other. -/
theorem append (h : Respaced text text') (hmore : Respaced more more') :
    Respaced (text ++ more) (text' ++ more') := by
  induction h with
  | nil => exact hmore
  | same c _ ih => exact .same c ih
  | gap hne hne' hblanks hblanks' _ ih =>
    rw [List.append_assoc, List.append_assoc]
    exact .gap hne hne' hblanks hblanks' ih

/-- Whether a text starts with a visible character does not depend on how its blanks look, and
whether it is blank does not either. -/
theorem startsVisible_eq (h : Respaced text text') : startsVisible text = startsVisible text' := by
  have hgap {gap : List Char} (hne : gap ≠ []) (hblanks : ∀ c ∈ gap, isBlank c = true)
    (text : List Char) :
      startsVisible (gap ++ text) = false := by
    cases gap with
    | nil => contradiction
    | cons c gap => simp [startsVisible, hblanks c List.mem_cons_self]
  cases h with
  | nil | same => rfl
  | gap hne hne' hblanks hblanks' => rw [hgap hne hblanks, hgap hne' hblanks']

theorem isBlankText_eq (h : Respaced text text') : isBlankText text = isBlankText text' := by
  unfold isBlankText
  induction h with
  | nil => rfl
  | same c _ ih => rw [List.all_cons, List.all_cons, ih]
  | gap _ _ hblanks hblanks' _ ih =>
    rw [List.all_append, List.all_append, List.all_eq_true.2 hblanks, List.all_eq_true.2 hblanks',
      ih]

/-- **Blanks in the same places make the same words.** -/
theorem words_eq (h : Respaced text text') : words text = words text' := by
  induction h with
  | nil => rfl
  | same c h ih =>
    cases hc : isBlank c with
    | true => rw [words_cons_blank hc, words_cons_blank hc, ih]
    | false =>
      cases hstart : startsVisible _ with
      | false =>
        rw [words_cons_alone hc hstart, words_cons_alone hc (h.startsVisible_eq ▸ hstart), ih]
      | true =>
        obtain ⟨word, rest, -, hwords, hcons⟩ := words_cons_visible hc hstart
        obtain ⟨word', rest', -, hwords', hcons'⟩ :=
          words_cons_visible hc (h.startsVisible_eq ▸ hstart)
        obtain ⟨rfl, rfl⟩ := List.cons.inj (hwords.symm.trans (ih.trans hwords'))
        rw [hcons, hcons']
  | gap _ _ hblanks hblanks' _ ih =>
    rw [words_blanks_append hblanks, words_blanks_append hblanks', ih]

end Respaced

/-- Squeezing leaves one space of each run; in the middle of a run nothing is left of its rest. -/
theorem respaced_squeezeBlanks_aux (text : List Char) :
    Respaced text (squeezeBlanks false text) ∧
      ∃ gap rest, text = gap ++ rest ∧ (∀ c ∈ gap, isBlank c = true) ∧
      Respaced rest (squeezeBlanks true text) := by
  -- Both halves go through the text at once: behind a blank the second is what is needed, else the
  -- first.
  induction text with
  | nil => exact ⟨.nil, [], [], rfl, List.forall_mem_nil _, .nil⟩
  | cons c text ih =>
    obtain ⟨hfresh, gap, rest, htext, hgap, hrun⟩ := ih
    cases hc : isBlank c with
    | true =>
      have hblanks : ∀ d ∈ c :: gap, isBlank d = true := List.forall_mem_cons.2 ⟨hc, hgap⟩
      refine ⟨?_, c :: gap, rest, by rw [htext]; rfl, hblanks, ?_⟩
      · rw [squeezeBlanks, if_pos hc, if_neg Bool.false_ne_true]
        nth_rewrite 1 [htext]
        exact .gap (List.cons_ne_nil c gap) (List.cons_ne_nil ' ' []) hblanks
          (List.forall_mem_singleton.2 rfl) hrun
      · rwa [squeezeBlanks, if_pos hc, if_pos rfl]
    | false =>
      have hsame (inRun : Bool) : Respaced (c :: text) (squeezeBlanks inRun (c :: text)) := by
        rw [squeezeBlanks, if_neg (by simp [hc])]
        exact .same c hfresh
      exact ⟨hsame false, [], c :: text, rfl, List.forall_mem_nil _, hsame true⟩

/-- **Squeezing only respaces a text.** -/
theorem respaced_squeezeBlanks (text : List Char) : Respaced text (squeezeBlanks false text) :=
  (respaced_squeezeBlanks_aux text).1

/-! ### Letters -/

/-- A character of a text; `atEdge` tells whether it is one of the blanks at the edge of a level. -/
structure Letter where
  char : Char
  atEdge : Bool
deriving DecidableEq, Repr

/-- The characters that are left without the blanks at edges. -/
def keptChars (letters : List Letter) : List Char :=
  (letters.filter (!·.atEdge)).map Letter.char

/-- Two visible characters have blanks at edges between them and nothing else. -/
def MeetAtEdge (letters : List Letter) : Prop :=
  ∃ before left edge right after, letters = before ++ left :: (edge ++ right :: after) ∧
    isBlank left.char = false ∧ isBlank right.char = false ∧ edge ≠ [] ∧
    ∀ letter ∈ edge, letter.atEdge = true

/-- Only blanks are at edges. -/
def BlankAtEdges (letters : List Letter) : Prop :=
  ∀ letter ∈ letters, letter.atEdge = true → isBlank letter.char = true

instance (letters : List Letter) : Decidable (BlankAtEdges letters) :=
  inferInstanceAs (Decidable (∀ letter ∈ letters, _))

theorem not_meetAtEdge_nil : ¬ MeetAtEdge [] := by
  rintro ⟨before, _, _, _, _, heq, -⟩
  simp at heq

/-- A visible character is not at an edge. -/
theorem BlankAtEdges.atEdge_eq_false {letters : List Letter} (h : BlankAtEdges letters)
    {letter : Letter} (hmem : letter ∈ letters) (hvisible : isBlank letter.char = false) :
    letter.atEdge = false := by
  rw [Bool.eq_false_iff]
  intro hat
  rw [h letter hmem hat] at hvisible
  contradiction

/-- Where the characters that are left start with a visible one although the letters do not, blanks
at edges stood before it. -/
theorem startsVisible_keptChars_iff {letters : List Letter} (h : BlankAtEdges letters) :
    startsVisible (letters.map Letter.char) = false ∧ startsVisible (keptChars letters) = true ↔
      ∃ edge right after, letters = edge ++ right :: after ∧ isBlank right.char = false ∧
        edge ≠ [] ∧
        ∀ letter ∈ edge, letter.atEdge = true := by
  -- The first character that is kept is that of the first letter that is not at an edge.
  have hkept : startsVisible (keptChars letters) =
      (letters.find? (!·.atEdge)).any (!isBlank ·.char) := by
    rw [startsVisible, keptChars, List.head?_map, List.head?_filter, Option.any_map]
  rw [hkept]
  constructor
  · rintro ⟨hstart, hfind⟩
    obtain ⟨right, hright, hvisible⟩ := (Option.any_eq_true _ _).1 hfind
    -- All letters before it are at an edge, and there is one, since the first letter is a blank.
    obtain ⟨-, edge, after, rfl, hedge⟩ := List.find?_eq_some_iff_append.1 hright
    refine ⟨edge, right, after, rfl, by simpa using hvisible, ?_, by simpa using hedge⟩
    rintro rfl
    rw [startsVisible, List.nil_append, List.map_cons, List.head?_cons, Option.any_some,
      hvisible] at hstart
    contradiction
  · rintro ⟨edge, right, after, rfl, hvisible, hne, hedge⟩
    obtain ⟨first, edge, rfl⟩ := List.exists_cons_of_ne_nil hne
    -- The letters before the visible one are blanks and go.
    have hfirst : isBlank first.char = true :=
      h first List.mem_cons_self (hedge first List.mem_cons_self)
    have hright : right.atEdge = false :=
      h.atEdge_eq_false (List.mem_append_right _ List.mem_cons_self) hvisible
    refine ⟨by simp [startsVisible, hfirst], ?_⟩
    have hfind : ((first :: edge) ++ right :: after).find? (!·.atEdge) = some right :=
      List.find?_eq_some_iff_append.2
        ⟨by simp [hright], first :: edge, after, rfl, by simpa using hedge⟩
    rw [hfind, Option.any_some, hvisible]
    rfl

/-- **Where two characters meet, seen from the first letter**: it is visible, blanks at edges follow
it, and without them it stands before a visible character; or the two are further on. -/
theorem meetAtEdge_cons_iff {letter : Letter} {letters : List Letter} (h : BlankAtEdges letters) :
    MeetAtEdge (letter :: letters) ↔
      (isBlank letter.char = false ∧ startsVisible (letters.map Letter.char) = false ∧
        startsVisible (keptChars letters) = true) ∨ MeetAtEdge letters := by
  rw [startsVisible_keptChars_iff h]
  constructor
  · rintro ⟨before, left, edge, right, after, heq, hleft, hright, hne, hedge⟩
    cases before with
    | nil =>
      obtain ⟨rfl, rfl⟩ := List.cons.inj heq
      exact .inl ⟨hleft, edge, right, after, rfl, hright, hne, hedge⟩
    | cons first before =>
      obtain ⟨-, rfl⟩ := List.cons.inj heq
      exact .inr ⟨before, left, edge, right, after, rfl, hleft, hright, hne, hedge⟩
  · rintro (⟨hleft, edge, right, after, rfl, hright, hne, hedge⟩ |
      ⟨before, left, edge, right, after, rfl, hleft, hright, hne, hedge⟩)
    · exact ⟨[], letter, edge, right, after, rfl, hleft, hright, hne, hedge⟩
    · exact ⟨letter :: before, left, edge, right, after, rfl, hleft, hright, hne, hedge⟩

/-- A visible character at the start is kept. -/
theorem startsVisible_keptChars {letters : List Letter} (h : BlankAtEdges letters)
    (hstart : startsVisible (letters.map Letter.char) = true) :
    startsVisible (keptChars letters) = true := by
  cases letters with
  | nil => contradiction
  | cons letter letters =>
    have hvisible : isBlank letter.char = false := by simpa [startsVisible] using hstart
    rw [keptChars, List.filter_cons_of_pos
      (by simp [h.atEdge_eq_false List.mem_cons_self hvisible])]
    exact hstart

/-- The first word is written with one more character. -/
theorem Joins.cons_char {word word' : List Char} {rest rest' : List (List Char)}
    (h : Joins (word :: rest) (word' :: rest')) (c : Char) :
    Joins ((c :: word) :: rest) ((c :: word') :: rest') := by
  cases h with
  | keep _ h => exact .keep _ h
  | join _ h => exact .join _ h

/-- **What dropping the blanks at edges does to words**: it splits none, and joins some exactly if
two visible characters meet. -/
theorem words_keptChars {letters : List Letter} (h : BlankAtEdges letters) :
    Joins (words (letters.map Letter.char)) (words (keptChars letters)) ∧
      (words (keptChars letters) = words (letters.map Letter.char) ↔ ¬ MeetAtEdge letters) := by
  induction letters with
  | nil => exact ⟨.nil, iff_of_true rfl not_meetAtEdge_nil⟩
  | cons letter letters ih =>
    have hletters : BlankAtEdges letters := (List.forall_mem_cons.1 h).2
    obtain ⟨hjoins, hsame⟩ := ih hletters
    rw [meetAtEdge_cons_iff hletters, List.map_cons]
    cases hc : isBlank letter.char with
    | true =>
      -- A blank belongs to no word, whether it is dropped or not.
      have hkept : words (keptChars (letter :: letters)) = words (keptChars letters) := by
        rw [keptChars, List.filter_cons]
        split
        · exact words_cons_blank hc _
        · rfl
      rw [hkept, words_cons_blank hc, hsame]
      exact ⟨hjoins, by simp⟩
    | false =>
      have hkept : keptChars (letter :: letters) = letter.char :: keptChars letters := by
        rw [keptChars, List.filter_cons_of_pos (by simp [h.atEdge_eq_false List.mem_cons_self hc])]
        rfl
      rw [hkept]
      cases hall : startsVisible (letters.map Letter.char) with
      | true =>
        -- The character stands before a word, which is still there when blanks at edges are gone.
        obtain ⟨word, rest, -, hwords, hcons⟩ := words_cons_visible hc hall
        obtain ⟨word', rest', -, hwords', hcons'⟩ :=
          words_cons_visible hc (startsVisible_keptChars hletters hall)
        rw [hwords, hwords'] at hjoins hsame
        rw [hcons, hcons']
        refine ⟨hjoins.cons_char _, ?_⟩
        simpa using hsame
      | false =>
        rw [words_cons_alone hc hall]
        cases hleft : startsVisible (keptChars letters) with
        | true =>
          -- All that stood between it and the next word is gone: here, and only here, two words are
          -- joined.
          obtain ⟨word', rest', hne, hwords', hcons'⟩ := words_cons_visible hc hleft
          rw [hwords'] at hjoins
          rw [hcons']
          refine ⟨.join [letter.char] hjoins, ?_⟩
          simp [hne]
        | false =>
          rw [words_cons_alone hc hleft]
          refine ⟨.keep _ hjoins, ?_⟩
          simpa using hsame

/-! ### The text of a tree -/

mutual

/-- The texts in a node, put together. -/
def Node.shownText : Node → List Char
  | .element _ children _ => shownText children
  | .text value _ => value.toList
  | .comment _ _ => []

/-- All texts put together, in the order of the document. -/
def shownText : List Node → List Char
  | [] => []
  | node :: nodes => node.shownText ++ shownText nodes

end

mutual

/-- The letters of a node; `atEdge` tells whether it is the first or the last of its level. -/
def Node.letters (atEdge : Bool) : Node → List Letter
  | .element _ children _ => letters true children
  | .text value _ => value.toList.map fun c => ⟨c, atEdge && Text.isBlankText value.toList⟩
  | .comment _ _ => []

/-- The letters of nodes that follow each other on a level; `first` tells whether they are the first
ones. A letter is at an edge if it belongs to a text of blanks only that is the first or the last of
its level. -/
def letters (first : Bool) : List Node → List Letter
  | [] => []
  | node :: nodes => node.letters (first || nodes.isEmpty) ++ letters false nodes

end

mutual

/-- True of a text, and of an inline element with inline content. -/
def Node.isInlineContent : Node → Bool
  | .element tag children _ => isInlineName tag.name && !isNamedIn ["textarea"] tag.name &&
      isInlineContent children
  | .text _ _ => true
  | .comment _ _ => false

/-- True of texts and inline elements, at any depth, none of which is a field of text. -/
def isInlineContent : List Node → Bool
  | [] => true
  | node :: nodes => node.isInlineContent && isInlineContent nodes

end

/-- The letters are the text that the page shows. -/
theorem map_char_letters (first : Bool) (nodes : List Node) :
    (letters first nodes).map Letter.char = shownText nodes := by
  match nodes with
  | [] => rfl
  | .element tag children span :: nodes =>
    rw [letters, Node.letters, List.map_append, map_char_letters, map_char_letters]
    rfl
  | .text value span :: nodes =>
    rw [letters, Node.letters, List.map_append, List.map_map, map_char_letters, shownText,
      Node.shownText]
    exact congrArg (· ++ _) (List.map_id _)
  | .comment value span :: nodes => exact map_char_letters false nodes

/-- What stands at an edge in markup are blanks. -/
theorem blankAtEdges_letters (first : Bool) (nodes : List Node) :
    BlankAtEdges (letters first nodes) := by
  match nodes with
  | [] => exact nofun
  | .element tag children span :: nodes =>
    exact List.forall_mem_append.2 ⟨blankAtEdges_letters true children,
      blankAtEdges_letters false nodes⟩
  | .text value span :: nodes =>
    refine List.forall_mem_append.2 ⟨List.forall_mem_map.2 fun c hc hat =>
      ?_, blankAtEdges_letters false nodes⟩
    exact List.all_eq_true.1 (Bool.and_eq_true_iff.1 hat).2 c hc
  | .comment value span :: nodes => exact blankAtEdges_letters false nodes

/-- What is kept of letters one behind the other is what is kept of each. -/
theorem keptChars_append (letters more : List Letter) :
    keptChars (letters ++ more) = keptChars letters ++ keptChars more := by
  rw [keptChars, List.filter_append, List.map_append]
  rfl

/-- A text stays, or goes as a whole. -/
theorem keptChars_letters_text (atEdge : Bool) (value : String) (span : Span) :
    keptChars (Node.letters atEdge (.text value span)) =
      if atEdge && Text.isBlankText value.toList then [] else value.toList := by
  rw [keptChars, Node.letters]
  generalize (atEdge && Text.isBlankText value.toList) = gone
  cases gone <;> simp [List.filter_map, Function.comp_def]

/-- The page does not show attributes. -/
theorem shownText_minifyAttributes (options : Reductions) (nodes : List Node) :
    shownText (minifyAttributes options nodes) = shownText nodes := by
  match nodes with
  | [] => rfl
  | .element tag children span :: nodes =>
    have hchildren := shownText_minifyAttributes options children
    have hnodes := shownText_minifyAttributes options nodes
    rw [minifyAttributes_element, shownText, Node.shownText, hchildren, hnodes]
    rfl
  | .text value span :: nodes | .comment value span :: nodes =>
    exact congrArg (_ ++ ·) (shownText_minifyAttributes options nodes)

/-! ### Inline levels -/

/-- A node with inline content all the way down is inline. -/
theorem isInline_of_isInlineContent {node : Node} (h : node.isInlineContent = true) :
    node.isInline = true := by
  cases node with
  | element tag children span =>
    rw [Node.isInlineContent, Bool.and_eq_true, Bool.and_eq_true] at h
    exact h.1.1
  | text => rfl
  | comment => contradiction

/-- Of the inline elements only the field of text keeps its blanks. -/
theorem keepsBlanks_eq_false {name : String} (hinline : isInlineName name = true)
    (harea : isNamedIn ["textarea"] name = false) : keepsBlanks name = false := by
  have hlists : ∀ kept ∈ blankKeepingElements, ∀ inline ∈ inlineElements,
      lower kept.toList = lower inline.toList → kept = "textarea" := by
    decide +kernel
  rw [Bool.eq_false_iff]
  intro hkeeps
  obtain ⟨kept, hkept, hname⟩ := List.any_eq_true.1 hkeeps
  obtain ⟨inline, hmem, hname'⟩ := List.any_eq_true.1 hinline
  have hlower : lower kept.toList = lower name.toList := beq_iff_eq.1 hname
  obtain rfl := hlists kept hkept inline hmem (hlower.trans (beq_iff_eq.1 hname').symm)
  have hyes : isNamedIn ["textarea"] name = true :=
    List.any_eq_true.2 ⟨_, List.mem_cons_self, hname⟩
  rw [harea] at hyes
  contradiction

/-- Among inline nodes the first one is inline, if there is one. -/
theorem head?_collapse {nodes : List Node} (h : isInlineContent nodes = true) :
    ((collapseEach nodes).map Node.collapseText).head?.any Node.isInline = !nodes.isEmpty := by
  cases nodes with
  | nil => rfl
  | cons node nodes =>
    rw [isInlineContent, Bool.and_eq_true] at h
    have hinline := isInline_of_isInlineContent h.1
    cases node with
    | element tag children span =>
      rw [collapseEach, Node.collapseInside]
      split <;> exact hinline
    | text => rfl
    | comment => contradiction

/-- **What becomes of an inline level**: the blanks at edges go, and the others stay in their
places. -/
theorem respaced_dropLooseBlanks {nodes : List Node} (h : isInlineContent nodes = true)
    (before : Option Node) (hbefore : ∀ node ∈ before, node.isInline = true) :
    Respaced (keptChars (letters before.isNone nodes))
      (shownText (dropLooseBlanks before ((collapseEach nodes).map Node.collapseText))) := by
  match nodes with
  | [] => exact .nil
  | .comment value span :: nodes => contradiction
  | .element tag children span :: nodes =>
    rw [isInlineContent, Node.isInlineContent, Bool.and_eq_true, Bool.and_eq_true, Bool.and_eq_true,
      Bool.not_eq_true'] at h
    obtain ⟨⟨⟨hinline, harea⟩, hchildren⟩, hnodes⟩ := h
    have hinside : Node.collapseInside (.element tag children span) =
        .element tag (settle true (collapseEach children)) span := by
      rw [Node.collapseInside, keepsBlanks_eq_false hinline harea, hinline]
      rfl
    -- The level inside has its own edges, whatever stands around the element.
    have hfirst := respaced_dropLooseBlanks hchildren none fun node hnode =>
      absurd hnode (Option.not_mem_none node)
    have hrest :=
      respaced_dropLooseBlanks hnodes
      (some (.element tag (settle true (collapseEach children)) span))
      fun node hnode => Option.mem_some.1 hnode ▸ hinline
    rw [collapseEach, hinside, letters, Node.letters, keptChars_append]
    exact hfirst.append hrest
  | .text value span :: nodes =>
    have hnodes : isInlineContent nodes = true := h
    have hsqueezed := respaced_squeezeBlanks value.toList
    have hrest :=
      respaced_dropLooseBlanks hnodes
      (some (.text (String.ofList (squeezeBlanks false value.toList)) span))
      fun node hnode => Option.mem_some.1 hnode ▸ rfl
    -- Among inline neighbours a text of blanks is dropped exactly if it is the first or the last.
    have hgone : ((Node.text (String.ofList (squeezeBlanks false value.toList)) span).isBlankText &&
        !(before.any Node.isInline && ((collapseEach nodes).map Node.collapseText).head?.any
          Node.isInline)) =
          ((before.isNone || nodes.isEmpty) && Text.isBlankText value.toList) := by
      have hinline : before.any Node.isInline = !before.isNone := by
        cases before with
        | none => rfl
        | some node => exact hbefore node rfl
      rw [Node.isBlankText, String.toList_ofList, ← hsqueezed.isBlankText_eq, hinline,
        head?_collapse hnodes, Bool.not_and, Bool.not_not, Bool.not_not, Bool.and_comm]
    have hlevel : (collapseEach (.text value span :: nodes)).map Node.collapseText =
        .text (String.ofList (squeezeBlanks false value.toList)) span ::
          (collapseEach nodes).map Node.collapseText := rfl
    rw [letters, keptChars_append, keptChars_letters_text, hlevel, dropLooseBlanks, hgone]
    split
    next => exact hrest
    next =>
      rw [shownText, Node.shownText, String.toList_ofList]
      exact hsqueezed.append hrest

/-! ### Trimming -/

/-- **What the page shows after each step**: an empty text shows nothing. -/
theorem shownText_filter (nodes : List Node) :
    shownText (nodes.filter fun node => !node.isEmptyText) = shownText nodes := by
  induction nodes with
  | nil => rfl
  | cons node nodes ih =>
    rw [List.filter_cons]
    split
    next => rw [shownText, shownText, ih]
    next hempty =>
      obtain ⟨span, rfl⟩ := Node.isEmptyText_iff.1 (by simpa using hempty)
      exact ih

/-- The blanks that are trimmed are in no word. -/
theorem words_shownText_trimFirst (nodes : List Node) :
    words (shownText (trimFirst nodes)) = words (shownText nodes) := by
  match nodes with
  | [] | .element _ _ _ :: _ | .comment _ _ :: _ => rfl
  | .text value span :: nodes =>
    have hsplit : value.toList.takeWhile isBlank ++ (trimStart value.toList ++ shownText nodes) =
        value.toList ++ shownText nodes := by
      rw [← List.append_assoc, trimStart, List.takeWhile_append_dropWhile]
    rw [trimFirst, Node.mapText, shownText, Node.shownText, String.toList_ofList, shownText,
      Node.shownText, ← hsplit, words_blanks_append fun c hc => of_mem_takeWhile hc]

theorem words_shownText_trimLast (nodes : List Node) :
    words (shownText (trimLast nodes)) = words (shownText nodes) := by
  have hgone : ∃ gap, (∀ c ∈ gap, isBlank c = true) ∧
      shownText nodes = shownText (trimLast nodes) ++ gap := by
    fun_induction trimLast nodes with
    | case1 => exact ⟨[], List.forall_mem_nil _, rfl⟩
    | case2 node =>
      cases node with
      | element | comment => exact ⟨[], List.forall_mem_nil _, (List.append_nil _).symm⟩
      | text value span =>
        obtain ⟨gap, hgap, hsplit⟩ := exists_trimEnd_append value.toList
        refine ⟨gap, hgap, ?_⟩
        simpa [shownText, Node.shownText, Node.mapText] using hsplit
    | case3 node next nodes ih =>
      obtain ⟨gap, hgap, hsplit⟩ := ih
      exact ⟨gap, hgap, by rw [shownText, hsplit, shownText, List.append_assoc]⟩
  obtain ⟨gap, hgap, hsplit⟩ := hgone
  rw [hsplit, words_append_blanks hgap]

/-- At the outermost level blanks at edges are before or behind all words. -/
theorem words_shownText_settle (inline : Bool) (nodes : List Node) :
    words (shownText (settle inline nodes)) =
      words (shownText (dropLooseBlanks none (nodes.map Node.collapseText))) := by
  cases inline with
  | true => rfl
  | false =>
    rw [settle_false, shownText_filter, words_shownText_trimLast, words_shownText_trimFirst]

/-! ### Words of smaller markup -/

/-- **What collapsing blanks does to the words of inline content.** No word is split: the words are
those of the tree, some of them joined to the word behind. They are the same words exactly if
nowhere in the tree two visible characters have nothing between them but texts of blanks that are
each the first or the last of their level. -/
theorem words_reduceNodes {nodes : List Node} (h : isInlineContent nodes = true) :
    Joins (words (shownText nodes))
      (words (shownText (reduceNodes { collapseWhitespace := true } nodes))) ∧
      (words (shownText (reduceNodes { collapseWhitespace := true } nodes)) =
        words (shownText nodes) ↔
        ¬ MeetAtEdge (letters true nodes)) := by
  have hkept : words (shownText (reduceNodes { collapseWhitespace := true } nodes)) =
      words (keptChars (letters true nodes)) := by
    calc words (shownText (reduceNodes { collapseWhitespace := true } nodes))
        = words (shownText (settle false (collapseEach nodes))) :=
          congrArg words (shownText_minifyAttributes { collapseWhitespace := true }
            (collapseBlanks nodes))
      _ = words (shownText (dropLooseBlanks none ((collapseEach nodes).map Node.collapseText))) :=
          words_shownText_settle false _
      _ = words (keptChars (letters true nodes)) :=
        (respaced_dropLooseBlanks h none nofun).words_eq.symm
  rw [hkept, ← map_char_letters true nodes]
  exact words_keptChars (blankAtEdges_letters true nodes)

/-- A word, a blank, an element with a blank in it, and another word. -/
def spacedBold : List Node :=
  [.text "a " ⟨0, 2⟩, .element ⟨"b", [], false⟩ [.text " " ⟨5, 6⟩] ⟨2, 10⟩, .text "c" ⟨10, 11⟩]

/-- The blank in the element is dropped, and the one before the element keeps the two words
apart. -/
theorem words_reduceNodes_spacedBold :
    isInlineContent spacedBold = true ∧
      letters true spacedBold = [⟨'a', false⟩, ⟨' ', false⟩, ⟨' ', true⟩, ⟨'c', false⟩] ∧
      words (shownText (reduceNodes { collapseWhitespace := true } spacedBold)) =
        [['a'], ['c']] := by
  have hinline : isInlineContent spacedBold = true := by decide
  have hletters : letters true spacedBold =
    [⟨'a', false⟩, ⟨' ', false⟩, ⟨' ', true⟩, ⟨'c', false⟩] := by decide
  have happart : ¬ MeetAtEdge (letters true spacedBold) := by
    rw [hletters, meetAtEdge_cons_iff, meetAtEdge_cons_iff, meetAtEdge_cons_iff,
      meetAtEdge_cons_iff]
    · have hblank : isBlank ' ' = true := rfl
      simp [startsVisible, keptChars, hblank, not_meetAtEdge_nil]
    all_goals decide
  exact ⟨hinline, hletters, (words_reduceNodes hinline).2.2 happart⟩

/-- A character before markup, or at the end, is a text. -/
theorem Reads.single {pos stop : Nat} {c : Char} {after rest : List Char} {nodes : List Node}
    (hc : (c != '<') = true) (hafter : AtEdge after)
    (hreads : Reads (pos + byteLength [c]) after nodes stop rest) :
    Reads pos ([c] ++ after) (.text (String.ofList [c]) ⟨pos, pos + byteLength [c]⟩ :: nodes) stop
      rest := by
  have hstops : Stops (· != '<') after := by
    obtain rfl | ⟨mark, tail, -, rfl⟩ := hafter
    · exact nofun
    · exact stops_cons rfl _
  have hlexes := Lexes.text (List.cons_ne_nil c []) (List.forall_mem_singleton.2 hc) hstops
  exact .text (List.cons_ne_nil c []) (.step hlexes rfl (.refl _)) hafter hreads

/-- Words of inline content are joined where the only blank between them is all that is in an
element. -/
theorem minify_joins_words :
    ¬ ∀ source nodes, parse source = .ok nodes → isInlineContent nodes = true →
      words (shownText (reduceNodes { collapseWhitespace := true } nodes)) =
        words (shownText nodes) := by
  have hlexOpen : lexContent "<b> </b>c".toList =
    some ⟨[], "<b".toList, .ok (.openTag "b"), "> </b>c".toList⟩ := rfl
  have htag : readTag 3 "> </b>c".toList = .ok ⟨[], false, 4, " </b>c".toList⟩ := by
    with_unfolding_all rfl
  have hopen : OpensWith 1 "<b> </b>c".toList ⟨"b", [], false⟩ 4 " </b>c".toList :=
    opensWith_of_lexContent hlexOpen rfl htag
  have hclose : ClosesWith "b".toList 5 "</b>c".toList 9 "c".toList :=
    ⟨['b'], [], ⟨'b', [], rfl, rfl, by simp⟩, rfl, blanks_nil, rfl, rfl⟩
  have hinside : Reads 4 " </b>c".toList [.text " " ⟨4, 5⟩] 5 "</b>c".toList :=
    Reads.single rfl hclose.atEdge .nil
  have hlast : Reads 9 "c".toList [.text "c" ⟨9, 10⟩] 10 [] := Reads.single rfl atEdge_nil .nil
  -- The blank is the only child of the element.
  have htree : parse "a<b> </b>c" =
      .ok [.text "a" ⟨0, 1⟩, .element ⟨"b", [], false⟩ [.text " " ⟨4, 5⟩] ⟨1, 9⟩,
          .text "c" ⟨9, 10⟩] :=
    parse_eq_ok_iff.2 ⟨10, Reads.single rfl hopen.atEdge
      (.branch hopen rfl rfl hinside hclose hlast)⟩
  intro hsame
  -- Minified, the text of the element is gone, and `a` and `c` are one word.
  have hwords := hsame _ _ htree (by decide)
  exact absurd hwords (by decide)

end Triptych.Markup
