import Triptych.Proofs.Markup.PlainText
import Triptych.Proofs.Markup.RoundTrip
import Triptych.Proofs.Text.Squeezing

/-!
# Markup with fewer blanks

Blanks are taken from a text without a look at its markup: inside tags, values, comments and raw
text as well as between them. The elements that are read stay the same all the same, and so do their
attributes, apart from blanks in the values (`parse_squeeze`).

The proof follows the grammar. What every rule reads begins and ends with characters that are no
blanks, so the text can be taken apart there, and behind it the next character stays. That is why a
gap between two attributes does not close, why a value without quotes ends where it did, and why no
comment and no raw text ends early. What a text between tags loses makes no difference to whether it
stays text (`isText_run_squeeze`); it may lose all it has.
-/

namespace Triptych.Markup

open Text TextState

/-! ### Outlines -/

/-- The attribute without its place and without what its value is. -/
def Attribute.outline (attr : Attribute) : Attribute :=
  ⟨attr.name, attr.value.map fun _ => "", attr.quote, ⟨0, 0⟩⟩

/-- The tag with the outlines of its attributes. -/
def Tag.outline (tag : Tag) : Tag :=
  { tag with attributes := tag.attributes.map Attribute.outline }

mutual

/-- The outline of a node: nothing if it is no element. -/
def Node.outline : Node → List Node
  | .element tag children _ => [.element tag.outline (outlines children) ⟨0, 0⟩]
  | .text _ _ => []
  | .comment _ _ => []

/-- The elements of a tree, with their names, their nesting and their attributes. -/
def outlines : List Node → List Node
  | [] => []
  | node :: nodes => node.outline ++ outlines nodes

end

/-- Raw text has no outline: it is text. -/
theorem outlines_rawChildren (content : List Char) (span : Span) :
    outlines (rawChildren content span) = [] := by
  unfold rawChildren
  split <;> rfl

/-- The outline of a tag has its name, and tells whether it wants a closing tag. -/
theorem Tag.eq_of_outline {tag tag' : Tag} (h : tag'.outline = tag.outline) :
    tag'.name = tag.name ∧ tag'.takesClosingTag = tag.takesClosingTag := by
  constructor
  · show tag'.outline.name = tag.outline.name
    rw [h]
  · show tag'.outline.takesClosingTag = tag.outline.takesClosingTag
    rw [h]

/-- Two elements have the same outline if their tags and what is in them have. -/
theorem outlines_element {tag tag' : Tag} {children children' nodes nodes' : List Node}
    {span span' : Span} (htag : tag'.outline = tag.outline)
    (hchildren : outlines children' = outlines children)
    (hnodes : outlines nodes' = outlines nodes) :
    outlines (.element tag' children' span' :: nodes') =
      outlines (.element tag children span :: nodes) := by
  simp only [outlines, Node.outline, htag, hchildren, hnodes]

/-! ### Texts -/

/-- Blanks that go make no difference to whether a text stays text. -/
theorem isText_run_squeeze {ends start : Bool} {text text' : List Char} {state : TextState}
    (h : Squeezes ends start text text') (hstate : start = true → state.afterBlank = state) :
    (state.run text').isText = (state.run text).isText := by
  induction h generalizing state with
  | nil => rfl
  | stop _ _ hblank =>
    exact (isText_run_blanks (fun c hc => isBlank_of_isAsciiBlank (hblank c hc)) state).symm
  | keep c _ ih =>
    rw [run_cons, run_cons]
    refine ih fun hc => ?_
    rw [next_blank (isBlank_of_isAsciiBlank hc), afterBlank_afterBlank]
  | drop hc _ ih =>
    rw [run_cons, next_blank (isBlank_of_isAsciiBlank hc), hstate rfl]
    exact ih hstate

/-- No blank stands in a name, or in the mark that opens a node. -/
theorem isAsciiBlank_of_isTagNameChar {c : Char} (h : isTagNameChar c = true) :
    isAsciiBlank c = false := by
  rw [Bool.eq_false_iff]
  intro hblank
  simp only [isAsciiBlank, Bool.or_eq_true, beq_iff_eq] at hblank
  rcases hblank with (((rfl | rfl) | rfl) | rfl) | rfl <;> exact absurd h (by decide)

theorem IsTagName.isAsciiBlank {name : List Char} (h : IsTagName name) :
    ∀ c ∈ name, isAsciiBlank c = false := by
  obtain ⟨c, cs, rfl, hletter, htail⟩ := h
  refine List.forall_mem_cons.2 ⟨?_, fun d hd => isAsciiBlank_of_isTagNameChar (htail d hd)⟩
  exact isAsciiBlank_of_isTagNameChar (isTagNameChar_of_isAsciiLetter c hletter)

theorem OpensNode.isAsciiBlank {mark : List Char} (h : OpensNode mark) :
    ∀ c ∈ mark, isAsciiBlank c = false := by
  cases h with
  | comment => simp [Text.isAsciiBlank]
  | closeTag hc =>
    have hletter := isAsciiBlank_of_isTagNameChar (isTagNameChar_of_isAsciiLetter _ hc)
    exact List.forall_mem_cons.2 ⟨rfl, List.forall_mem_singleton.2 hletter⟩
  | openTag hc =>
    have hletter := isAsciiBlank_of_isTagNameChar (isTagNameChar_of_isAsciiLetter _ hc)
    exact List.forall_mem_singleton.2 hletter

/-- **What the lexers look at is not moved where blanks are squeezed**, one relation of the grammar
at a time. -/
theorem AtEdge.squeeze {ends start : Bool} {text text' : List Char} (h : AtEdge text)
    (hsqueeze : Squeezes ends start text text') : AtEdge text' := by
  obtain rfl | ⟨mark, rest, hmark, rfl⟩ := h
  · rw [hsqueeze.eq_nil]
    exact atEdge_nil
  · obtain ⟨body, rfl, hbody⟩ := hsqueeze.cons rfl
    obtain ⟨rest', rfl, -⟩ := hbody.run hmark.isAsciiBlank
    exact .inr ⟨mark, rest', hmark, rfl⟩

/-- A text can be taken apart at an edge. -/
theorem AtEdge.split {ends start : Bool} {value after text' : List Char} (h : AtEdge after)
    (hsqueeze : Squeezes ends start (value ++ after) text') :
    ∃ value' after', text' = value' ++ after' ∧ Squeezes ends start value value' ∧
      Squeezes ends false after after' := by
  obtain rfl | ⟨mark, rest, -, rfl⟩ := h
  · rw [List.append_nil] at hsqueeze
    exact ⟨text', [], (List.append_nil text').symm, hsqueeze, .nil false⟩
  · obtain ⟨value', rest', rfl, hvalue, hrest⟩ := hsqueeze.split rfl
    exact ⟨value', '<' :: rest', rfl, hvalue.loosen, .keep '<' hrest⟩

/-- Plain tokens up to an edge are plain tokens up to an edge when blanks go. -/
theorem PlainRun.squeeze {ends start : Bool} {value value' after after' : List Char}
    (h : PlainRun (value ++ after) after) (hvalue : Squeezes ends start value value')
    (hafter : AtEdge after') :
    PlainRun (value' ++ after') after' := by
  have halone : PlainRun (value ++ []) [] := h.cut clear_nil
  rw [List.append_nil, plainRun_nil_iff, staysText,
    ← isText_run_squeeze hvalue fun _ => rfl] at halone
  have hplain : PlainRun (value' ++ []) [] := by
    rw [List.append_nil]
    exact plainRun_nil_iff.2 halone
  exact hplain.cut hafter.clear

/-! ### Values -/

section Tags

variable {ends : Bool}

theorem BareEnds.squeeze {value rest rest' : List Char} (h : BareEnds value rest)
    (hrest : Squeezes ends false rest rest') : BareEnds value rest' := by
  obtain ⟨hstop, hslash⟩ | ⟨after, rfl⟩ := h
  · refine .inl ⟨hrest.stops hstop, fun ⟨hlong, hclose, hlast⟩ => ?_⟩
    exact hslash ⟨hlong, hrest.head? hclose, hlast⟩
  · obtain ⟨behind, rfl, hbehind⟩ := hrest.cons rfl
    obtain ⟨after', rfl, -⟩ := hbehind.cons rfl
    exact .inr ⟨after', rfl⟩

/-- Quotes stay where they are around a value that loses blanks. -/
theorem squeezes_quoted {mark : Char} {gap value rest text' : List Char}
    (hmark : isAsciiBlank mark = false)
    (h : Squeezes ends false (gap ++ (mark :: (value ++ [mark]) ++ rest)) text') :
    ∃ gap' value' rest', text' = gap' ++ (mark :: (value' ++ [mark]) ++ rest') ∧
      Squeezes false false gap gap' ∧
      Squeezes false false value value' ∧ Squeezes ends false rest rest' := by
  obtain ⟨gap', quoted, rfl, hgap, hquoted⟩ := h.split hmark
  have hvalue : Squeezes ends false (value ++ mark :: rest) quoted := by simpa using hquoted
  obtain ⟨value', rest', rfl, hvalue, hrest⟩ := hvalue.split hmark
  exact ⟨gap', value', rest', by simp, hgap, hvalue, hrest⟩

theorem Blanks.squeeze {start : Bool} {gap gap' : List Char} (h : Blanks gap)
    (hgap : Squeezes ends start gap gap') :
    Blanks gap' :=
  fun c hc => h c (hgap.mem hc)

/-- A value is read with the same quotes. -/
theorem ReadsValue.squeeze {pos : Nat} {text text' : List Char} {value : ReadValue}
    (h : ReadsValue pos text value) (hsqueeze : Squeezes ends false text text') (pos' : Nat) :
    ∃ value', ReadsValue pos' text' value' ∧ value'.quote = value.quote ∧
      Squeezes ends false value.rest value'.rest := by
  cases h with
  -- A bare value holds no blanks, so it is found unchanged behind what is left of the blanks before
  -- it.
  | @bare gap value rest hgap hvalue hend =>
    obtain ⟨c, cs, rfl⟩ := List.exists_cons_of_ne_nil hvalue.ne_nil
    have hvisible : ∀ d ∈ c :: cs, isAsciiBlank d = false :=
      fun d hd => (ne_of_isUnquotedChar (hvalue.chars d hd)).1
    rw [List.forall_mem_cons] at hvisible
    obtain ⟨gap', behind, rfl, hgaps, hbehind⟩ := hsqueeze.split hvisible.1
    obtain ⟨rest', rfl, hrest⟩ := hbehind.run hvisible.2
    exact ⟨_, .bare (hgap.squeeze hgaps) hvalue (hend.squeeze hrest), rfl, hrest⟩
  | double hgap hvalue =>
    obtain ⟨gap', value', rest', rfl, hgaps, hvalues, hrest⟩ := squeezes_quoted rfl hsqueeze
    exact ⟨_, .double (hgap.squeeze hgaps) fun c hc => hvalue c (hvalues.mem hc), rfl, hrest⟩
  | single hgap hvalue =>
    obtain ⟨gap', value', rest', rfl, hgaps, hvalues, hrest⟩ := squeezes_quoted rfl hsqueeze
    exact ⟨_, .single (hgap.squeeze hgaps) fun c hc => hvalue c (hvalues.mem hc), rfl, hrest⟩

/-! ### Tags -/

/-- The attribute that is pending is kept or dropped in both texts. -/
theorem outline_flush {pending pending' : Option (String × Span)} {done done' : List Attribute}
    (hpending : pending'.map Prod.fst = pending.map Prod.fst)
    (hdone : done'.map Attribute.outline = done.map Attribute.outline) :
    (flush pending' done').map Attribute.outline = (flush pending done).map Attribute.outline := by
  match pending, pending' with
  | none, none => exact hdone
  | none, some _ | some _, none => contradiction
  | some (name, span), some (name', span') =>
    obtain rfl : name' = name := by simpa using hpending
    simp [flush, hdone, Attribute.outline, Attribute.bare]

/-- **A tag is read with the same attributes**, apart from blanks in the values. -/
theorem TagReads.squeeze {pending : Option (String × Span)} {done : List Attribute} {pos : Nat}
    {text text' : List Char} {found : ReadTag} (h : TagReads pending done pos text found)
    (pending' : Option (String × Span)) (done' : List Attribute) (pos' : Nat)
    (hpending : pending'.map Prod.fst = pending.map Prod.fst)
    (hdone : done'.map Attribute.outline = done.map Attribute.outline)
    (hsqueeze : Squeezes ends false text text') :
    ∃ found', TagReads pending' done' pos' text' found' ∧
      found'.attributes.map Attribute.outline = found.attributes.map Attribute.outline ∧
      found'.selfClosing = found.selfClosing ∧ Squeezes ends false found.rest found'.rest := by
  -- The part that a rule reads stays as it is, and the blanks before it stay blanks.
  induction h generalizing pending' done' pos' text' with
  | close hgap =>
    obtain ⟨gap', rest', rfl, hgaps, hrest⟩ := hsqueeze.split rfl
    refine ⟨_, .close (hgap.squeeze hgaps), ?_, rfl, hrest⟩
    rw [List.map_reverse, List.map_reverse, outline_flush hpending hdone]
  | selfClose hgap =>
    obtain ⟨gap', behind, rfl, hgaps, hbehind⟩ := hsqueeze.split rfl
    obtain ⟨rest', rfl, hrest⟩ := hbehind.cons rfl
    refine ⟨_, .selfClose (hgap.squeeze hgaps), ?_, rfl, hrest⟩
    rw [List.map_reverse, List.map_reverse, outline_flush hpending hdone]
  | slash hgap hnext _ ih =>
    obtain ⟨gap', rest', rfl, hgaps, hrest⟩ := hsqueeze.split rfl
    obtain ⟨found', hreads, hfound⟩ := ih _ _ _ hpending hdone hrest
    exact ⟨found', .slash (hgap.squeeze hgaps) (fun hclose => hnext (hrest.head? hclose)) hreads,
      hfound⟩
  | @name pending done pos gap name rest found hgap hne hname hstop _ ih =>
    obtain ⟨c, cs, rfl⟩ := List.exists_cons_of_ne_nil hne
    have hvisible : ∀ d ∈ c :: cs, isAsciiBlank d = false :=
      fun d hd => (ne_of_isAttributeNameChar (hname d hd)).1
    rw [List.forall_mem_cons] at hvisible
    obtain ⟨gap', behind, rfl, hgaps, hbehind⟩ := hsqueeze.split hvisible.1
    obtain ⟨rest', rfl, hrest⟩ := hbehind.run hvisible.2
    let span' : Span := ⟨pos' + byteLength gap', pos' + byteLength gap' + byteLength (c :: cs)⟩
    obtain ⟨found', hreads, hfound⟩ :=
      ih (some (String.ofList (c :: cs), span')) _ _ rfl (outline_flush hpending hdone) hrest
    exact ⟨found', .name (hgap.squeeze hgaps) hne hname (hrest.stops hstop) hreads, hfound⟩
  | @value name span done pos gap rest value found hgap hvalue _ ih =>
    obtain ⟨gap', behind, rfl, hgaps, hbehind⟩ := hsqueeze.split rfl
    obtain ⟨value', hreads, hquote, hrest⟩ :=
      hvalue.squeeze hbehind (pos' + byteLength gap' + byteLength ['='])
    match pending', hpending with
    | some (name', span'), hpending =>
      obtain rfl : name' = name := by simpa using hpending
      obtain ⟨found', hreads', hfound⟩ :=
        ih none (⟨name', some value'.value, value'.quote, ⟨span'.start, value'.stop⟩⟩ :: done')
          value'.stop rfl
          (by simp [hdone, hquote, Attribute.outline]) hrest
      exact ⟨found', .value (hgap.squeeze hgaps) hreads hreads', hfound⟩

/-- A tag is read with the same outline. -/
theorem OpensWith.squeeze {start : Bool} {pos mid : Nat} {text text' after : List Char} {tag : Tag}
    (h : OpensWith pos text tag mid after) (hsqueeze : Squeezes ends start text text')
    (pos' : Nat) :
    ∃ tag' mid' after', OpensWith pos' text' tag' mid' after' ∧ tag'.outline = tag.outline ∧
      Squeezes ends false after after' := by
  obtain ⟨body, hname, rfl, hstop, hreads⟩ := h
  obtain ⟨behind, rfl, hbehind⟩ := hsqueeze.cons rfl
  obtain ⟨body', rfl, hbody⟩ := hbehind.run hname.isAsciiBlank
  obtain ⟨found, hreads', hattributes, hclosing, hafter⟩ :=
    hreads.squeeze none [] (pos' + byteLength ('<' :: tag.name.toList)) rfl rfl hbody
  refine ⟨⟨tag.name, found.attributes, found.selfClosing⟩, found.stop, found.rest,
    ⟨body', hname, rfl, hbody.stops hstop, hreads'⟩, ?_, hafter⟩
  simp only [Tag.outline, hattributes, hclosing]

/-- And so is the closing tag. -/
theorem ClosesWith.squeeze {start : Bool} {name text text' after : List Char} {pos stop : Nat}
    (h : ClosesWith name pos text stop after) (hsqueeze : Squeezes ends start text text')
    (pos' : Nat) :
    ∃ stop' after', ClosesWith name pos' text' stop' after' ∧ Squeezes ends false after after' := by
  obtain ⟨written, gap, hwritten, hname, hgap, rfl, -⟩ := h
  obtain ⟨slash, rfl, hslash⟩ := hsqueeze.cons rfl
  obtain ⟨tagName, rfl, htagName⟩ := hslash.cons rfl
  obtain ⟨behind, rfl, hbehind⟩ := htagName.run hwritten.isAsciiBlank
  obtain ⟨gap', after', rfl, hgaps, hafter⟩ := hbehind.split rfl
  exact ⟨_, after', ⟨written, gap', hwritten, hname, hgap.squeeze hgaps, rfl, rfl⟩, hafter⟩

end Tags

/-! ### Comments and raw text -/

/-- The marks around a comment stay where they are. -/
theorem squeezes_comment {ends start : Bool} {value after text' : List Char}
    (h : Squeezes ends start (commentStart ++ (value ++ commentStop) ++ after) text') :
    ∃ value' after', text' = commentStart ++ (value' ++ commentStop) ++ after' ∧
      Squeezes false false value value' ∧
      Squeezes ends false after after' := by
  have hopen :
      Squeezes ends start ('<' :: (['!', '-', '-'] ++ (value ++ '-' :: (['-', '>'] ++ after))))
      text' := by
    simpa [commentStart, commentStop] using h
  obtain ⟨mark, rfl, hmark⟩ := hopen.cons rfl
  obtain ⟨body, rfl, hbody⟩ := hmark.run (by simp [isAsciiBlank])
  obtain ⟨value', behind, rfl, hvalue, hbehind⟩ := hbody.split rfl
  obtain ⟨after', rfl, hafter⟩ := hbehind.run (by simp [isAsciiBlank])
  exact ⟨value', after', by simp [commentStart, commentStop], hvalue, hafter⟩

/-- Raw text that loses blanks holds no closing tag if it held none. -/
theorem HoldsNoClosingTag.squeeze {start : Bool} {name content content' : List Char}
    (h : HoldsNoClosingTag name content) (hname : IsTagName name)
    (hsqueeze : Squeezes false start content content') :
    HoldsNoClosingTag name content' := by
  intro part' hpart
  rw [Bool.eq_false_iff]
  intro hcloses
  obtain ⟨written, c, rest', rfl, hwritten, hnext⟩ := startsClosingTag_iff.1 hcloses
  -- The tag was there before, with the same character behind its name.
  obtain ⟨part, hmem, hpart'⟩ := hsqueeze.suffix hpart
  have hvisible := (hname.of_equalsIgnoringCase hwritten).isAsciiBlank
  rw [← List.cons_append] at hpart'
  obtain ⟨rest, rfl, hrest⟩ := hpart'.of_run (List.forall_mem_cons.2 ⟨rfl, hvisible⟩)
  obtain ⟨more, rfl⟩ := List.head?_eq_some_iff.1 (hrest.head? rfl)
  have hclosed : startsClosingTag name ('<' :: ('/' :: written ++ c :: more)) = true :=
    startsClosingTag_iff.2 ⟨written, c, more, rfl, hwritten, hnext⟩
  rw [h _ hmem] at hclosed
  contradiction

/-! ### Trees -/

/-- **Fewer blanks leave the elements as they are.** -/
theorem Reads.squeeze {ends start : Bool} {pos stop : Nat} {text text' rest : List Char}
    {nodes : List Node} (h : Reads pos text nodes stop rest) (hrest : AtEdge rest)
    (hsqueeze : Squeezes ends start text text') (pos' : Nat) :
    ∃ nodes' stop' rest' start', Reads pos' text' nodes' stop' rest' ∧
      outlines nodes' = outlines nodes ∧
      Squeezes ends start' rest rest' := by
  induction h generalizing start pos' text' with
  | nil => exact ⟨[], pos', text', start, .nil, rfl, hsqueeze⟩
  | text hne hplain hedge _ ih =>
    obtain ⟨value', after', rfl, hvalue, hafter⟩ := hedge.split hsqueeze
    have hedge' := hedge.squeeze hafter
    by_cases hnone : value' = []
    · -- All of the text is gone.
      subst hnone
      exact ih hrest hafter pos'
    · obtain ⟨nodes', stop', rest', start', hreads, hnodes, hrest'⟩ :=
        ih hrest hafter (pos' + byteLength value')
      exact ⟨_, stop', rest', start', .text hnone (hplain.squeeze hvalue hedge') hedge' hreads,
        hnodes, hrest'⟩
  | @comment pos stop value after rest nodes hend _ ih =>
    obtain ⟨value', after', rfl, hvalue, hafter⟩ := squeezes_comment hsqueeze
    obtain ⟨nodes', stop', rest', start', hreads, hnodes, hrest'⟩ :=
      ih hrest hafter (pos' + byteLength (commentStart ++ (value' ++ commentStop)))
    have hend' : EndsFirst commentStop value' :=
      hvalue.endsFirst (by simp [commentStop, isAsciiBlank]) hend
    exact ⟨_, stop', rest', start', .comment hend' hreads, hnodes, hrest'⟩
  | leaf hopen hleaf _ ih =>
    obtain ⟨tag', mid', after', hopen', htag, hafter⟩ := hopen.squeeze hsqueeze pos'
    obtain ⟨nodes', stop', rest', start', hreads, hnodes, hrest'⟩ := ih hrest hafter mid'
    obtain ⟨-, htakes⟩ := Tag.eq_of_outline htag
    exact ⟨_, stop', rest', start', .leaf hopen' (htakes.trans hleaf) hreads,
      outlines_element htag rfl hnodes, hrest'⟩
  | @raw pos mid outer stop text content closing after rest tag nodes hopen htakes hraw hcontent
      hclose _ ih =>
    obtain ⟨tag', mid', behind, hopen', htag, hbehind⟩ := hopen.squeeze hsqueeze pos'
    obtain ⟨hname, htakes'⟩ := Tag.eq_of_outline htag
    -- The closing tag starts with `<`, and up to there only blanks behind others are lost.
    obtain ⟨body, rfl⟩ : ∃ body, closing = '<' :: body := by
      obtain ⟨written, gap, -, -, -, rfl, -⟩ := hclose
      exact ⟨_, rfl⟩
    obtain ⟨content', body', rfl, hcontents, hbody⟩ := hbehind.split rfl
    have hclosing : Squeezes ends false ('<' :: body) ('<' :: body') := .keep '<' hbody
    obtain ⟨outer', after', hclose', hafter⟩ := hclose.squeeze hclosing (mid' + byteLength content')
    obtain ⟨nodes', stop', rest', start', hreads, hnodes, hrest'⟩ := ih hrest hafter outer'
    have hcontent' : HoldsNoClosingTag tag'.name.toList content' := by
      rw [hname]
      exact hcontent.squeeze hopen.isTagName hcontents
    rw [← hname] at hraw hclose'
    refine ⟨_, stop', rest', start', .raw hopen' (htakes'.trans htakes) hraw hcontent' hclose'
      hreads, ?_, hrest'⟩
    exact outlines_element htag (by rw [outlines_rawChildren, outlines_rawChildren]) hnodes
  | branch hopen htakes hraw _ hclose _ ihchildren ih =>
    obtain ⟨tag', mid', content', hopen', htag, hcontent⟩ := hopen.squeeze hsqueeze pos'
    obtain ⟨hname, htakes'⟩ := Tag.eq_of_outline htag
    obtain ⟨children', inner', closing', _, hchildren, houtline, hclosing⟩ :=
      ihchildren hclose.atEdge hcontent mid'
    obtain ⟨outer', after', hclose', hafter⟩ := hclose.squeeze hclosing inner'
    obtain ⟨nodes', stop', rest', start', hreads, hnodes, hrest'⟩ := ih hrest hafter outer'
    rw [← hname] at hraw hclose'
    exact ⟨_, stop', rest', start', .branch hopen' (htakes'.trans htakes) hraw hchildren hclose'
      hreads, outlines_element htag houtline hnodes, hrest'⟩

/-- **Text with fewer blanks reads as the same elements.** -/
theorem parse_squeeze {source : String} {text' : List Char} {nodes : List Node}
    (h : parse source = .ok nodes) (hsqueeze : Squeezes true true source.toList text') :
    ∃ nodes', parse (String.ofList text') = .ok nodes' ∧ outlines nodes' = outlines nodes := by
  obtain ⟨stop, hreads⟩ := parse_eq_ok_iff.1 h
  obtain ⟨nodes', stop', rest', start', hreads', houtline, hrest⟩ :=
    hreads.squeeze atEdge_nil hsqueeze 0
  rw [hrest.eq_nil] at hreads'
  refine ⟨nodes', parse_eq_ok_iff.2 ⟨stop', ?_⟩, houtline⟩
  rwa [String.toList_ofList]

end Triptych.Markup
