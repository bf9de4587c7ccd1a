import Triptych.Markup.Printer
import Triptych.Markup.Walk
import Triptych.Proofs.Markup.Grammar
import Triptych.Proofs.Text.Slice

/-!
# Printing a tree and reading it again

A tree that was read from a source prints as markup that need not be the source: blanks inside tags,
slashes between attributes and the letter case of closing tags are settled. Read again, the markup
gives the same tree, apart from where its nodes stand (`stripAll`), with one exception. A value
without quotes may end in a slash when a blank follows it in the source. Printed as the last thing
before `>` that slash becomes part of the end `/>`, and the tag comes back self-closing.
`Tag.endsInSlash` tells when that happens, and nothing else goes wrong:

* `Printable.reads_render`: a tree without such a tag is read again, whatever follows the markup;
* `Printable.reread`: a tree that is read again has no such tag;
* `parse_render_iff`: both together, for a text that parses.

A tree need not have been read to be printed. `Printable` says what of reading the two need, so that
they hold of trees that have been changed too.

Between the two lies the printed tag. `opensWith_render` says that it is read as it was, and a tag
that ends in a slash prints as another tag does, one that is self-closing
(`Tag.renderStart_shorten`).
-/

namespace Triptych.Markup

open Text

/-! ### Trees without spans -/

/-- The attribute without its place in the source. -/
def Attribute.strip (attr : Attribute) : Attribute :=
  { attr with span := ⟨0, 0⟩ }

/-- The tag without the places of its attributes in the source. -/
def Tag.strip (tag : Tag) : Tag :=
  { tag with attributes := tag.attributes.map Attribute.strip }

mutual

/-- The node without its place in the source, and so for all that is in it. -/
def Node.strip : Node → Node
  | .element tag children _ => .element tag.strip (stripAll children) ⟨0, 0⟩
  | .text value _ => .text value ⟨0, 0⟩
  | .comment value _ => .comment value ⟨0, 0⟩

/-- `strip` on every node. -/
def stripAll : List Node → List Node
  | [] => []
  | node :: nodes => node.strip :: stripAll nodes

end

theorem stripAll_rawChildren (content : List Char) (span : Span) :
    stripAll (rawChildren content span) = rawChildren content ⟨0, 0⟩ := by
  unfold rawChildren
  split <;> rfl

/-- Elements that differ in spans alone have tags, children and neighbours that do. -/
theorem strip_element {tag tag' : Tag} {children children' nodes nodes' : List Node}
    {span span' : Span}
    (h : stripAll (.element tag' children' span' :: nodes') =
      stripAll (.element tag children span :: nodes)) :
    tag'.strip = tag.strip ∧ stripAll children' = stripAll children ∧
        stripAll nodes' = stripAll nodes := by
  simpa [stripAll, Node.strip, and_assoc] using h

/-- Raw text can be told from the children it makes. -/
theorem rawChildren_inj {content content' : List Char} {span : Span}
    (h : rawChildren content span = rawChildren content' span) : content = content' := by
  unfold rawChildren at h
  split at h <;> split at h
  next hnil hnil' => rw [List.isEmpty_iff.1 hnil, List.isEmpty_iff.1 hnil']
  next => simp at h
  next => simp at h
  next => simpa [String.ofList_inj] using h

/-- Spans do not tell whether a tag wants a closing one. -/
theorem Tag.takesClosingTag_congr {tag tag' : Tag} (h : tag'.strip = tag.strip) :
    tag'.takesClosingTag = tag.takesClosingTag := by
  obtain ⟨hname, -, hselfClosing⟩ := Tag.mk.inj h
  simp only [takesClosingTag, isVoid, hname, hselfClosing]

/-! ### Tags as they are read -/

/-- True of a tag that is not self-closing, but prints as one that is: its last value has no quotes
and ends in a slash, with something before it. -/
def Tag.endsInSlash (tag : Tag) : Bool :=
  !tag.selfClosing &&
    match tag.attributes.getLast? with
    | some ⟨_, some value, .none, _⟩ =>
      2 ≤ byteLength value.toList && value.toList.getLast? == some '/'
    | _ => false

/-- The characters can be written as a value with this quote. -/
def Quote.Holds : Quote → List Char → Prop
  | .double, value => ∀ c ∈ value, (c != '"') = true
  | .single, value => ∀ c ∈ value, (c != '\'') = true
  | .none, value => IsBareValue value

/-- The name and the value of an attribute can be read from a tag. -/
structure Attribute.Legible (attr : Attribute) : Prop where
  name_ne_nil : attr.name.toList ≠ []
  name_chars : ∀ c ∈ attr.name.toList, isAttributeNameChar c = true
  value : ∀ value ∈ attr.value, attr.quote.Holds value.toList
  quote : attr.value = none → attr.quote = .none

/-- A value that was read has no more in it than its quotes allow. -/
theorem ReadsValue.holds {pos : Nat} {text : List Char} {found : ReadValue}
    (h : ReadsValue pos text found) :
    found.quote.Holds found.value.toList := by
  cases h with
  | bare _ hvalue | double _ hvalue | single _ hvalue => simpa [Quote.Holds] using hvalue

/-- The attributes that are read from a tag are legible. -/
theorem TagReads.legible {pending : Option (String × Span)} {done : List Attribute} {pos : Nat}
    {text : List Char} {found : ReadTag} (h : TagReads pending done pos text found)
    (hdone : ∀ attr ∈ flush pending done, attr.Legible) :
    ∀ attr ∈ found.attributes, attr.Legible := by
  induction h with
  | close | selfClose => simpa using hdone
  | slash _ _ _ ih => exact ih hdone
  | name _ hne hname _ _ ih =>
    refine ih (List.forall_mem_cons.2 ⟨?_, hdone⟩)
    exact ⟨by simpa [Attribute.bare] using hne, by simpa [Attribute.bare] using hname,
      by simp [Attribute.bare], fun _ => rfl⟩
  | value _ hvalue _ ih =>
    obtain ⟨hpending, hdone⟩ := List.forall_mem_cons.1 hdone
    refine ih (List.forall_mem_cons.2 ⟨?_, hdone⟩)
    exact ⟨hpending.name_ne_nil, hpending.name_chars, by simpa using hvalue.holds, by simp⟩

/-- So a tag that was read is legible. -/
theorem OpensWith.legible {pos mid : Nat} {text after : List Char} {tag : Tag}
    (h : OpensWith pos text tag mid after) : ∀ attr ∈ tag.attributes, attr.Legible := by
  obtain ⟨body, -, -, -, hreads⟩ := h
  exact hreads.legible (by simp [flush])

/-- The name and the attributes of a tag can be read. -/
structure Tag.Legible (tag : Tag) : Prop where
  name : IsTagName tag.name.toList
  attributes : ∀ attr ∈ tag.attributes, attr.Legible

theorem OpensWith.tagLegible {pos mid : Nat} {text after : List Char} {tag : Tag}
    (h : OpensWith pos text tag mid after) : tag.Legible :=
  ⟨h.isTagName, h.legible⟩

/-! ### Tags as they are printed -/

/-- The end of a tag. -/
def tagEnd (selfClosing : Bool) : List Char :=
  if selfClosing then ['/', '>'] else ['>']

/-- The attributes as they are printed in a tag. -/
def attributesText (attributes : List Attribute) : List Char :=
  attributes.flatMap fun attr => ' ' :: attr.render.toList

theorem attributesText_cons (attr : Attribute) (attributes : List Attribute) :
    attributesText (attr :: attributes) =
      [' '] ++ (attr.render.toList ++ attributesText attributes) := rfl

/-- What is written of a tag, an attribute and a node, as characters. -/
theorem Tag.toList_renderStart (tag : Tag) :
    tag.renderStart.toList = '<' :: tag.name.toList ++ attributesText tag.attributes := by
  simp [Tag.renderStart, attributesText, List.flatMap_def, Function.comp_def]

theorem Attribute.toList_render {name value : String} {quote : Quote} {span : Span} :
    (Attribute.render ⟨name, some value, quote, span⟩).toList =
      name.toList ++ (['='] ++ (quote.wrap value).toList) := by
  simp [Attribute.render]

/-- What follows an attribute that is printed ends a name. -/
theorem stops_attributesText {p : Char → Bool} (hspace : p ' ' = false) (hclose : p '>' = false)
    (hslash : p '/' = false) (attributes : List Attribute) (selfClosing : Bool)
    (after : List Char) :
    Stops p (attributesText attributes ++ (tagEnd selfClosing ++ after)) := by
  cases attributes with
  | nil => cases selfClosing <;> simpa [Stops, attributesText, tagEnd]
  | cons attr attributes => simpa [Stops, attributesText] using hspace

/-- A value without quotes that is printed is told from what follows it. -/
theorem bareEnds_render {tagName name value : String} {span : Span} {attributes : List Attribute}
    {selfClosing : Bool}
    (h : Tag.endsInSlash ⟨tagName, ⟨name, some value, .none, span⟩ :: attributes, selfClosing⟩ =
      false)
    (after : List Char) :
    BareEnds value.toList (attributesText attributes ++ (tagEnd selfClosing ++ after)) := by
  cases attributes with
  -- Another attribute follows, and the space before it ends the value.
  | cons attr attributes =>
    exact .inl ⟨by simp [Stops, attributesText, isUnquotedChar, isAsciiBlank],
      by simp [attributesText]⟩
  | nil =>
    cases selfClosing with
    -- The slash is the one of `/>`, and a value never takes it.
    | true => exact .inr ⟨after, rfl⟩
    | false =>
      -- Here a slash at the end of the value would be taken for the one of `/>`: the case that is
      -- excluded.
      refine .inl ⟨by simp [Stops, attributesText, tagEnd, isUnquotedChar], ?_⟩
      rintro ⟨hlength, -, hlast⟩
      have hbytes := length_le_byteLength value.toList
      have htwo : 2 ≤ byteLength value.toList := by omega
      simp [Tag.endsInSlash, htwo, hlast] at h

/-- Without its first attribute a tag does not come to end in a slash. -/
theorem Tag.endsInSlash_tail {name : String} {attr : Attribute} {attributes : List Attribute}
    {selfClosing : Bool} (h : Tag.endsInSlash ⟨name, attr :: attributes, selfClosing⟩ = false) :
    Tag.endsInSlash ⟨name, attributes, selfClosing⟩ = false := by
  cases attributes with
  | nil => simp [Tag.endsInSlash]
  | cons next attributes => simpa only [Tag.endsInSlash, List.getLast?_cons_cons] using h

/-- A value that is printed is read as it was. -/
theorem readsValue_wrap {quote : Quote} {value : String} {rest : List Char} (pos : Nat)
    (hvalue : quote.Holds value.toList) (hend : quote = .none → BareEnds value.toList rest) :
    ∃ stop, ReadsValue pos ((quote.wrap value).toList ++ rest) ⟨value, quote, stop, rest⟩ := by
  cases quote with
  | double =>
    have hreads : ReadsValue pos ([] ++ ('"' :: (value.toList ++ ['"']) ++ rest)) _ :=
      .double blanks_nil hvalue
    rw [String.ofList_toList] at hreads
    exact ⟨_, by simpa [Quote.wrap] using hreads⟩
  | single =>
    have hreads : ReadsValue pos ([] ++ ('\'' :: (value.toList ++ ['\'']) ++ rest)) _ :=
      .single blanks_nil hvalue
    rw [String.ofList_toList] at hreads
    exact ⟨_, by simpa [Quote.wrap] using hreads⟩
  -- Without quotes what follows decides whether the value ends here.
  | none =>
    have hreads : ReadsValue pos ([] ++ (value.toList ++ rest)) _ :=
      .bare blanks_nil hvalue (hend rfl)
    rw [String.ofList_toList] at hreads
    exact ⟨_, by simpa [Quote.wrap] using hreads⟩

/-- The name of an attribute is read after the space before it. -/
theorem Attribute.Legible.tagReads {attr : Attribute} {pending : Option (String × Span)}
    {done : List Attribute} {pos : Nat} {rest : List Char} {found : ReadTag} (h : attr.Legible)
    (hstop : Stops isAttributeNameChar rest)
    (hreads : TagReads (some (attr.name, ⟨pos + 1, pos + 1 + byteLength attr.name.toList⟩))
      (flush pending done)
      (pos + 1 + byteLength attr.name.toList) rest found) :
    TagReads pending done pos ([' '] ++ (attr.name.toList ++ rest)) found := by
  refine .name (by simp [Blanks, isAsciiBlank]) h.name_ne_nil h.name_chars hstop ?_
  rw [String.ofList_toList]
  exact hreads

/-- Legible attributes are read from the tag as which they are printed. -/
theorem tagReads_render {name : String} {selfClosing : Bool} {attributes : List Attribute}
    (hlegible : ∀ attr ∈ attributes, attr.Legible)
    (hslash : Tag.endsInSlash ⟨name, attributes, selfClosing⟩ = false) (after : List Char)
    (pending : Option (String × Span)) (done : List Attribute) (pos : Nat) :
    ∃ attributes' stop, attributes'.map Attribute.strip = attributes.map Attribute.strip ∧
      TagReads pending done pos (attributesText attributes ++ (tagEnd selfClosing ++ after))
        ⟨(flush pending done).reverse ++ attributes', selfClosing, stop, after⟩ := by
  -- Along the printed attributes: a name waits in `pending` until its value, or the next name, is
  -- read.
  induction attributes generalizing pending done pos with
  | nil =>
    cases selfClosing with
    | true => exact ⟨[], _, rfl, by rw [List.append_nil]; exact .selfClose blanks_nil⟩
    | false => exact ⟨[], _, rfl, by rw [List.append_nil]; exact .close blanks_nil⟩
  | cons attr attributes ih =>
    obtain ⟨hattr, hrest⟩ := List.forall_mem_cons.1 hlegible
    have htail := Tag.endsInSlash_tail hslash
    obtain ⟨attrName, value, quote, span⟩ := attr
    generalize hmid : pos + 1 + byteLength attrName.toList = mid
    rw [attributesText_cons, List.append_assoc, List.append_assoc]
    cases value with
    | none =>
      -- Without a value the name is left pending, and the rest of the tag settles it as a bare
      -- attribute.
      obtain rfl : quote = .none := hattr.quote rfl
      obtain ⟨attributes', stop, hstrip, hreads⟩ :=
        ih hrest htail (some (attrName, ⟨pos + 1, mid⟩)) (flush pending done) mid
      refine ⟨.bare attrName ⟨pos + 1, mid⟩ :: attributes', stop, ?_, ?_⟩
      · simp [hstrip, Attribute.strip, Attribute.bare]
      · subst hmid
        refine hattr.tagReads (stops_attributesText rfl rfl rfl _ _ _) ?_
        simpa [flush] using hreads
    | some value =>
      -- Only a value without quotes depends on what is printed after it.
      obtain ⟨valueStop, hvalue⟩ : ∃ stop, ReadsValue (mid + byteLength [] + byteLength ['=']) _
          ⟨value, quote, stop, attributesText attributes ++ (tagEnd selfClosing ++ after)⟩ := by
        refine readsValue_wrap _ (hattr.value value rfl) ?_
        rintro rfl
        exact bareEnds_render hslash after
      obtain ⟨attributes', stop, hstrip, hreads⟩ := ih hrest htail none
        (⟨attrName, some value, quote, ⟨pos + 1, valueStop⟩⟩ :: flush pending done) valueStop
      refine ⟨⟨attrName, some value, quote, ⟨pos + 1, valueStop⟩⟩ :: attributes', stop, ?_, ?_⟩
      · simp [hstrip, Attribute.strip]
      · subst hmid
        rw [Attribute.toList_render, List.append_assoc, List.append_assoc]
        refine hattr.tagReads (by simp [Stops, isAttributeNameChar]) (.value blanks_nil hvalue ?_)
        simpa [flush] using hreads

/-- **A printed tag is read as it was**, unless it ends in a slash. -/
theorem opensWith_render {tag : Tag} (hname : IsTagName tag.name.toList)
    (hlegible : ∀ attr ∈ tag.attributes, attr.Legible) (hslash : tag.endsInSlash = false)
    (pos : Nat) (after : List Char) :
    ∃ tag' mid, tag'.strip = tag.strip ∧
      OpensWith pos (tag.renderStart.toList ++ (tagEnd tag.selfClosing ++ after)) tag' mid
        after := by
  obtain ⟨attributes, mid, hstrip, hreads⟩ :=
    tagReads_render hlegible hslash after none [] (pos + byteLength ('<' :: tag.name.toList))
  refine ⟨⟨tag.name, attributes, tag.selfClosing⟩, mid, by simp [Tag.strip, hstrip], ?_⟩
  refine ⟨attributesText tag.attributes ++ (tagEnd tag.selfClosing ++ after), hname, ?_, ?_, hreads⟩
  · rw [tag.toList_renderStart, List.append_assoc]
  · exact stops_attributesText rfl rfl rfl _ _ _

/-- What an opening tag reads is determined by the text. -/
theorem OpensWith.unique {pos mid mid' : Nat} {text after after' : List Char} {tag tag' : Tag}
    (h : OpensWith pos text tag mid after) (h' : OpensWith pos text tag' mid' after') :
    tag' = tag ∧ after' = after := by
  -- Both readings are one run of the lexer and of the tag reader.
  obtain ⟨body, hlex, hread⟩ := h.lexContent
  obtain ⟨body', hlex', hread'⟩ := h'.lexContent
  have hlexeme := Option.some.inj (hlex.symm.trans hlex')
  simp only [Lexeme.mk.injEq, List.cons.injEq, true_and, Except.ok.injEq,
    ContentPart.openTag.injEq] at hlexeme
  obtain ⟨-, hname, rfl⟩ := hlexeme
  rw [← hname, hread] at hread'
  obtain ⟨hattributes, hselfClosing, -, hafter⟩ := ReadTag.mk.inj (Except.ok.inj hread')
  refine ⟨?_, hafter.symm⟩
  cases tag
  cases tag'
  simp_all

/-- What a closing tag leaves is determined by the text. -/
theorem ClosesWith.unique {pos stop stop' : Nat} {name name' text after after' : List Char}
    (h : ClosesWith name pos text stop after) (h' : ClosesWith name' pos text stop' after') :
    after' = after := by
  obtain ⟨written, body, hlex, -, hread⟩ := h.lexContent
  obtain ⟨written', body', hlex', -, hread'⟩ := h'.lexContent
  have hlexeme := Option.some.inj (hlex.symm.trans hlex')
  simp only [Lexeme.mk.injEq, List.cons.injEq, true_and] at hlexeme
  obtain ⟨rfl, -, rfl⟩ := hlexeme
  exact (Prod.mk.inj (Except.ok.inj (hread.symm.trans hread'))).2.symm

/-- A value without quotes stays one without the slash at its end. -/
theorem IsBareValue.of_append_slash {value : List Char} (h : IsBareValue (value ++ ['/']))
    (hne : value ≠ []) :
    IsBareValue value := by
  obtain ⟨c, cs, rfl⟩ := List.exists_cons_of_ne_nil hne
  exact ⟨hne, fun d hd => h.chars d (List.mem_append_left _ hd), h.head⟩

/-- A tag that ends in a slash prints as a self-closing one does, whose last value is without that
slash. -/
theorem Tag.renderStart_shorten {tag : Tag} (hslash : tag.endsInSlash = true)
    (hlegible : ∀ attr ∈ tag.attributes, attr.Legible) :
    ∃ tag' : Tag, tag'.name = tag.name ∧ tag'.selfClosing = true ∧
      (∀ attr ∈ tag'.attributes, attr.Legible) ∧
      tag.renderStart.toList ++ tagEnd tag.selfClosing =
        tag'.renderStart.toList ++ tagEnd true := by
  obtain ⟨name, attributes, selfClosing⟩ := tag
  simp only [Tag.endsInSlash, Bool.and_eq_true, Bool.not_eq_true'] at hslash
  obtain ⟨rfl, hlast⟩ := hslash
  split at hlast
  next attrName value span hattr =>
    -- The last attribute gives its slash away, the others stay as they are.
    obtain ⟨init, rfl⟩ := List.getLast?_eq_some_iff.1 hattr
    simp only [Bool.and_eq_true, decide_eq_true_eq, beq_iff_eq] at hlast
    obtain ⟨hlength, hend⟩ := hlast
    obtain ⟨short, hshort⟩ := List.getLast?_eq_some_iff.1 hend
    -- Something stands before the slash, or there would be no value left to print.
    have hne : short ≠ [] := by
      rintro rfl
      rw [hshort] at hlength
      exact absurd hlength (by decide)
    have hattrLegible := hlegible _ (List.mem_append_right _ (List.mem_singleton.2 rfl))
    have hbare : IsBareValue (short ++ ['/']) := by
      rw [← hshort]
      exact hattrLegible.value value rfl
    refine ⟨⟨name, init ++ [⟨attrName, some (String.ofList short), .none, span⟩], true⟩, rfl, rfl,
      ?_, ?_⟩
    · intro attr hmem
      rcases List.mem_append.1 hmem with hmem | hmem
      · exact hlegible attr (List.mem_append_left _ hmem)
      · obtain rfl := List.mem_singleton.1 hmem
        refine ⟨hattrLegible.name_ne_nil, hattrLegible.name_chars, ?_, by simp⟩
        simpa [Quote.Holds] using hbare.of_append_slash hne
    · simp [Tag.toList_renderStart, attributesText, Attribute.render, Quote.wrap, hshort, tagEnd]
  next => contradiction

/-- A tag that is read as it was does not end in a slash, and it is read up to its end. -/
theorem OpensWith.reread {tag tag' : Tag} {pos mid : Nat} {after after' : List Char}
    (hname : IsTagName tag.name.toList) (hlegible : ∀ attr ∈ tag.attributes, attr.Legible)
    (h : OpensWith pos (tag.renderStart.toList ++ (tagEnd tag.selfClosing ++ after)) tag' mid
      after')
    (hstrip : tag'.strip = tag.strip) : tag.endsInSlash = false ∧ after' = after := by
  by_cases hslash : tag.endsInSlash = false
  · obtain ⟨tag'', mid', -, hopen⟩ := opensWith_render hname hlegible hslash pos after
    exact ⟨hslash, (hopen.unique h).2⟩
  rw [Bool.not_eq_false] at hslash
  -- The tag prints as a self-closing one, is read as that one, and so cannot have come back as it
  -- was.
  obtain ⟨short, hshortName, hselfClosing, hshortLegible, hrender⟩ :=
    Tag.renderStart_shorten hslash hlegible
  obtain ⟨tag'', mid', hstrip', hopen⟩ := opensWith_render (by rwa [hshortName]) hshortLegible
    (by simp [Tag.endsInSlash, hselfClosing]) pos after
  rw [← List.append_assoc, hrender, List.append_assoc, ← hselfClosing] at h
  obtain ⟨rfl, -⟩ := hopen.unique h
  have hopen' : tag'.selfClosing = true := by
    obtain ⟨-, -, hflag⟩ := Tag.mk.inj hstrip'
    rw [hflag, hselfClosing]
  have htag : tag.selfClosing = false := by simpa using (Bool.and_eq_true_iff.1 hslash).1
  obtain ⟨-, -, hflag⟩ := Tag.mk.inj hstrip
  rw [hopen', htag] at hflag
  contradiction

/-! ### Trees as they are printed -/

/-- A closing tag as it is printed. -/
def closingText (name : String) : List Char :=
  '<' :: '/' :: (name.toList ++ ['>'])

/-- A printed closing tag is read as one. -/
theorem closesWith_closingText {name : String} (hname : IsTagName name.toList) (pos : Nat)
    (after : List Char) :
    ∃ stop, ClosesWith name.toList pos (closingText name ++ after) stop after :=
  ⟨_, name.toList, [], hname, equalsIgnoringCase_refl _, blanks_nil, by simp [closingText], rfl⟩

section Render

variable {tag : Tag} {children nodes : List Node} {span : Span}

theorem toList_renderNodes_cons (node : Node) (nodes : List Node) :
    (renderNodes (node :: nodes)).toList = node.render.toList ++ (renderNodes nodes).toList := by
  simp [renderNodes]

/-- **What is written of a node, before what is written of the others**, one equation for each
kind. -/
theorem toList_renderNodes_text (value tail : List Char) :
    (renderNodes (.text (String.ofList value) span :: nodes)).toList ++ tail =
      value ++ ((renderNodes nodes).toList ++ tail) := by
  simp [toList_renderNodes_cons, Node.render]

theorem toList_renderNodes_comment (value tail : List Char) :
    (renderNodes (.comment (String.ofList value) span :: nodes)).toList ++ tail =
      commentStart ++ (value ++ commentStop) ++ ((renderNodes nodes).toList ++ tail) := by
  simp [toList_renderNodes_cons, Node.render, commentStart, commentStop]

/-- An element that takes no closing tag has nothing inside. -/
theorem toList_renderNodes_leaf (hleaf : tag.takesClosingTag = false) (tail : List Char) :
    (renderNodes (.element tag children span :: nodes)).toList ++ tail =
      tag.renderStart.toList ++ (tagEnd tag.selfClosing ++
        ((renderNodes nodes).toList ++ tail)) := by
  rw [toList_renderNodes_cons]
  cases hselfClosing : tag.selfClosing with
  | true => simp [Node.render, tagEnd, hselfClosing]
  | false =>
    have hvoid : tag.isVoid = true := by simpa [Tag.takesClosingTag, hselfClosing] using hleaf
    simp [Node.render, tagEnd, hselfClosing, hvoid]

theorem toList_renderNodes_branch (htakes : tag.takesClosingTag = true) (tail : List Char) :
    (renderNodes (.element tag children span :: nodes)).toList ++ tail =
      tag.renderStart.toList ++ (tagEnd tag.selfClosing ++
        ((renderNodes children).toList ++
          (closingText tag.name ++ ((renderNodes nodes).toList ++ tail)))) := by
  obtain ⟨hselfClosing, hvoid⟩ : tag.selfClosing = false ∧ tag.isVoid = false := by
    simpa [Tag.takesClosingTag] using htakes
  rw [toList_renderNodes_cons]
  simp [Node.render, tagEnd, closingText, hselfClosing, hvoid]

/-- Raw text is written as it is. -/
theorem toList_renderNodes_rawChildren (content : List Char) (span : Span) :
    (renderNodes (rawChildren content span)).toList = content := by
  unfold rawChildren
  split
  next hempty => simp [renderNodes, List.isEmpty_iff.1 hempty]
  next => simp [renderNodes, Node.render]

end Render

/-- Spans do not tell whether a text comes first. -/
theorem noTextFirst_of_stripAll {nodes nodes' : List Node} (h : stripAll nodes' = stripAll nodes)
    (hnodes : NoTextFirst nodes) : NoTextFirst nodes' := by
  match nodes, nodes' with
  | _, [] => simp [NoTextFirst]
  | [], _ :: _ => simp [stripAll] at h
  | node :: _, node' :: _ =>
    cases node <;> cases node' <;> simp_all [stripAll, Node.strip, NoTextFirst, Node.isText]

/-- No tag in the trees ends in a slash. -/
def NoneEndsInSlash (nodes : List Node) : Prop :=
  ∀ element ∈ elementsOf nodes, element.tag.endsInSlash = false

section NoneEndsInSlash

variable {nodes : List Node} {span : Span}

theorem noneEndsInSlash_nil : NoneEndsInSlash [] := by simp [NoneEndsInSlash, elementsOf]

theorem noneEndsInSlash_text {value : String} :
    NoneEndsInSlash (.text value span :: nodes) ↔ NoneEndsInSlash nodes := Iff.rfl

theorem noneEndsInSlash_comment {value : String} :
    NoneEndsInSlash (.comment value span :: nodes) ↔ NoneEndsInSlash nodes := Iff.rfl

/-- No tag ends in a slash if this one does not, and none inside or behind. -/
theorem noneEndsInSlash_element {tag : Tag} {children : List Node} :
    NoneEndsInSlash (.element tag children span :: nodes) ↔
      tag.endsInSlash = false ∧ NoneEndsInSlash children ∧ NoneEndsInSlash nodes := by
  simp [NoneEndsInSlash, elementsOf, Node.elements, or_imp, forall_and]

theorem noneEndsInSlash_rawChildren (content : List Char) :
    NoneEndsInSlash (rawChildren content span) := by
  unfold rawChildren
  split
  · exact noneEndsInSlash_nil
  · exact noneEndsInSlash_text.2 noneEndsInSlash_nil

end NoneEndsInSlash

/-- **The trees that can be read from their markup**, apart from tags that end in a slash: tags are
legible, a text stays text and is not followed by another one, and comments and raw text do not hold
what ends them. -/
inductive Printable : List Node → Prop
  | nil : Printable []
  | text {value : List Char} {span : Span} {nodes : List Node} (hne : value ≠ [])
      (hplain : PlainRun value [])
    (hfirst : NoTextFirst nodes) (hnodes : Printable nodes) :
    Printable (.text (String.ofList value) span :: nodes)
  | comment {value : List Char} {span : Span} {nodes : List Node}
      (hend : EndsFirst commentStop value)
    (hnodes : Printable nodes) : Printable (.comment (String.ofList value) span :: nodes)
  | leaf {tag : Tag} {span : Span} {nodes : List Node} (htag : tag.Legible)
      (hleaf : tag.takesClosingTag = false)
    (hnodes : Printable nodes) : Printable (.element tag [] span :: nodes)
  | raw {tag : Tag} {content : List Char} {inner span : Span} {nodes : List Node}
      (htag : tag.Legible)
    (htakes : tag.takesClosingTag = true) (hraw : holdsRawText tag.name = true)
    (hcontent : HoldsNoClosingTag tag.name.toList content) (hnodes : Printable nodes) :
    Printable (.element tag (rawChildren content inner) span :: nodes)
  | branch {tag : Tag} {children : List Node} {span : Span} {nodes : List Node} (htag : tag.Legible)
    (htakes : tag.takesClosingTag = true) (hraw : holdsRawText tag.name = false)
    (hchildren : Printable children)
    (hnodes : Printable nodes) : Printable (.element tag children span :: nodes)

/-- A tree that was read can be read from its markup. -/
theorem Reads.printable {pos stop : Nat} {text rest : List Char} {nodes : List Node}
    (h : Reads pos text nodes stop rest) : Printable nodes := by
  induction h with
  | nil => exact .nil
  | @text pos stop value after rest nodes hne hplain hedge hreads ih =>
    have halone := hplain.cut clear_nil
    rw [List.append_nil] at halone
    exact .text hne halone (hreads.noTextFirst hedge) ih
  | comment hend _ ih => exact .comment hend ih
  | leaf hopen hleaf _ ih => exact .leaf hopen.tagLegible hleaf ih
  | raw hopen htakes hraw hcontent _ _ ih => exact .raw hopen.tagLegible htakes hraw hcontent ih
  | branch hopen htakes hraw _ _ _ ihchildren ih =>
    exact .branch hopen.tagLegible htakes hraw ihchildren ih

/-- **A tree without a tag that ends in a slash is read from its markup**, whatever follows. -/
theorem Printable.reads_render {nodes : List Node} (h : Printable nodes)
    (hslash : NoneEndsInSlash nodes) (pos' : Nat) {tail : List Char} (htail : AtEdge tail) :
    ∃ nodes' stop', stripAll nodes' = stripAll nodes ∧
      Reads pos' ((renderNodes nodes).toList ++ tail) nodes' stop' tail := by
  -- The induction is on the tree. What follows the markup is left open: inside an element it is the
  -- closing tag and the markup of the nodes after it.
  induction h generalizing pos' tail with
  | nil => exact ⟨[], pos', rfl, .nil⟩
  | @text value span nodes hne hplain hfirst _ ih =>
    obtain ⟨nodes', stop', hstrip, hreads'⟩ := ih (noneEndsInSlash_text.1 hslash)
      (pos' + byteLength value) htail
    -- Nodes that are not text begin at an edge when they are printed, so the text ends where it
    -- did.
    have hedge' := hreads'.atEdge (noTextFirst_of_stripAll hstrip hfirst) htail
    rw [← List.append_nil value] at hplain
    refine ⟨.text (String.ofList value) ⟨pos', pos' + byteLength value⟩ :: nodes', stop', ?_, ?_⟩
    · simp [stripAll, Node.strip, hstrip]
    · rw [toList_renderNodes_text]
      exact .text hne (hplain.cut hedge'.clear) hedge' hreads'
  | @comment value span nodes hend _ ih =>
    obtain ⟨nodes', stop', hstrip, hreads'⟩ := ih (noneEndsInSlash_comment.1 hslash)
      (pos' + byteLength (commentStart ++ (value ++ commentStop))) htail
    refine ⟨.comment (String.ofList value)
      ⟨pos', pos' + byteLength (commentStart ++ (value ++ commentStop))⟩ ::
      nodes', stop', ?_, ?_⟩
    · simp [stripAll, Node.strip, hstrip]
    · rw [toList_renderNodes_comment]
      exact .comment hend hreads'
  | @leaf tag span nodes hlegible hleaf _ ih =>
    obtain ⟨htag, -, hnodes⟩ := noneEndsInSlash_element.1 hslash
    obtain ⟨tag', mid', htagStrip, hopen'⟩ :=
      opensWith_render hlegible.name hlegible.attributes htag pos'
      ((renderNodes nodes).toList ++ tail)
    obtain ⟨nodes', stop', hstrip, hreads'⟩ := ih hnodes mid' htail
    refine ⟨.element tag' [] ⟨pos', mid'⟩ :: nodes', stop', ?_, ?_⟩
    · simp [stripAll, Node.strip, hstrip, htagStrip]
    · rw [toList_renderNodes_leaf hleaf]
      exact .leaf hopen' (by rw [Tag.takesClosingTag_congr htagStrip, hleaf]) hreads'
  | @raw tag content inner span nodes hlegible htakes hraw hcontent _ ih =>
    obtain ⟨htag, -, hnodes⟩ := noneEndsInSlash_element.1 hslash
    obtain ⟨tag', mid', htagStrip, hopen'⟩ :=
      opensWith_render hlegible.name hlegible.attributes htag pos'
      (content ++ (closingText tag.name ++ ((renderNodes nodes).toList ++ tail)))
    have hname : tag'.name = tag.name := (Tag.mk.inj htagStrip).1
    obtain ⟨outer', hclose'⟩ := closesWith_closingText hlegible.name (mid' + byteLength content)
      ((renderNodes nodes).toList ++ tail)
    obtain ⟨nodes', stop', hstrip, hreads'⟩ := ih hnodes outer' htail
    refine ⟨.element tag' (rawChildren content ⟨mid', mid' + byteLength content⟩)
      ⟨pos', outer'⟩ :: nodes', stop', ?_, ?_⟩
    · simp [stripAll, Node.strip, hstrip, htagStrip, stripAll_rawChildren]
    · rw [toList_renderNodes_branch htakes, toList_renderNodes_rawChildren]
      rw [← hname] at hraw hcontent
      refine .raw hopen' (by rw [Tag.takesClosingTag_congr htagStrip, htakes]) hraw hcontent ?_
        hreads'
      rwa [hname]
  | @branch tag children span nodes hlegible htakes hraw _ _ ihchildren ih =>
    obtain ⟨htag, hinside, hnodes⟩ := noneEndsInSlash_element.1 hslash
    -- The children stop at the closing tag of their element.
    have hclosing : AtEdge (closingText tag.name ++ ((renderNodes nodes).toList ++ tail)) :=
      (closesWith_closingText hlegible.name 0 _).choose_spec.atEdge
    obtain ⟨tag', mid', htagStrip, hopen'⟩ :=
      opensWith_render hlegible.name hlegible.attributes htag pos'
      ((renderNodes children).toList ++
        (closingText tag.name ++ ((renderNodes nodes).toList ++ tail)))
    have hname : tag'.name = tag.name := (Tag.mk.inj htagStrip).1
    obtain ⟨children', inner', hchildrenStrip, hchildren'⟩ := ihchildren hinside mid' hclosing
    obtain ⟨outer', hclose'⟩ :=
      closesWith_closingText hlegible.name inner' ((renderNodes nodes).toList ++ tail)
    obtain ⟨nodes', stop', hstrip, hreads'⟩ := ih hnodes outer' htail
    refine ⟨.element tag' children' ⟨pos', outer'⟩ :: nodes', stop', ?_, ?_⟩
    · simp [stripAll, Node.strip, hstrip, htagStrip, hchildrenStrip]
    · rw [toList_renderNodes_branch htakes]
      rw [← hname] at hraw
      refine .branch hopen' (by rw [Tag.takesClosingTag_congr htagStrip, htakes]) hraw hchildren' ?_
        hreads'
      rwa [hname]

/-- **A tree that is read again has no tag that ends in a slash**, and is read up to the end of its
markup. -/
theorem Printable.reread {nodes : List Node} (h : Printable nodes) {pos' stop' : Nat}
    {tail rest' : List Char} {nodes' : List Node}
    (h' : Reads pos' ((renderNodes nodes).toList ++ tail) nodes' stop' rest')
    (hstrip : stripAll nodes' = stripAll nodes) : NoneEndsInSlash nodes ∧ rest' = tail := by
  -- Each kind of node is read by one rule. The other rules give another node, which `hstrip` rules
  -- out, or another answer to whether the tag takes a closing tag or raw text.
  induction h generalizing pos' stop' tail rest' nodes' with
  | nil =>
    obtain rfl : nodes' = [] := by
      cases nodes' with
      | nil => rfl
      | cons => simp [stripAll] at hstrip
    cases h' with
    | nil => exact ⟨noneEndsInSlash_nil, by simp [renderNodes]⟩
  | @text value span nodes _ _ _ _ ih =>
    rw [toList_renderNodes_text] at h'
    generalize hmarkup : value ++ ((renderNodes nodes).toList ++ tail) = markup at h'
    cases h' with
    | @text _ _ value' after' _ nodes' _ _ _ hreads' =>
      obtain ⟨hvalue, hnodes⟩ : value' = value ∧ stripAll nodes' = stripAll nodes := by
        simpa [stripAll, Node.strip, String.ofList_inj] using hstrip
      obtain rfl : (renderNodes nodes).toList ++ tail = after' := by
        rw [hvalue] at hmarkup
        exact List.append_cancel_left hmarkup
      exact ih hreads' hnodes
    | _ => simp [stripAll, Node.strip] at hstrip
  | @comment value span nodes _ _ ih =>
    rw [toList_renderNodes_comment] at h'
    generalize hmarkup : commentStart ++ (value ++ commentStop) ++
      ((renderNodes nodes).toList ++ tail) = markup at h'
    cases h' with
    | @comment _ _ value' after' _ nodes' _ hreads' =>
      obtain ⟨hvalue, hnodes⟩ : value' = value ∧ stripAll nodes' = stripAll nodes := by
        simpa [stripAll, Node.strip, String.ofList_inj] using hstrip
      obtain rfl : (renderNodes nodes).toList ++ tail = after' := by
        rw [hvalue] at hmarkup
        exact List.append_cancel_left hmarkup
      exact ih hreads' hnodes
    | _ => simp [stripAll, Node.strip] at hstrip
  | @leaf tag span nodes hlegible hleaf _ ih =>
    rw [toList_renderNodes_leaf hleaf] at h'
    generalize hmarkup : tag.renderStart.toList ++ (tagEnd tag.selfClosing ++
      ((renderNodes nodes).toList ++ tail)) = markup at h'
    cases h' with
    | leaf hopen' hleaf' hreads' =>
      subst hmarkup
      obtain ⟨htag, hnodes⟩ := strip_element hstrip
      obtain ⟨hslash, rfl⟩ := hopen'.reread hlegible.name hlegible.attributes htag
      obtain ⟨hnone, hrest⟩ := ih hreads' hnodes.2
      exact ⟨noneEndsInSlash_element.2 ⟨hslash, noneEndsInSlash_nil, hnone⟩, hrest⟩
    | raw hopen' htakes' | branch hopen' htakes' =>
      obtain ⟨htag, -⟩ := strip_element hstrip
      rw [Tag.takesClosingTag_congr htag, hleaf] at htakes'
      contradiction
    | _ => simp [stripAll, Node.strip] at hstrip
  | @raw tag content inner span nodes hlegible htakes hraw _ _ ih =>
    rw [toList_renderNodes_branch htakes, toList_renderNodes_rawChildren] at h'
    generalize hmarkup : tag.renderStart.toList ++ (tagEnd tag.selfClosing ++
      (content ++ (closingText tag.name ++ ((renderNodes nodes).toList ++ tail)))) = markup at h'
    cases h' with
    | leaf hopen' hleaf' =>
      obtain ⟨htag, -⟩ := strip_element hstrip
      rw [Tag.takesClosingTag_congr htag, htakes] at hleaf'
      contradiction
    | @raw _ mid' outer' _ _ content' closing' after' _ tag' nodes' hopen' _ _ _ hclose' hreads' =>
      subst hmarkup
      obtain ⟨htag, hchildren, hnodes⟩ := strip_element hstrip
      obtain ⟨hslash, hinner⟩ := hopen'.reread hlegible.name hlegible.attributes htag
      rw [stripAll_rawChildren, stripAll_rawChildren] at hchildren
      obtain rfl := rawChildren_inj hchildren
      obtain rfl := List.append_cancel_left hinner
      obtain ⟨stop, hclose''⟩ := closesWith_closingText hlegible.name (mid' + byteLength content')
        ((renderNodes nodes).toList ++ tail)
      obtain rfl := hclose''.unique hclose'
      obtain ⟨hnone, hrest⟩ := ih hreads' hnodes
      exact ⟨noneEndsInSlash_element.2 ⟨hslash, noneEndsInSlash_rawChildren _, hnone⟩, hrest⟩
    | branch hopen' _ hraw' =>
      obtain ⟨htag, -⟩ := strip_element hstrip
      rw [(Tag.mk.inj htag).1, hraw] at hraw'
      contradiction
    | _ => simp [stripAll, Node.strip] at hstrip
  | @branch tag children span nodes hlegible htakes hraw _ _ ihchildren ih =>
    rw [toList_renderNodes_branch htakes] at h'
    generalize hmarkup :
      tag.renderStart.toList ++ (tagEnd tag.selfClosing ++ ((renderNodes children).toList ++
      (closingText tag.name ++ ((renderNodes nodes).toList ++ tail)))) = markup at h'
    cases h' with
    | leaf hopen' hleaf' =>
      obtain ⟨htag, -⟩ := strip_element hstrip
      rw [Tag.takesClosingTag_congr htag, htakes] at hleaf'
      contradiction
    | raw hopen' _ hraw' =>
      obtain ⟨htag, -⟩ := strip_element hstrip
      rw [(Tag.mk.inj htag).1, hraw] at hraw'
      contradiction
    | @branch _ mid' inner' outer' _ _ content' closing' after' _ tag' children' nodes' hopen' _ _
        hchildren' hclose'
        hreads' =>
      subst hmarkup
      obtain ⟨htag, hinside, hnodes⟩ := strip_element hstrip
      obtain ⟨hslash, rfl⟩ := hopen'.reread hlegible.name hlegible.attributes htag
      obtain ⟨hnoneInside, rfl⟩ := ihchildren hchildren' hinside
      obtain ⟨stop, hclose''⟩ :=
        closesWith_closingText hlegible.name inner' ((renderNodes nodes).toList ++ tail)
      obtain rfl := hclose''.unique hclose'
      obtain ⟨hnone, hrest⟩ := ih hreads' hnodes
      exact ⟨noneEndsInSlash_element.2 ⟨hslash, hnoneInside, hnone⟩, hrest⟩
    | _ => simp [stripAll, Node.strip] at hstrip

/-- A tree that was read, and that has no tag that ends in a slash, is read again. -/
theorem Reads.of_render {pos stop : Nat} {text rest : List Char} {nodes : List Node}
    (h : Reads pos text nodes stop rest) (hslash : NoneEndsInSlash nodes) (pos' : Nat)
    {tail : List Char} (htail : AtEdge tail) :
    ∃ nodes' stop', stripAll nodes' = stripAll nodes ∧
      Reads pos' ((renderNodes nodes).toList ++ tail) nodes' stop' tail :=
  h.printable.reads_render hslash pos' htail

/-- A tree that was read and is read again has no tag that ends in a slash. -/
theorem Reads.reread {pos stop : Nat} {text rest : List Char} {nodes : List Node}
    (h : Reads pos text nodes stop rest) {pos' stop' : Nat} {tail rest' : List Char}
    {nodes' : List Node} (h' : Reads pos' ((renderNodes nodes).toList ++ tail) nodes' stop' rest')
    (hstrip : stripAll nodes' = stripAll nodes) : NoneEndsInSlash nodes ∧ rest' = tail :=
  h.printable.reread h' hstrip

/-- **Printing and reading again**: the tree of a text that parses is read from its markup as it
was, apart from the spans, if and only if none of its tags ends in a slash. -/
theorem parse_render_iff {source : String} {nodes : List Node} (h : parse source = .ok nodes) :
    (∃ nodes', parse (renderNodes nodes) = .ok nodes' ∧ stripAll nodes' = stripAll nodes) ↔
      ∀ element ∈ elementsOf nodes, element.tag.endsInSlash = false := by
  obtain ⟨stop, hreads⟩ := parse_eq_ok_iff.1 h
  constructor
  · rintro ⟨nodes', hparse, hstrip⟩
    obtain ⟨stop', hreads'⟩ := parse_eq_ok_iff.1 hparse
    rw [← List.append_nil (renderNodes nodes).toList] at hreads'
    exact (hreads.reread hreads' hstrip).1
  · intro hslash
    obtain ⟨nodes', stop', hstrip, hreads'⟩ := hreads.of_render hslash 0 atEdge_nil
    rw [List.append_nil] at hreads'
    exact ⟨nodes', parse_eq_ok_iff.2 ⟨stop', hreads'⟩, hstrip⟩

/-- A bare value that ends in a slash, on an element without content: written out, the slash is
taken for the end of the tag. -/
theorem parse_render_iff_line_break :
    ¬ ∃ nodes',
      parse (renderNodes [.element ⟨"br", [⟨"a", some "b/", .none, ⟨4, 8⟩⟩], false⟩ [] ⟨0, 10⟩]) =
        .ok nodes' ∧
      stripAll nodes' = stripAll [.element ⟨"br", [⟨"a", some "b/", .none, ⟨4, 8⟩⟩], false⟩ []
        ⟨0, 10⟩] := by
  have hname : IsTagName ['b', 'r'] := ⟨'b', ['r'], rfl, rfl, List.all_eq_true.1 rfl⟩
  have hspace : Blanks [' '] := by simp [Blanks, isAsciiBlank]
  have hvalue : ReadsValue 6 ([] ++ (['b', '/'] ++ [' ', '>'])) ⟨"b/", .none, 8, [' ', '>']⟩ :=
    .bare blanks_nil ⟨by simp, List.all_eq_true.1 rfl, by decide⟩
      (.inl ⟨by simp [Stops, isUnquotedChar, isAsciiBlank], by simp⟩)
  have htag : TagReads none [] 3 ([' '] ++ (['a'] ++ ['=', 'b', '/', ' ', '>']))
      ⟨[⟨"a", some "b/", .none, ⟨4, 8⟩⟩], false, 10, []⟩ :=
    .name hspace (by simp) (List.all_eq_true.1 rfl) (by simp [Stops, isAttributeNameChar])
      (.value blanks_nil hvalue (.close hspace))
  have hopen : OpensWith 0 "<br a=b/ >".toList ⟨"br", [⟨"a", some "b/", .none, ⟨4, 8⟩⟩], false⟩ 10
      [] :=
    ⟨_, hname, rfl, by simp [Stops]; rfl, htag⟩
  rw [parse_render_iff (parse_eq_ok_iff.2 ⟨10, .leaf hopen rfl .nil⟩)]
  intro hnone
  exact absurd (hnone _ (List.mem_cons_self ..)) (by decide)

end Triptych.Markup
