import Triptych.Markup.Parser
import Triptych.Proofs.Markup.TagReading

/-!
# The grammar of markup

The parser is a machine with a stack. `Reads pos text nodes stop rest` says what it does without the
stack: the text, which stands at offset `pos`, reads as `nodes` and leaves `rest` at offset `stop`.
The relation is a grammar, with one rule for each kind of node, and an element with children is one
rule whose premise is the relation itself.

The machine and the grammar agree:

* `parseNodes_of_reads`: what the grammar reads the machine reads, whatever is open around it;
* `finishes_of_parseNodes`: a run that succeeds has read what the grammar allows, for the innermost
  element and for each element around it (`Finishes`).

For a whole text that is `parse_eq_ok_iff`.
-/

namespace Triptych.Markup

open Text

/-! ### Names up to letter case -/

theorem equalsIgnoringCase_refl (xs : List Char) : equalsIgnoringCase xs xs = true := by
  simp [equalsIgnoringCase]

theorem equalsIgnoringCase_comm (xs ys : List Char) :
    equalsIgnoringCase xs ys = equalsIgnoringCase ys xs :=
  BEq.comm

theorem length_eq_of_equalsIgnoringCase {xs ys : List Char} (h : equalsIgnoringCase xs ys = true) :
    xs.length = ys.length := by
  have hlower : lower xs = lower ys := by simpa [equalsIgnoringCase] using h
  simpa [lower] using congrArg List.length hlower

/-- Making a character small changes nothing, or it makes a letter out of a letter. -/
theorem toLower_cases (c : Char) :
    c.toLower = c ∨ isAsciiLetter c = true ∧ isAsciiLetter c.toLower = true := by
  unfold Char.toLower
  split
  next h =>
    refine .inr ⟨?_, ?_⟩
    · simp only [isAsciiLetter, Bool.or_eq_true, Bool.and_eq_true, decide_eq_true_eq]
      exact .inr h
    -- The capitals and the small letters are 32 apart.
    · obtain ⟨hlow, hhigh⟩ := h
      have ha : ('a'.val).toNat = 97 := by decide
      have hz : ('z'.val).toNat = 122 := by decide
      have hA : ('A'.val).toNat = 65 := by decide
      have hZ : ('Z'.val).toNat = 90 := by decide
      have hgap : ('a'.val - 'A'.val).toNat = 32 := by decide
      rw [ge_iff_le, UInt32.le_iff_toNat_le] at hlow
      rw [UInt32.le_iff_toNat_le] at hhigh
      have hsum : (c.val + ('a'.val - 'A'.val)).toNat = c.val.toNat + 32 := by
        rw [UInt32.toNat_add, hgap]
        omega
      simp only [isAsciiLetter, Bool.or_eq_true, Bool.and_eq_true, decide_eq_true_eq, Char.le_def,
        UInt32.le_iff_toNat_le]
      omega
  next => exact .inl rfl

/-- A class that holds all letters does not see a difference in letter case. -/
theorem class_of_toLower_eq {p : Char → Bool} (hp : ∀ c, isAsciiLetter c = true → p c = true)
    {c d : Char} (h : c.toLower = d.toLower) (hd : p d = true) : p c = true := by
  -- If one of the two was changed it is a letter, otherwise both are the same character.
  rcases toLower_cases c with hc | ⟨hc, -⟩
  · rcases toLower_cases d with hd' | ⟨-, hd'⟩
    · rwa [← hc, h, hd']
    · rw [← hc, h]
      exact hp _ hd'
  · exact hp c hc

/-- Letter case makes no difference to whether all characters are of a class that holds all
letters. -/
theorem forall_of_equalsIgnoringCase {p : Char → Bool}
    (hp : ∀ c, isAsciiLetter c = true → p c = true) {xs ys : List Char}
    (h : equalsIgnoringCase xs ys = true) (hys : ∀ c ∈ ys, p c = true) :
    ∀ c ∈ xs, p c = true := by
  have hlower : xs.map Char.toLower = ys.map Char.toLower := by
    simpa [equalsIgnoringCase, lower] using h
  intro c hc
  have hmem : c.toLower ∈ ys.map Char.toLower := hlower ▸ List.mem_map_of_mem hc
  obtain ⟨d, hd, hdc⟩ := List.mem_map.1 hmem
  exact class_of_toLower_eq hp hdc.symm (hys d hd)

theorem isTagNameChar_of_isAsciiLetter (c : Char) (h : isAsciiLetter c = true) :
    isTagNameChar c = true := by
  simp [isTagNameChar, h]

/-- A tag name stays one when letter case changes. -/
theorem IsTagName.of_equalsIgnoringCase {xs ys : List Char} (hys : IsTagName ys)
    (h : equalsIgnoringCase xs ys = true) : IsTagName xs := by
  obtain ⟨d, ds, rfl, hletter, htail⟩ := hys
  cases xs with
  | nil => exact absurd (length_eq_of_equalsIgnoringCase h) (by simp)
  | cons c cs =>
    obtain ⟨hhead, hrest⟩ : c.toLower = d.toLower ∧ cs.map Char.toLower = ds.map Char.toLower := by
      simpa [equalsIgnoringCase, lower] using h
    refine ⟨c, cs, rfl, class_of_toLower_eq (fun _ he => he) hhead hletter, ?_⟩
    exact forall_of_equalsIgnoringCase isTagNameChar_of_isAsciiLetter
      (by simpa [equalsIgnoringCase, lower] using hrest) htail

theorem IsTagName.ne_angle {name : List Char} (h : IsTagName name) :
    ∀ c ∈ name, (c != '<') = true := by
  obtain ⟨c, cs, rfl, hletter, htail⟩ := h
  intro d hd
  rw [bne_iff_ne]
  rintro rfl
  rcases List.mem_cons.1 hd with rfl | hd
  · exact absurd hletter (by decide)
  · exact absurd (htail _ hd) (by decide)

/-! ### Opening and closing tags -/

/-- The text starts with an opening tag, after which the reader stands at `stop` before `after`. -/
def OpensWith (pos : Nat) (text : List Char) (tag : Tag) (stop : Nat) (after : List Char) : Prop :=
  ∃ body, IsTagName tag.name.toList ∧ text = '<' :: tag.name.toList ++ body ∧
    Stops isTagNameChar body ∧
    TagReads none [] (pos + byteLength ('<' :: tag.name.toList)) body
      ⟨tag.attributes, tag.selfClosing, stop, after⟩

/-- The text starts with a closing tag for `name`, after which the reader stands at `stop` before
`after`. -/
def ClosesWith (name : List Char) (pos : Nat) (text : List Char) (stop : Nat) (after : List Char) :
    Prop :=
  ∃ written gap, IsTagName written ∧ equalsIgnoringCase written name = true ∧ Blanks gap ∧
    text = '<' :: '/' :: (written ++ (gap ++ '>' :: after)) ∧
    stop = pos + byteLength ('<' :: '/' :: written) + byteLength gap + byteLength ['>']

/-- No closing tag for `name` stands in the text. -/
def HoldsNoClosingTag (name content : List Char) : Prop :=
  ∀ part, part <:+ content → startsClosingTag name part = false

/-- What starts with a closing tag: its two signs, the name up to letter case, and a blank or
`>`. -/
theorem startsClosingTag_iff {name text : List Char} :
    startsClosingTag name text = true ↔
      ∃ written c rest, text = '<' :: '/' :: (written ++ c :: rest) ∧
        equalsIgnoringCase written name = true ∧
        (c = '>' ∨ isAsciiBlank c = true) := by
  constructor
  · intro h
    unfold startsClosingTag at h
    split at h
    next body =>
      obtain ⟨hname, hnext⟩ := Bool.and_eq_true_iff.1 h
      split at hnext
      next c rest hdrop =>
        refine ⟨body.take name.length, c, rest, ?_, hname, by simpa using hnext⟩
        rw [← hdrop, List.take_append_drop]
      next => contradiction
    next => contradiction
  · rintro ⟨written, c, rest, rfl, hname, hnext⟩
    -- The name in the text is as long as the one that is looked for.
    have hlength := length_eq_of_equalsIgnoringCase hname
    simp only [startsClosingTag, ← hlength, List.take_left, List.drop_left, hname, Bool.true_and]
    simpa using hnext

/-- A text that starts with a closing tag does so whatever is put behind it. -/
theorem startsClosingTag_append {name text : List Char} (h : startsClosingTag name text = true)
    (more : List Char) : startsClosingTag name (text ++ more) = true := by
  obtain ⟨written, c, rest, rfl, hname, hnext⟩ := startsClosingTag_iff.1 h
  exact startsClosingTag_iff.2 ⟨written, c, rest ++ more, by simp, hname, hnext⟩

/-- A closing tag that starts before an edge ends before it. -/
theorem startsClosingTag_cut {name text tail : List Char} (hname : ∀ c ∈ name, (c != '<') = true)
    (hne : text ≠ []) (htail : Clear tail) (h : startsClosingTag name (text ++ tail) = true) :
    startsClosingTag name text = true := by
  obtain ⟨written, c, rest, heq, hwritten, hnext⟩ := startsClosingTag_iff.1 h
  obtain ⟨d, ds, rfl⟩ := List.exists_cons_of_ne_nil hne
  obtain ⟨rfl, hbody⟩ : d = '<' ∧ ds ++ tail = '/' :: (written ++ c :: rest) := by simpa using heq
  -- Neither the name nor what ends it is `<`, so the tag does not reach into the tail.
  have hmark : '<' ∉ '/' :: (written ++ [c]) := by
    have hangle := forall_of_equalsIgnoringCase (p := (· != '<'))
      (fun e he => by simpa using (ne_of_isAsciiLetter he).2.2) hwritten hname
    intro hmem
    rcases List.mem_append.1 ((List.mem_cons.1 hmem).resolve_left (by decide)) with hmem | hmem
    · simpa using hangle '<' hmem
    · obtain rfl := List.mem_singleton.1 hmem
      exact absurd hnext (by decide)
  obtain ⟨more, rfl⟩ := prefix_of_clear ⟨rest, by rw [hbody]; simp⟩ hmark htail
  exact startsClosingTag_iff.2 ⟨written, c, more, by simp, hwritten, hnext⟩

/-- What stands before the first closing tag holds none. -/
theorem holdsNoClosingTag_of_break {name text content found : List Char}
    (h : breakAtClosingTag name text = some (content, found)) : HoldsNoClosingTag name content := by
  induction text generalizing content with
  | nil => simp [breakAtClosingTag] at h
  | cons c cs ih =>
    simp only [breakAtClosingTag] at h
    split at h
    next =>
      obtain ⟨rfl, -⟩ : [] = content ∧ _ := by simpa using h
      intro part hpart
      rw [List.suffix_nil.1 hpart]
      rfl
    next hstart =>
      simp only [Option.map_eq_some_iff, Prod.mk.injEq, Prod.exists] at h
      obtain ⟨content', found', hrec, rfl, rfl⟩ := h
      intro part hpart
      -- A part that starts with the first character would be a closing tag of the whole text.
      rcases List.suffix_cons_iff.1 hpart with rfl | hpart
      · refine Bool.eq_false_iff.2 fun hpart' => hstart ?_
        have hlong := startsClosingTag_append hpart' found'
        rwa [List.cons_append, (breakAtClosingTag_spec hrec).1] at hlong
      · exact ih hrec part hpart

/-- A text that holds no closing tag ends at the closing tag behind it. -/
theorem breakAtClosingTag_eq {name content found : List Char}
    (hname : ∀ c ∈ name, (c != '<') = true) (hcontent : HoldsNoClosingTag name content)
    (hfound : startsClosingTag name found = true) :
    breakAtClosingTag name (content ++ found) = some (content, found) := by
  obtain ⟨written, d, rest, rfl, -, -⟩ := startsClosingTag_iff.1 hfound
  induction content with
  | nil => rw [List.nil_append, breakAtClosingTag, if_pos hfound]
  | cons c cs ih =>
    -- A closing tag that starts inside the content would end there too.
    have hstart : ¬ startsClosingTag name (c :: cs ++ '<' :: '/' :: (written ++ d :: rest)) =
        true := by
      intro hlong
      have hshort := startsClosingTag_cut hname (by simp) (clear_angle _) hlong
      rw [hcontent _ (List.suffix_refl _)] at hshort
      contradiction
    have hrec := ih fun part hpart => hcontent part (hpart.trans (List.suffix_cons c cs))
    rw [List.cons_append] at hstart ⊢
    rw [breakAtClosingTag, if_neg hstart, hrec]
    rfl

/-- How much of a closing tag its two signs and its name take. -/
theorem length_closing {written name : List Char} (h : equalsIgnoringCase written name = true) :
    2 + name.length = ('<' :: '/' :: written).length := by
  have hlength := length_eq_of_equalsIgnoringCase h
  simp only [List.length_cons]
  omega

/-- Raw text that holds no closing tag is read up to the closing tag behind it. -/
theorem readRawText_of_closesWith {name : String} {pos stop : Nat}
    {content closing after : List Char} (opening : Span)
    (hname : ∀ c ∈ name.toList, (c != '<') = true)
    (hcontent : HoldsNoClosingTag name.toList content)
    (hclose : ClosesWith name.toList (pos + byteLength content) closing stop after) :
    readRawText name opening pos (content ++ closing) =
      .ok ⟨content, pos + byteLength content, stop, after⟩ := by
  obtain ⟨written, gap, -, hwritten, hgap, rfl, rfl⟩ := hclose
  have hstart : startsClosingTag name.toList ('<' :: '/' :: (written ++ (gap ++ '>' :: after))) =
      true := by
    -- What ends the name is `>` or the first blank of the gap.
    cases gap with
    | nil => exact startsClosingTag_iff.2 ⟨written, '>', after, rfl, hwritten, .inl rfl⟩
    | cons c cs =>
      exact startsClosingTag_iff.2
        ⟨written, c, cs ++ '>' :: after, rfl, hwritten, .inr (hgap c (by simp))⟩
  rw [readRawText, breakAtClosingTag_eq hname hcontent hstart, length_closing hwritten]
  simp only [← List.cons_append, List.take_left, List.drop_left, readTagEnd_of_blanks hgap]

/-- Raw text that is read ends at the first closing tag. -/
theorem closesWith_of_readRawText {name : String} {opening : Span} {pos : Nat} {text : List Char}
    {found : ReadRawText} (hname : IsTagName name.toList)
    (h : readRawText name opening pos text = .ok found) :
    ∃ closing, text = found.content ++ closing ∧ HoldsNoClosingTag name.toList found.content ∧
      found.contentStop = pos + byteLength found.content ∧
      ClosesWith name.toList found.contentStop closing found.stop found.rest := by
  unfold readRawText at h
  split at h
  · contradiction
  next content closing hbreak =>
    -- The content ends where the search found the tag, and that tag is read to its end.
    obtain ⟨happend, hstarts⟩ := breakAtClosingTag_spec hbreak
    simp only at h
    split at h
    · contradiction
    next stop rest hend =>
      obtain rfl := Except.ok.inj h
      refine ⟨closing, happend.symm, holdsNoClosingTag_of_break hbreak, rfl, ?_⟩
      obtain ⟨written, c, more, rfl, hwritten, -⟩ := startsClosingTag_iff.1 hstarts
      rw [length_closing hwritten, ← List.cons_append, ← List.cons_append, List.take_left,
        List.drop_left] at hend
      obtain ⟨gap, hgap, hmore, hstop⟩ := blanks_of_readTagEnd hend
      exact ⟨written, gap, hname.of_equalsIgnoringCase hwritten, hwritten,
        hgap, by rw [hmore], hstop⟩

/-! ### The rules -/

/-- **The grammar of markup.** The text at offset `pos` reads as the nodes and leaves `rest` at
offset `stop`. -/
inductive Reads : Nat → List Char → List Node → Nat → List Char → Prop
  | nil {pos : Nat} {text : List Char} : Reads pos text [] pos text
  | text {pos stop : Nat} {value after rest : List Char} {nodes : List Node} (hne : value ≠ [])
    (hplain : PlainRun (value ++ after) after) (hedge : AtEdge after)
    (hreads : Reads (pos + byteLength value) after nodes stop rest) :
    Reads pos (value ++ after) (.text (String.ofList value) ⟨pos, pos + byteLength value⟩ :: nodes)
      stop rest
  | comment {pos stop : Nat} {value after rest : List Char} {nodes : List Node}
    (hend : EndsFirst commentStop value)
    (hreads : Reads (pos + byteLength (commentStart ++ (value ++ commentStop))) after nodes stop
      rest) :
    Reads pos (commentStart ++ (value ++ commentStop) ++ after)
      (.comment (String.ofList value)
      ⟨pos, pos + byteLength (commentStart ++ (value ++ commentStop))⟩ :: nodes)
      stop rest
  | leaf {pos mid stop : Nat} {text after rest : List Char} {tag : Tag} {nodes : List Node}
    (hopen : OpensWith pos text tag mid after) (hleaf : tag.takesClosingTag = false)
    (hreads : Reads mid after nodes stop rest) :
    Reads pos text (.element tag [] ⟨pos, mid⟩ :: nodes) stop rest
  | raw {pos mid outer stop : Nat} {text content closing after rest : List Char} {tag : Tag}
    {nodes : List Node} (hopen : OpensWith pos text tag mid (content ++ closing))
    (htakes : tag.takesClosingTag = true) (hraw : holdsRawText tag.name = true)
    (hcontent : HoldsNoClosingTag tag.name.toList content)
    (hclose : ClosesWith tag.name.toList (mid + byteLength content) closing outer after)
    (hreads : Reads outer after nodes stop rest) :
    Reads pos text
      (.element tag (rawChildren content ⟨mid, mid + byteLength content⟩) ⟨pos, outer⟩ :: nodes)
      stop rest
  | branch {pos mid inner outer stop : Nat} {text content closing after rest : List Char}
      {tag : Tag}
    {children nodes : List Node} (hopen : OpensWith pos text tag mid content)
    (htakes : tag.takesClosingTag = true) (hraw : holdsRawText tag.name = false)
    (hchildren : Reads mid content children inner closing)
    (hclose : ClosesWith tag.name.toList inner closing outer after)
    (hreads : Reads outer after nodes stop rest) :
    Reads pos text (.element tag children ⟨pos, outer⟩ :: nodes) stop rest

/-! ### The machine follows the grammar -/

section Steps

variable {enclosing : Option Enclosing} {stack : List Frame} {nodes : List Node} {pos : Nat}

/-- The end of the text ends a run with nothing open. -/
theorem parseNodes_end {text : List Char} (h : lexContent text = none) :
    parseNodes enclosing stack nodes pos text =
      match stack, enclosing with
      | frame :: _, _ => .error (.unclosedElement frame.span frame.tag.name)
      | [], some outer => .error (.unclosedElement outer.span outer.name)
      | [], none => .ok ⟨nodes.reverse, pos, pos, text⟩ := by
  refine (parseNodes.eq_def ..).trans ?_
  split
  next => rfl
  next hsome => rw [h] at hsome; contradiction

/-- One step of the machine, for a token that was found. -/
theorem parseNodes_step {text : List Char} {lexeme : Lexeme ContentFault ContentPart}
    (h : lexContent text = some lexeme) :
    parseNodes enclosing stack nodes pos text =
      let stop := pos + byteLength lexeme.chars
      match lexeme.token with
      | .error _ => .error (refusedContent pos (byteLength lexeme.chars) text)
      | .ok (.comment value) =>
        parseNodes enclosing stack (.comment value ⟨pos, stop⟩ :: nodes) stop lexeme.rest
      | .ok (.openTag name) =>
        match readTag stop lexeme.rest with
        | .error error => .error error
        | .ok found =>
          let tag : Tag := ⟨name, found.attributes, found.selfClosing⟩
          if !tag.takesClosingTag then
            parseNodes enclosing stack (.element tag [] ⟨pos, found.stop⟩ :: nodes) found.stop
              found.rest
          else if holdsRawText name then
            match readRawText name ⟨pos, found.stop⟩ found.stop found.rest with
            | .error error => .error error
            | .ok raw =>
              let children := rawChildren raw.content ⟨found.stop, raw.contentStop⟩
              parseNodes enclosing stack (.element tag children ⟨pos, raw.stop⟩ :: nodes) raw.stop
                raw.rest
          else parseNodes enclosing (⟨tag, ⟨pos, found.stop⟩, nodes⟩ :: stack)
            [] found.stop found.rest
      | .ok (.closeTag name) =>
        match stack, enclosing with
        | frame :: stack, _ =>
          if equalsIgnoringCase frame.tag.name.toList name.toList then
            match readTagEnd stop lexeme.rest with
            | .error error => .error error
            | .ok (stop, rest) => parseNodes enclosing stack (frame.close nodes stop) stop rest
          else .error (.mismatchedClosingTag ⟨pos, stop⟩ frame.tag.name name)
        | [], some outer =>
          if equalsIgnoringCase outer.name.toList name.toList then
            match readTagEnd stop lexeme.rest with
            | .error error => .error error
            | .ok (stop, rest) => .ok ⟨nodes.reverse, pos, stop, rest⟩
          else .error (.mismatchedClosingTag ⟨pos, stop⟩ outer.name name)
        | [], none => .error (.invalidSyntax ⟨pos, stop⟩ (.strayClosingTag name))
      | .ok _ =>
        parseNodes enclosing stack (appendText lexeme.chars ⟨pos, stop⟩ nodes) stop
          lexeme.rest := by
  -- The machine matches on what it reads and keeps the equations; they are dropped here.
  refine (parseNodes.eq_def ..).trans ?_
  split
  next hnone => rw [h] at hnone; contradiction
  next hsome =>
    obtain rfl := Option.some.inj (h.symm.trans hsome)
    dsimp only
    cases lexeme.token with
    | error fault => rfl
    | ok token =>
      cases token with
      | openTag name =>
        dsimp only
        split
        next htag => rw [htag]
        next htag =>
          rw [htag]
          dsimp only
          split
          · rfl
          split
          · split
            next hraw => rw [hraw]
            next hraw => rw [hraw]
          · rfl
      | closeTag name =>
        cases stack with
        | cons frame stack =>
          dsimp only
          split
          · split
            next hend => rw [hend]
            next hend => rw [hend]
          · rfl
        | nil =>
          cases enclosing with
          | some outer => rfl
          | none => rfl
      | _ => rfl

theorem parseNodes_plain {chars after : List Char} {token : ContentPart}
    (h : Lexes chars token after) (hplain : token.isPlain = true) :
    parseNodes enclosing stack nodes pos (chars ++ after) =
      parseNodes enclosing stack (appendText chars ⟨pos, pos + byteLength chars⟩ nodes)
        (pos + byteLength chars) after := by
  rw [parseNodes_step (lexContent_of_lexes h)]
  cases token with
  | text | lessThan | declaration => rfl
  | _ => contradiction

theorem parseNodes_comment {value after : List Char} (hend : EndsFirst commentStop value) :
    parseNodes enclosing stack nodes pos (commentStart ++ (value ++ commentStop) ++ after) =
      parseNodes enclosing stack
        (.comment (String.ofList value)
        ⟨pos, pos + byteLength (commentStart ++ (value ++ commentStop))⟩ :: nodes)
        (pos + byteLength (commentStart ++ (value ++ commentStop))) after := by
  rw [parseNodes_step (lexContent_of_lexes (.comment hend))]

theorem OpensWith.lexContent {text after : List Char} {tag : Tag} {mid : Nat}
    (h : OpensWith pos text tag mid after) :
    ∃ body, lexContent text =
        some { chars := '<' :: tag.name.toList, token := .ok (.openTag tag.name), rest := body } ∧
      readTag (pos + byteLength ('<' :: tag.name.toList)) body =
        .ok ⟨tag.attributes, tag.selfClosing, mid, after⟩ := by
  obtain ⟨body, hname, rfl, hstop, hreads⟩ := h
  refine ⟨body, ?_, readAttributes_of_tagReads hreads⟩
  rw [lexContent_of_lexes (.openTag hname hstop), String.ofList_toList]

theorem parseNodes_leaf {text after : List Char} {tag : Tag} {mid : Nat}
    (h : OpensWith pos text tag mid after) (hleaf : tag.takesClosingTag = false) :
    parseNodes enclosing stack nodes pos text =
      parseNodes enclosing stack (.element tag [] ⟨pos, mid⟩ :: nodes) mid after := by
  obtain ⟨body, hlex, htag⟩ := h.lexContent
  rw [parseNodes_step hlex]
  simp only [htag]
  rw [if_pos (by simp [hleaf])]

theorem parseNodes_raw {text after : List Char} {tag : Tag} {mid : Nat} {raw : ReadRawText}
    (h : OpensWith pos text tag mid after) (htakes : tag.takesClosingTag = true)
    (hraw : holdsRawText tag.name = true)
    (hread : readRawText tag.name ⟨pos, mid⟩ mid after = .ok raw) :
    parseNodes enclosing stack nodes pos text =
      parseNodes enclosing stack
        (.element tag (rawChildren raw.content ⟨mid, raw.contentStop⟩) ⟨pos, raw.stop⟩ :: nodes)
        raw.stop raw.rest := by
  obtain ⟨body, hlex, htag⟩ := h.lexContent
  rw [parseNodes_step hlex]
  simp only [htag]
  rw [if_neg (by simp [htakes]), if_pos hraw]
  simp only [hread]

theorem parseNodes_branch {text after : List Char} {tag : Tag} {mid : Nat}
    (h : OpensWith pos text tag mid after) (htakes : tag.takesClosingTag = true)
    (hraw : holdsRawText tag.name = false) :
    parseNodes enclosing stack nodes pos text =
      parseNodes enclosing (⟨tag, ⟨pos, mid⟩, nodes⟩ :: stack) [] mid after := by
  obtain ⟨body, hlex, htag⟩ := h.lexContent
  rw [parseNodes_step hlex]
  simp only [htag]
  rw [if_neg (by simp [htakes]), if_neg (by simp [hraw])]

/-- A closing tag is lexed and read to its end. -/
theorem ClosesWith.lexContent {name text after : List Char} {stop : Nat}
    (h : ClosesWith name pos text stop after) :
    ∃ written body, lexContent text =
        some { chars := '<' :: '/' :: written, token := .ok (.closeTag (String.ofList written)),
               rest := body } ∧
      equalsIgnoringCase name written = true ∧
      readTagEnd (pos + byteLength ('<' :: '/' :: written)) body = .ok (stop, after) := by
  obtain ⟨written, gap, hname, hwritten, hgap, rfl, rfl⟩ := h
  refine ⟨written, gap ++ '>' :: after,
    ?_, by rwa [equalsIgnoringCase_comm], readTagEnd_of_blanks hgap⟩
  -- A blank or `>` is no character of a name.
  have hstop : Stops isTagNameChar (gap ++ '>' :: after) := by
    cases gap with
    | nil => simp [Stops, isTagNameChar, isAsciiLetter, isAsciiDigit]
    | cons c cs =>
      have hc := hgap c (by simp)
      simp only [isAsciiBlank, Bool.or_eq_true, beq_iff_eq] at hc
      rcases hc with (((rfl | rfl) | rfl) | rfl) | rfl <;> simp [Stops] <;> decide
  exact lexContent_of_lexes (.closeTag hname hstop)

theorem parseNodes_close {frame : Frame} {text after : List Char} {stop : Nat}
    (h : ClosesWith frame.tag.name.toList pos text stop after) :
    parseNodes enclosing (frame :: stack) nodes pos text =
      parseNodes enclosing stack (frame.close nodes stop) stop after := by
  obtain ⟨written, body, hlex, hwritten, hend⟩ := h.lexContent
  rw [parseNodes_step hlex]
  simp only [String.toList_ofList]
  rw [if_pos hwritten]
  simp only [hend]

end Steps

/-- True of a text. -/
def Node.isText : Node → Bool
  | .text _ _ => true
  | .element _ _ _ | .comment _ _ => false

/-- The nodes do not start with a text. -/
def NoTextFirst (nodes : List Node) : Prop :=
  ∀ node ∈ nodes.head?, node.isText = false

theorem appendText_of_noTextFirst {value : List Char} {span : Span} {nodes : List Node}
    (h : NoTextFirst nodes) :
    appendText value span nodes = .text (String.ofList value) span :: nodes := by
  unfold appendText
  split
  next => exact absurd (h _ rfl) (by simp [Node.isText])
  next => rfl

/-- Plain tokens are added to a text that stands right before them. -/
theorem parseNodes_plainRun_text {enclosing : Option Enclosing} {stack : List Frame}
    {nodes : List Node} {value rest : List Char} (h : PlainRun (value ++ rest) rest)
    (before : String) (start pos : Nat) :
    parseNodes enclosing stack (.text before ⟨start, pos⟩ :: nodes) pos (value ++ rest) =
      parseNodes enclosing stack
        (.text (before ++ String.ofList value) ⟨start, pos + byteLength value⟩ :: nodes)
        (pos + byteLength value) rest := by
  generalize htext : value ++ rest = text at h
  -- Each token is joined to the text before it, which grows.
  induction h generalizing value before pos with
  | refl text =>
    obtain rfl : value = [] := by simpa using htext
    simp
  | @step chars after rest token hlex hplain hrun ih =>
    obtain ⟨value', rfl⟩ := hrun.exists_append
    obtain rfl : value = chars ++ value' := by
      rw [← List.append_assoc] at htext
      exact List.append_cancel_right htext
    rw [parseNodes_plain hlex hplain, appendText, if_pos rfl, ih _ _ rfl]
    simp [String.ofList_append, String.append_assoc, Nat.add_assoc]

/-- Plain tokens become one text. -/
theorem parseNodes_plainRun {enclosing : Option Enclosing} {stack : List Frame} {nodes : List Node}
    {pos : Nat} {value rest : List Char} (h : PlainRun (value ++ rest) rest) (hne : value ≠ [])
    (hnodes : NoTextFirst nodes) :
    parseNodes enclosing stack nodes pos (value ++ rest) =
      parseNodes enclosing stack (.text (String.ofList value)
        ⟨pos, pos + byteLength value⟩ :: nodes)
        (pos + byteLength value) rest := by
  generalize htext : value ++ rest = text at h
  cases h with
  | refl text => exact absurd (by simpa using htext) hne
  | @step chars after rest token hlex hplain hrun =>
    obtain ⟨value', rfl⟩ := hrun.exists_append
    obtain rfl : value = chars ++ value' := by
      rw [← List.append_assoc] at htext
      exact List.append_cancel_right htext
    -- The first token starts a text, the others are joined to it.
    rw [parseNodes_plain hlex hplain, appendText_of_noTextFirst hnodes,
      parseNodes_plainRun_text hrun]
    simp [String.ofList_append, Nat.add_assoc]

theorem OpensWith.isTagName {pos mid : Nat} {text after : List Char} {tag : Tag}
    (h : OpensWith pos text tag mid after) : IsTagName tag.name.toList := by
  obtain ⟨body, hname, -⟩ := h
  exact hname

/-- **What the grammar reads the machine reads**, whatever is open around it. Only a text must not
be read right after a text, with which the machine would join it. -/
theorem parseNodes_of_reads {pos stop : Nat} {text rest : List Char} {nodes : List Node}
    (h : Reads pos text nodes stop rest) (enclosing : Option Enclosing) (stack : List Frame)
    (before : List Node) (hbefore : AtEdge text ∨ NoTextFirst before) :
    parseNodes enclosing stack before pos text =
      parseNodes enclosing stack (nodes.reverse ++ before) stop rest := by
  -- By induction on the rules: the children of an element are read with its frame on the stack.
  induction h generalizing stack before with
  | nil => rfl
  | @text pos stop value after rest nodes hne hplain hedge _ ih =>
    -- The text does not start at an edge, so no text stands before it.
    rw [parseNodes_plainRun hplain hne (hbefore.resolve_left (hplain.not_atEdge hne)),
      ih _ _ (.inl hedge)]
    simp
  | comment hend _ ih =>
    rw [parseNodes_comment hend, ih _ _ (.inr (by simp [NoTextFirst, Node.isText]))]
    simp
  | leaf hopen hleaf _ ih =>
    rw [parseNodes_leaf hopen hleaf, ih _ _ (.inr (by simp [NoTextFirst, Node.isText]))]
    simp
  | @raw pos mid outer stop text content closing after rest tag nodes hopen htakes hraw hcontent
      hclose _ ih =>
    have hread := readRawText_of_closesWith ⟨pos, mid⟩ hopen.isTagName.ne_angle hcontent hclose
    rw [parseNodes_raw hopen htakes hraw hread, ih _ _ (.inr (by simp [NoTextFirst, Node.isText]))]
    simp
  | @branch pos mid inner outer stop text content closing after rest tag children nodes hopen htakes
      hraw _ hclose _
      ihchildren ih =>
    have hnone : NoTextFirst [] := by simp [NoTextFirst]
    have helement :
        NoTextFirst (Frame.close ⟨tag, ⟨pos, mid⟩, before⟩ (children.reverse ++ []) outer) := by
      simp [NoTextFirst, Node.isText, Frame.close]
    calc parseNodes enclosing stack before pos text
        = parseNodes enclosing (⟨tag, ⟨pos, mid⟩, before⟩ :: stack) [] mid content :=
          parseNodes_branch hopen htakes hraw
      _ = parseNodes enclosing (⟨tag, ⟨pos, mid⟩, before⟩ :: stack)
          (children.reverse ++ []) inner closing :=
          ihchildren _ _ (.inr hnone)
      _ = parseNodes enclosing stack (Frame.close ⟨tag, ⟨pos, mid⟩, before⟩
        (children.reverse ++ []) outer) outer
            after := parseNodes_close hclose
      _ = parseNodes enclosing stack (nodes.reverse ++
            Frame.close ⟨tag, ⟨pos, mid⟩, before⟩ (children.reverse ++ []) outer) stop rest :=
              ih _ _ (.inr helement)
      _ = parseNodes enclosing stack ((.element tag children ⟨pos, outer⟩ :: nodes).reverse ++
          before) stop rest := by
          simp [Frame.close]

/-! ### The grammar follows the machine -/

/-- Nodes that were read, newest first, followed by nodes in order. A text continues a text right
before it. -/
def joined (nodes : List Node) : List Node → List Node
  | .text value span :: more => more.reverse ++ appendText value.toList span nodes
  | more => more.reverse ++ nodes

theorem joined_of_noTextFirst {nodes : List Node} (h : NoTextFirst nodes) (more : List Node) :
    joined nodes more = more.reverse ++ nodes := by
  unfold joined
  split
  next => rw [appendText_of_noTextFirst h]; simp
  next => rfl

/-- A text that is added in two parts is added as a whole. -/
theorem appendText_appendText (chars value : List Char) (pos mid stop : Nat) (nodes : List Node) :
    appendText value ⟨mid, stop⟩ (appendText chars ⟨pos, mid⟩ nodes) =
      appendText (chars ++ value) ⟨pos, stop⟩ nodes := by
  match nodes with
  | .text before span :: older =>
    by_cases h : span.stop = pos <;> simp [appendText, h, String.ofList_append, String.append_assoc]
  | [] | .element _ _ _ :: _ | .comment _ _ :: _ => simp [appendText, String.ofList_append]

/-- A closing tag stands at an edge. -/
theorem ClosesWith.atEdge {name text after : List Char} {pos stop : Nat}
    (h : ClosesWith name pos text stop after) : AtEdge text := by
  obtain ⟨written, gap, hname, -, -, rfl, -⟩ := h
  exact atEdge_closeTag hname _

theorem OpensWith.atEdge {text after : List Char} {pos stop : Nat} {tag : Tag}
    (h : OpensWith pos text tag stop after) : AtEdge text := by
  obtain ⟨body, hname, rfl, -⟩ := h
  exact atEdge_openTag hname _

/-- What does not read as a text first starts at an edge. -/
theorem Reads.atEdge {pos stop : Nat} {text rest : List Char} {nodes : List Node}
    (h : Reads pos text nodes stop rest) (hnodes : NoTextFirst nodes) (hrest : AtEdge rest) :
    AtEdge text := by
  cases h with
  | nil => exact hrest
  | text => exact absurd (hnodes _ rfl) (by simp [Node.isText])
  | comment => rw [List.append_assoc]; exact atEdge_comment _
  | leaf hopen | raw hopen | branch hopen => exact hopen.atEdge

/-- What starts at an edge does not read as a text first. -/
theorem Reads.noTextFirst {pos stop : Nat} {text rest : List Char} {nodes : List Node}
    (h : Reads pos text nodes stop rest) (hedge : AtEdge text) : NoTextFirst nodes := by
  cases h with
  | text hne hplain => exact absurd hedge (hplain.not_atEdge hne)
  | _ => simp [NoTextFirst, Node.isText]

/-- A plain token before what has been read joins the text that follows it, or is a text of its
own. -/
theorem Reads.prepend {pos stop : Nat} {chars after rest : List Char} {token : ContentPart}
    {more : List Node} (hlex : Lexes chars token after) (hplain : token.isPlain = true)
    (h : Reads (pos + byteLength chars) after more stop rest) (hrest : AtEdge rest) :
    ∃ more', Reads pos (chars ++ after) more' stop rest ∧
      ∀ nodes, joined nodes more' =
        joined (appendText chars ⟨pos, pos + byteLength chars⟩ nodes) more := by
  by_cases hfirst : NoTextFirst more
  -- No text follows: the token is a text of its own.
  · refine ⟨.text (String.ofList chars) ⟨pos, pos + byteLength chars⟩ :: more, ?_, fun nodes => ?_⟩
    · exact .text hlex.chars_ne_nil (.step hlex hplain (.refl _)) (h.atEdge hfirst hrest) h
    · rw [joined, String.toList_ofList]
      unfold joined
      split
      next => exact absurd (hfirst _ rfl) (by simp [Node.isText])
      next => rfl
  -- A text follows, and the token becomes its beginning.
  · generalize hmid : pos + byteLength chars = mid at h
    cases h with
    | @text _ _ value after rest nodes hne hrun hedge hreads =>
      subst hmid
      refine ⟨.text (String.ofList (chars ++ value))
        ⟨pos, pos + byteLength chars + byteLength value⟩ :: nodes, ?_, fun older => ?_⟩
      · have hrun' : PlainRun ((chars ++ value) ++ after) after := by
          rw [List.append_assoc]
          exact .step hlex hplain hrun
        have hreads' : Reads pos ((chars ++ value) ++ after) _ _ _ :=
          .text (by simp [hne]) hrun' hedge (by rwa [byteLength_append, ← Nat.add_assoc])
        rwa [List.append_assoc, byteLength_append, ← Nat.add_assoc] at hreads'
      · simp only [joined, String.toList_ofList]
        rw [appendText_appendText]
    | _ => exact absurd (by simp [NoTextFirst, Node.isText]) hfirst

/-- What is left to read once the nodes of the innermost open element are known: its closing tag,
then the same for the elements around it. The last of them ends with the enclosing tag or with the
text. -/
def Ends (enclosing : Option Enclosing) :
    List Frame → List Node → Nat → List Char → ReadNodes → Prop
  | [], nodes, pos, text, found =>
    found.nodes = nodes.reverse ∧ found.contentStop = pos ∧
      match enclosing with
      | none => text = [] ∧ found.stop = pos ∧ found.rest = []
      | some outer => ClosesWith outer.name.toList pos text found.stop found.rest
  | frame :: stack, nodes, pos, text, found =>
    ∃ stop after more mid rest, ClosesWith frame.tag.name.toList pos text stop after ∧
      Reads stop after more mid rest ∧
      Ends enclosing stack (more.reverse ++ frame.close nodes stop) mid rest found

/-- A run reads nodes up to the end of the innermost open element, and then what is left. -/
def Finishes (enclosing : Option Enclosing) (stack : List Frame) (nodes : List Node) (pos : Nat)
    (text : List Char) (found : ReadNodes) : Prop :=
  ∃ more stop rest, Reads pos text more stop rest ∧
    Ends enclosing stack (joined nodes more) stop rest found

theorem Ends.atEdge {enclosing : Option Enclosing} {stack : List Frame} {nodes : List Node}
    {pos : Nat} {text : List Char} {found : ReadNodes}
    (h : Ends enclosing stack nodes pos text found) : AtEdge text := by
  match stack, enclosing with
  | [], none =>
    obtain ⟨-, -, rfl, -⟩ := h
    exact atEdge_nil
  | [], some outer =>
    obtain ⟨-, -, hclose⟩ := h
    exact hclose.atEdge
  | frame :: stack, _ =>
    obtain ⟨stop, after, more, mid, rest, hclose, -⟩ := h
    exact hclose.atEdge

/-- A node that is no text and is followed by more. -/
theorem Finishes.cons {enclosing : Option Enclosing} {stack : List Frame} {nodes : List Node}
    {node : Node} {pos mid : Nat} {text after : List Char} {found : ReadNodes}
    (hnode : node.isText = false) (h : Finishes enclosing stack (node :: nodes) mid after found)
    (hread : ∀ {more stop rest}, Reads mid after more stop rest →
      Reads pos text (node :: more) stop rest) :
    Finishes enclosing stack nodes pos text found := by
  obtain ⟨more, stop, rest, hreads, hends⟩ := h
  refine ⟨node :: more, stop, rest, hread hreads, ?_⟩
  rw [joined_of_noTextFirst (by simpa [NoTextFirst] using hnode)] at hends
  -- The node is no text, so nothing is joined to what was read before.
  unfold joined
  split
  next heq =>
    obtain ⟨rfl, -⟩ := List.cons.inj heq
    simp [Node.isText] at hnode
  next => simpa using hends

/-- An opening tag that is lexed and read. -/
theorem opensWith_of_lexContent {pos : Nat} {text : List Char}
    {lexeme : Lexeme ContentFault ContentPart} {name : String} {found : ReadTag}
    (hlex : lexContent text = some lexeme) (htoken : lexeme.token = .ok (.openTag name))
    (htag : readTag (pos + byteLength lexeme.chars) lexeme.rest = .ok found) :
    OpensWith pos text ⟨name, found.attributes, found.selfClosing⟩ found.stop found.rest := by
  have hlexes := lexes_of_lexContent hlex htoken
  have happend := lexContent_append hlex
  have hreads := tagReads_of_readAttributes htag
  generalize lexeme.chars = chars, lexeme.rest = rest at *
  cases hlexes with
  | @openTag written _ hname hstop =>
    refine ⟨rest, ?_, ?_, hstop, ?_⟩ <;> simp only [String.toList_ofList]
    · exact hname
    · exact happend.symm
    · exact hreads

/-- A closing tag that is lexed and read to its end. -/
theorem closesWith_of_lexContent {pos stop : Nat} {text after : List Char}
    {lexeme : Lexeme ContentFault ContentPart} {name written : String}
    (hlex : lexContent text = some lexeme) (htoken : lexeme.token = .ok (.closeTag written))
    (hname : equalsIgnoringCase name.toList written.toList = true)
    (hend : readTagEnd (pos + byteLength lexeme.chars) lexeme.rest = .ok (stop, after)) :
    ClosesWith name.toList pos text stop after := by
  have hlexes := lexes_of_lexContent hlex htoken
  have happend := lexContent_append hlex
  generalize lexeme.chars = chars, lexeme.rest = rest at *
  cases hlexes with
  | @closeTag written _ htagName hstop =>
    obtain ⟨gap, hgap, rfl, hafter⟩ := blanks_of_readTagEnd hend
    rw [String.toList_ofList, equalsIgnoringCase_comm] at hname
    exact ⟨written, gap, htagName, hname, hgap, happend.symm, hafter⟩

/-- **What the machine reads the grammar reads**: a run that succeeds reads nodes up to the end of
the innermost open element, and then what is left. -/
theorem finishes_of_parseNodes {enclosing : Option Enclosing} {stack : List Frame}
    {nodes : List Node} {pos : Nat} {text : List Char} {found : ReadNodes}
    (h : parseNodes enclosing stack nodes pos text = .ok found) :
    Finishes enclosing stack nodes pos text found := by
  fun_induction parseNodes enclosing stack nodes pos text with
  | case1 | case2 | case4 | case6 | case8 | case11 | case13 | case14 | case16 | case17 =>
    contradiction
  | case3 nodes pos text hlex henclosing =>
    obtain rfl := Except.ok.inj h
    subst henclosing
    obtain rfl := eq_nil_of_lexContent hlex
    exact ⟨[], pos, [], .nil, rfl, rfl, rfl, rfl, rfl⟩
  | case5 stack nodes pos text lexeme hlex _ _ value htoken ih =>
    have hlexes := lexes_of_lexContent hlex htoken
    have happend := lexContent_append hlex
    refine (ih h).cons rfl fun hreads => ?_
    rw [← happend]
    obtain ⟨gap, chars, token, rest⟩ := lexeme
    cases hlexes with
    | comment hend => exact .comment hend hreads
  | case7 stack nodes pos text lexeme hlex _ _ name htoken tagRead htag _ tag hleaf ih =>
    have hopen := opensWith_of_lexContent hlex htoken htag
    exact (ih h).cons rfl fun hreads => .leaf hopen (by simpa using hleaf) hreads
  | case9 stack nodes pos text lexeme hlex _ _ name htoken tagRead htag _ tag htakes hraw raw hread
      _ _ ih =>
    have hopen := opensWith_of_lexContent hlex htoken htag
    obtain ⟨closing, hcontent, hnone, hstop, hclose⟩ :=
      closesWith_of_readRawText hopen.isTagName hread
    -- The tag is followed by the raw text and that by its closing tag.
    rw [hcontent] at hopen
    rw [hstop] at hclose
    refine (ih h).cons rfl fun hreads => ?_
    have hreads' := Reads.raw hopen (by simpa using htakes) hraw hnone hclose hreads
    rwa [← hstop] at hreads'
  | case10 stack nodes pos text lexeme hlex _ _ name htoken tagRead htag _ tag htakes hraw ih =>
    have hopen := opensWith_of_lexContent hlex htoken htag
    obtain ⟨children, inner, closing, hchildren, stop, after, more, mid, rest, hclose, hreads,
      hends⟩ := ih h
    -- The rest of the run first reads the children and then closes the element.
    have hnodes : joined [] children = children.reverse := by
      rw [joined_of_noTextFirst (by simp [NoTextFirst]), List.append_nil]
    rw [hnodes] at hends
    refine Finishes.cons rfl ⟨more, mid, rest, hreads, ?_⟩ fun hreads' =>
      .branch hopen (by simpa using htakes) (by simpa using hraw) hchildren hclose hreads'
    rw [joined_of_noTextFirst (by simp [NoTextFirst, Node.isText])]
    simpa [Frame.close] using hends
  | case12 nodes pos text lexeme hlex _ _ name htoken frame stack hname stop rest hend _ ih =>
    -- The closing tag ends the innermost element; what follows belongs to the one around it.
    have hclose := closesWith_of_lexContent hlex htoken hname hend
    obtain ⟨more, mid, rest', hreads, hends⟩ := ih h
    rw [joined_of_noTextFirst (by simp [NoTextFirst, Node.isText, Frame.close])] at hends
    exact ⟨[], pos, text, .nil, stop, rest, more, mid, rest', hclose, hreads, hends⟩
  | case15 nodes pos text lexeme hlex _ _ name htoken outer henclosing hname stop rest hend =>
    obtain rfl := Except.ok.inj h
    subst henclosing
    have hclose := closesWith_of_lexContent hlex htoken hname hend
    exact ⟨[], pos, text, .nil, rfl, rfl, hclose⟩
  | case18 stack nodes pos text lexeme hlex _ _ token hcomment hopenTag hcloseTag htoken ih =>
    have hlexes := lexes_of_lexContent hlex htoken
    have hplain : token.isPlain = true := by
      cases token with
      | comment value => exact absurd rfl (hcomment value)
      | openTag name => exact absurd rfl (hopenTag name)
      | closeTag name => exact absurd rfl (hcloseTag name)
      | text | lessThan | declaration => rfl
    -- A plain token goes in front of what the rest of the run reads.
    obtain ⟨more, stop, rest, hreads, hends⟩ := ih h
    obtain ⟨more', hreads', hjoined⟩ := hreads.prepend hlexes hplain hends.atEdge
    rw [lexContent_append hlex] at hreads'
    exact ⟨more', stop, rest, hreads', by rwa [hjoined]⟩

/-! ### Whole texts -/

/-- A run inside an enclosing tag reads nodes up to its closing tag. -/
theorem reads_of_parseNodes_enclosed {outer : Enclosing} {pos : Nat} {text : List Char}
    {found : ReadNodes} (h : parseNodes (some outer) [] [] pos text = .ok found) :
    ∃ closing, Reads pos text found.nodes found.contentStop closing ∧
      ClosesWith outer.name.toList found.contentStop closing found.stop found.rest := by
  obtain ⟨more, stop, closing, hreads, hnodes, hstop, hclose⟩ := finishes_of_parseNodes h
  rw [joined_of_noTextFirst (by simp [NoTextFirst]), List.append_nil,
    List.reverse_reverse] at hnodes
  rw [hnodes, hstop]
  exact ⟨closing, hreads, hclose⟩

/-- What the grammar reads to the end is what a run without an enclosing tag finds. -/
theorem parseNodes_eq_ok {pos stop : Nat} {text : List Char} {nodes : List Node}
    (h : Reads pos text nodes stop []) :
    parseNodes none [] [] pos text = .ok ⟨nodes, stop, stop, []⟩ := by
  rw [parseNodes_of_reads h none [] [] (.inr (by simp [NoTextFirst])), parseNodes_end rfl]
  simp

/-- **The parser is the grammar**: a text parses to the nodes as which the grammar reads all of
it. -/
theorem parse_eq_ok_iff {source : String} {nodes : List Node} :
    parse source = .ok nodes ↔ ∃ stop, Reads 0 source.toList nodes stop [] := by
  constructor
  · intro h
    obtain ⟨found, hrun, rfl⟩ := exists_run_of_parse h
    obtain ⟨more, stop, rest, hreads, hnodes, -, rfl, -⟩ := finishes_of_parseNodes hrun
    rw [joined_of_noTextFirst (by simp [NoTextFirst]), List.append_nil,
      List.reverse_reverse] at hnodes
    subst hnodes
    exact ⟨stop, hreads⟩
  · rintro ⟨stop, hreads⟩
    rw [parse, parseNodes_eq_ok hreads]
    rfl

/-! ### How far the rules read, and what follows -/

/-- How an opening tag is read does not depend on what follows it. -/
theorem OpensWith.cut {pos mid : Nat} {text after : List Char} {tag : Tag}
    (h : OpensWith pos text tag mid after) :
    ∃ read, text = read ++ after ∧ mid = pos + byteLength read ∧
      ∀ after', OpensWith pos (read ++ after') tag mid after' := by
  obtain ⟨body, hname, rfl, hstop, hreads⟩ := h
  obtain ⟨inside, hbody, hmid, hcut⟩ := hreads.exists_body
  dsimp only at hbody hmid
  subst hbody
  refine ⟨'<' :: tag.name.toList ++ inside ++ ['>'], by simp, ?_, fun after' => ?_⟩
  · rw [hmid]
    simp [Nat.add_assoc]
  · refine ⟨inside ++ '>' :: after', hname, by simp, ?_, hcut after'⟩
    cases inside with
    | nil => simp [Stops, isTagNameChar, isAsciiLetter, isAsciiDigit]
    | cons c cs => simpa [Stops] using hstop

/-- How a closing tag is read does not depend on what follows it. -/
theorem ClosesWith.cut {name text after : List Char} {pos stop : Nat}
    (h : ClosesWith name pos text stop after) :
    ∃ read, text = read ++ after ∧ stop = pos + byteLength read ∧
      ∀ after', ClosesWith name pos (read ++ after') stop after' := by
  obtain ⟨written, gap, hname, hwritten, hgap, rfl, rfl⟩ := h
  refine ⟨'<' :: '/' :: (written ++
    (gap ++ ['>'])), by simp, by simp [Nat.add_assoc], fun after' => ?_⟩
  exact ⟨written, gap, hname, hwritten, hgap, by simp, rfl⟩

theorem OpensWith.advances {pos mid : Nat} {text after : List Char} {tag : Tag}
    (h : OpensWith pos text tag mid after) : Advances pos text mid after := by
  obtain ⟨read, rfl, rfl, -⟩ := h.cut
  exact ⟨read, rfl, rfl⟩

theorem ClosesWith.advances {name text after : List Char} {pos stop : Nat}
    (h : ClosesWith name pos text stop after) : Advances pos text stop after := by
  obtain ⟨read, rfl, rfl, -⟩ := h.cut
  exact ⟨read, rfl, rfl⟩

/-- The grammar reads from one offset to the other. -/
theorem Reads.advances {pos stop : Nat} {text rest : List Char} {nodes : List Node}
    (h : Reads pos text nodes stop rest) : Advances pos text stop rest := by
  induction h with
  | nil => exact Advances.refl _ _
  | @text pos stop value after rest nodes hne hplain hedge _ ih =>
    exact Advances.trans ⟨value, rfl, rfl⟩ ih
  | comment hend _ ih => exact Advances.trans ⟨_, rfl, rfl⟩ ih
  | leaf hopen hleaf _ ih => exact hopen.advances.trans ih
  | @raw pos mid outer stop text content closing after rest tag nodes hopen htakes hraw hcontent
      hclose _ ih =>
    exact hopen.advances.trans (Advances.trans ⟨content, rfl, rfl⟩ (hclose.advances.trans ih))
  | branch hopen htakes hraw _ hclose _ ihchildren ih =>
    exact hopen.advances.trans (ihchildren.trans (hclose.advances.trans ih))

/-- **Nodes do not depend on what follows them**, as long as it is the end of the text, a tag or a
comment. -/
theorem Reads.cut {pos stop : Nat} {text rest tail : List Char} {nodes : List Node}
    (h : Reads pos text nodes stop rest) (hrest : AtEdge rest) (htail : AtEdge tail) :
    ∃ read, text = read ++ rest ∧ stop = pos + byteLength read ∧
      Reads pos (read ++ tail) nodes stop tail := by
  -- Each rule hands the new tail down to its last premise.
  induction h generalizing tail with
  | nil => exact ⟨[], rfl, rfl, .nil⟩
  | @text pos stop value after rest nodes hne hplain hedge _ ih =>
    obtain ⟨read, rfl, hstop, hreads⟩ := ih hrest htail
    have hedge' := hedge.cut hrest.clear htail
    refine ⟨value ++ read, by simp, by simp [hstop, Nat.add_assoc], ?_⟩
    rw [List.append_assoc]
    exact .text hne (hplain.cut hedge'.clear) hedge' hreads
  | @comment pos stop value after rest nodes hend _ ih =>
    obtain ⟨read, rfl, hstop, hreads⟩ := ih hrest htail
    refine ⟨commentStart ++ (value ++ commentStop) ++ read, by simp, ?_, ?_⟩
    · rw [hstop, byteLength_append (commentStart ++ _), Nat.add_assoc]
    · rw [List.append_assoc (commentStart ++ _)]
      exact .comment hend hreads
  | leaf hopen hleaf _ ih =>
    obtain ⟨read, rfl, hstop, hreads⟩ := ih hrest htail
    obtain ⟨opening, rfl, hmid, hopen'⟩ := hopen.cut
    refine ⟨opening ++ read, by simp, by simp [hstop, hmid, Nat.add_assoc], ?_⟩
    rw [List.append_assoc]
    exact .leaf (hopen' _) hleaf hreads
  | @raw pos mid outer stop text content closing after rest tag nodes hopen htakes hraw hcontent
      hclose _ ih =>
    obtain ⟨read, rfl, hstop, hreads⟩ := ih hrest htail
    obtain ⟨closed, rfl, houter, hclose'⟩ := hclose.cut
    obtain ⟨opening, rfl, hmid, hopen'⟩ := hopen.cut
    refine ⟨opening ++
      (content ++ (closed ++ read)), by simp, by simp [hstop, houter, hmid, Nat.add_assoc], ?_⟩
    rw [List.append_assoc, List.append_assoc, List.append_assoc]
    exact .raw (hopen' _) htakes hraw hcontent (hclose' _) hreads
  | branch hopen htakes hraw _ hclose _ ihchildren ih =>
    obtain ⟨read, rfl, hstop, hreads⟩ := ih hrest htail
    obtain ⟨closed, rfl, houter, hclose'⟩ := hclose.cut
    -- The children are followed by the closing tag, with either tail behind it.
    obtain ⟨inside, rfl, hinner, hchildren⟩ :=
      ihchildren hclose.atEdge (hclose' (read ++ tail)).atEdge
    obtain ⟨opening, rfl, hmid, hopen'⟩ := hopen.cut
    refine ⟨opening ++
      (inside ++ (closed ++ read)), by
        simp, by simp [hstop, houter, hinner, hmid, Nat.add_assoc], ?_⟩
    rw [List.append_assoc, List.append_assoc, List.append_assoc]
    exact .branch (hopen' _) htakes hraw hchildren (hclose' _) hreads

end Triptych.Markup
