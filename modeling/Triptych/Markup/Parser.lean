import Triptych.Markup.Attributes

/-!
# Reading markup

The parser is one machine. It reads content token by token and keeps the elements that are open,
innermost first, each with the nodes that stand before it; a closing tag ends the innermost one.
Below the open elements there may be an *enclosing* tag, whose closing tag ends the run: that is how
the markup inside a section of a document is read. Without one the run ends with the text.

`parseNodes` is the machine, `parse` reads a whole text. Every step makes the rest of the text
shorter, which is why the machine stops, and `parseNodes_advances` says that the offsets it returns
are those of the text.
-/

namespace Triptych.Markup

open Text

/-! ### Raw text -/

/-- True when the text starts with a closing tag for `name`, up to the case of ASCII letters: the
tag name must be followed by a blank or `>`. -/
def startsClosingTag (name : List Char) : List Char → Bool
  | '<' :: '/' :: text =>
    equalsIgnoringCase (text.take name.length) name &&
      match text.drop name.length with
      | c :: _ => c == '>' || isAsciiBlank c
      | [] => false
  | _ => false

/-- Splits a text before the first closing tag for `name`. -/
def breakAtClosingTag (name : List Char) : List Char → Option (List Char × List Char)
  | [] => none
  | c :: cs =>
    if startsClosingTag name (c :: cs) then some ([], c :: cs)
    else (breakAtClosingTag name cs).map fun (content, found) => (c :: content, found)

/-- The two parts that `breakAtClosingTag` returns make up the text, and the second starts with a
closing tag. -/
theorem breakAtClosingTag_spec {name text content found : List Char}
    (h : breakAtClosingTag name text = some (content, found)) :
    content ++ found = text ∧ startsClosingTag name found = true := by
  induction text generalizing content with
  | nil => simp [breakAtClosingTag] at h
  | cons c cs ih =>
    simp only [breakAtClosingTag] at h
    split at h
    next hstarts =>
      obtain ⟨rfl, rfl⟩ : [] = content ∧ c :: cs = found := by simpa using h
      exact ⟨rfl, hstarts⟩
    next =>
      simp only [Option.map_eq_some_iff, Prod.mk.injEq, Prod.exists] at h
      obtain ⟨content', found', hrec, rfl, rfl⟩ := h
      obtain ⟨happend, hstarts⟩ := ih hrec
      exact ⟨congrArg (c :: ·) happend, hstarts⟩

/-- Raw text, where it ends, where its closing tag ends, and the text after that. -/
structure ReadRawText where
  content : List Char
  contentStop : Nat
  stop : Nat
  rest : List Char

/-- Reads raw text from offset `pos` up to the closing tag for `name`, and that tag. The span is the
opening tag, which is at fault when there is no closing one. -/
def readRawText (name : String) (opening : Span) (pos : Nat) (text : List Char) :
    Except ParseError ReadRawText :=
  match breakAtClosingTag name.toList text with
  | none => .error (.unclosedElement opening name)
  | some (content, found) =>
    let contentStop := pos + byteLength content
    let closing := found.take (2 + name.toList.length)
    match readTagEnd (contentStop + byteLength closing) (found.drop (2 + name.toList.length)) with
    | .error error => .error error
    | .ok (stop, rest) => .ok ⟨content, contentStop, stop, rest⟩

/-- Reading raw text brings the reader past the closing tag. -/
theorem readRawText_advances {name : String} {opening : Span} {pos : Nat} {text : List Char}
    {found : ReadRawText} (h : readRawText name opening pos text = .ok found) :
    Advances pos text found.stop found.rest := by
  unfold readRawText at h
  split at h
  · contradiction
  next content tail hbreak =>
    simp only at h
    split at h
    · contradiction
    next stop rest hend =>
      obtain rfl := Except.ok.inj h
      refine Advances.trans ⟨content, (breakAtClosingTag_spec hbreak).1.symm, rfl⟩ ?_
      refine Advances.trans ⟨tail.take (2 + name.toList.length), ?_, rfl⟩ (readTagEnd_advances hend)
      rw [List.take_append_drop]

/-! ### The machine -/

/-- A tag whose closing tag ends a run of the parser. -/
structure Enclosing where
  name : String
  /-- The opening tag. -/
  span : Span

/-- An element whose closing tag has not been read. -/
structure Frame where
  tag : Tag
  /-- The opening tag. -/
  span : Span
  /-- The nodes before the element in its parent, newest first. -/
  before : List Node

/-- The nodes of the parent, newest first, once the element ends at `stop`; its own nodes are given
newest first too. -/
def Frame.close (frame : Frame) (nodes : List Node) (stop : Nat) : List Node :=
  .element frame.tag nodes.reverse ⟨frame.span.start, stop⟩ :: frame.before

/-- The nodes of a run, where they end, where the closing tag of the enclosing tag ends if there is
one, and the text after that. -/
structure ReadNodes where
  nodes : List Node
  contentStop : Nat
  stop : Nat
  rest : List Char

/-- Adds a text to a list of nodes, newest first. It continues a text that stands right before
it. -/
def appendText (value : List Char) (span : Span) : List Node → List Node
  | .text before beforeSpan :: nodes =>
    if beforeSpan.stop = span.start then
      .text (before ++ String.ofList value) ⟨beforeSpan.start, span.stop⟩ :: nodes
    else .text (String.ofList value) span :: .text before beforeSpan :: nodes
  | nodes => .text (String.ofList value) span :: nodes

/-- The children of an element that holds raw text: one text, or nothing when it is empty. -/
def rawChildren (content : List Char) (span : Span) : List Node :=
  if content.isEmpty then [] else [.text (String.ofList content) span]

/-- Reads nodes from offset `pos` on. The open elements are in `stack`, innermost first, and `nodes`
are those read before in the innermost one, newest first. -/
def parseNodes (enclosing : Option Enclosing) (stack : List Frame) (nodes : List Node) (pos : Nat)
    (text : List Char) : Except ParseError ReadNodes :=
  match hlex : lexContent text with
  | none =>
    match stack, enclosing with
    | frame :: _, _ => .error (.unclosedElement frame.span frame.tag.name)
    | [], some outer => .error (.unclosedElement outer.span outer.name)
    | [], none => .ok ⟨nodes.reverse, pos, pos, text⟩
  | some lexeme =>
    have := lexContent_rest_lt hlex
    let stop := pos + byteLength lexeme.chars
    match lexeme.token with
    | .error _ => .error (refusedContent pos (byteLength lexeme.chars) text)
    | .ok (.comment value) =>
      parseNodes enclosing stack (.comment value ⟨pos, stop⟩ :: nodes) stop lexeme.rest
    | .ok (.openTag name) =>
      match htag : readTag stop lexeme.rest with
      | .error error => .error error
      | .ok found =>
        have := (readAttributes_advances htag).length_le
        let tag : Tag := ⟨name, found.attributes, found.selfClosing⟩
        if !tag.takesClosingTag then
          parseNodes enclosing stack (.element tag [] ⟨pos, found.stop⟩ :: nodes) found.stop
            found.rest
        else if holdsRawText name then
          match hraw : readRawText name ⟨pos, found.stop⟩ found.stop found.rest with
          | .error error => .error error
          | .ok raw =>
            have := (readRawText_advances hraw).length_le
            let children := rawChildren raw.content ⟨found.stop, raw.contentStop⟩
            parseNodes enclosing stack (.element tag children ⟨pos, raw.stop⟩ :: nodes) raw.stop
              raw.rest
        else parseNodes enclosing (⟨tag, ⟨pos, found.stop⟩, nodes⟩ :: stack)
          [] found.stop found.rest
    | .ok (.closeTag name) =>
      match stack, enclosing with
      | frame :: stack, _ =>
        if equalsIgnoringCase frame.tag.name.toList name.toList then
          match hend : readTagEnd stop lexeme.rest with
          | .error error => .error error
          | .ok (stop, rest) =>
            have := (readTagEnd_advances hend).length_le
            parseNodes enclosing stack (frame.close nodes stop) stop rest
        else .error (.mismatchedClosingTag ⟨pos, stop⟩ frame.tag.name name)
      | [], some outer =>
        if equalsIgnoringCase outer.name.toList name.toList then
          match readTagEnd stop lexeme.rest with
          | .error error => .error error
          | .ok (stop, rest) => .ok ⟨nodes.reverse, pos, stop, rest⟩
        else .error (.mismatchedClosingTag ⟨pos, stop⟩ outer.name name)
      | [], none => .error (.invalidSyntax ⟨pos, stop⟩ (.strayClosingTag name))
    | .ok _ =>
      parseNodes enclosing stack (appendText lexeme.chars ⟨pos, stop⟩ nodes) stop lexeme.rest
termination_by text.length

/-- A run of the parser brings the reader to where it says. -/
theorem parseNodes_advances {enclosing : Option Enclosing} {stack : List Frame} {nodes : List Node}
    {pos : Nat} {text : List Char} {found : ReadNodes}
    (h : parseNodes enclosing stack nodes pos text = .ok found) :
    Advances pos text found.stop found.rest := by
  -- In the cases of errors there is nothing to show. In all others the run takes a token, what that
  -- token makes the parser read, and goes on behind it.
  fun_induction parseNodes enclosing stack nodes pos text with
  | case1 | case2 | case4 | case6 | case8 | case11 | case13 | case14 | case16 | case17 =>
    contradiction
  | case3 =>
    obtain rfl := Except.ok.inj h
    exact Advances.refl _ _
  | case5 stack nodes pos text lexeme hlex _ _ value _ ih =>
    exact (lexContent_advances pos hlex).trans (ih h)
  | case7 stack nodes pos text lexeme hlex _ _ name _ tagRead htag _ _ _ ih =>
    exact (lexContent_advances pos hlex).trans ((readAttributes_advances htag).trans (ih h))
  | case9 stack nodes pos text lexeme hlex _ _ name _ tagRead htag _ _ _ _ raw hraw _ _ ih =>
    exact (lexContent_advances pos hlex).trans
      ((readAttributes_advances htag).trans ((readRawText_advances hraw).trans (ih h)))
  -- A tag that opens an element, so that its children are read.
  | case10 stack nodes pos text lexeme hlex _ _ name _ tagRead htag _ _ _ _ ih =>
    exact (lexContent_advances pos hlex).trans ((readAttributes_advances htag).trans (ih h))
  | case12 nodes pos text lexeme hlex _ _ name _ frame stack _ stop rest hend _ ih =>
    exact (lexContent_advances pos hlex).trans ((readTagEnd_advances hend).trans (ih h))
  -- The closing tag of the enclosing section ends the run.
  | case15 nodes pos text lexeme hlex _ _ name _ outer _ _ stop rest hend =>
    obtain rfl := Except.ok.inj h
    exact (lexContent_advances pos hlex).trans (readTagEnd_advances hend)
  | case18 stack nodes pos text lexeme hlex _ _ token _ _ _ _ ih =>
    exact (lexContent_advances pos hlex).trans (ih h)

/-- Reads a text as markup. -/
def parse (source : String) : Except ParseError (List Node) :=
  (parseNodes none [] [] 0 source.toList).map (·.nodes)

/-- The nodes of a text are those that a run over it finds. -/
theorem exists_run_of_parse {source : String} {nodes : List Node} (h : parse source = .ok nodes) :
    ∃ found, parseNodes none [] [] 0 source.toList = .ok found ∧ found.nodes = nodes := by
  unfold parse at h
  cases hrun : parseNodes none [] [] 0 source.toList with
  | error error =>
    rw [hrun] at h
    contradiction
  | ok found =>
    rw [hrun] at h
    exact ⟨found, rfl, Except.ok.inj h⟩

/-- The error of a text is that of a run over it. -/
theorem run_of_parse_error {source : String} {error : ParseError}
    (h : parse source = .error error) :
    parseNodes none [] [] 0 source.toList = .error error := by
  unfold parse at h
  cases hrun : parseNodes none [] [] 0 source.toList with
  | error runError =>
    rw [hrun] at h
    exact congrArg _ (Except.error.inj h)
  | ok found =>
    rw [hrun] at h
    contradiction

end Triptych.Markup
