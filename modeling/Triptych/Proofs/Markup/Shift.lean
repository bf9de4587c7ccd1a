import Triptych.Proofs.Markup.Grammar

/-!
# Reading further on

Offsets are counted by the readers and decide nothing: a reader that starts `base` bytes further on
reads the same, with every offset moved by `base`. That holds of what it finds and of its errors, so
each theorem here has one form. `moved base move` is a result whose error is shifted and whose value
is changed by `move`, and

* `readValue_shift`, `readAttributes_shift`, `readTagEnd_shift` and `readRawText_shift` are about
  the readers,
* `parseNodes_shift` is about the parser, with everything that it was given moved as well.
-/

namespace Triptych.Markup

open Text

/-! ### What a reader returns, moved -/

/-- A result `base` bytes further on, where `move` moves a value. -/
def moved {α : Type} (base : Nat) (move : α → α) : Except ParseError α → Except ParseError α
  | .error error => .error (error.shift base)
  | .ok found => .ok (move found)

@[simp] theorem moved_error {α : Type} (base : Nat) (move : α → α) (error : ParseError) :
    moved base move (.error error) = .error (error.shift base) := rfl

@[simp] theorem moved_ok {α : Type} (base : Nat) (move : α → α) (found : α) :
    moved base move (.ok found) = .ok (move found) := rfl

/-- The value `base` bytes further on. -/
def ReadValue.shift (base : Nat) (found : ReadValue) : ReadValue :=
  { found with stop := found.stop + base }

/-- The tag `base` bytes further on. -/
def ReadTag.shift (base : Nat) (found : ReadTag) : ReadTag :=
  { found with attributes := found.attributes.map (·.shift base), stop := found.stop + base }

/-- The raw text `base` bytes further on. -/
def ReadRawText.shift (base : Nat) (found : ReadRawText) : ReadRawText :=
  { found with contentStop := found.contentStop + base, stop := found.stop + base }

/-- The nodes `base` bytes further on. -/
def ReadNodes.shift (base : Nat) (found : ReadNodes) : ReadNodes :=
  { found with
    nodes := Node.shiftAll base found.nodes
    contentStop := found.contentStop + base
    stop := found.stop + base }

/-- The enclosing tag `base` bytes further on. -/
def Enclosing.shift (base : Nat) (outer : Enclosing) : Enclosing :=
  { outer with span := outer.span.shift base }

/-- The open element `base` bytes further on. -/
def Frame.shift (base : Nat) (frame : Frame) : Frame :=
  ⟨frame.tag.shift base, frame.span.shift base, Node.shiftAll base frame.before⟩

/-- Offsets that are counted from one further on are further on by as much. -/
theorem span_add (pos base skipped length : Nat) :
    (⟨pos + base + skipped, pos + base + skipped + length⟩ : Span) =
      Span.shift ⟨pos + skipped, pos + skipped + length⟩ base := by
  simp only [Span.shift, Span.mk.injEq]
  omega

theorem span_shift (pos base length : Nat) :
    (⟨pos + base, pos + base + length⟩ : Span) = Span.shift ⟨pos, pos + length⟩ base := by
  rw [Span.shift, Nat.add_right_comm]

/-- An error about a token moves with the token. -/
theorem unexpectedToken_shift (pos base skipped length : Nat) (expected : Expected)
    (part : TagPart) :
    ParseError.unexpectedToken ⟨pos + base + skipped, pos + base + skipped + length⟩ expected part =
      (ParseError.unexpectedToken ⟨pos + skipped, pos + skipped + length⟩ expected part).shift
        base := by
  rw [span_add]
  rfl

/-- What is wrong with a piece of a tag is told from its text, wherever it stands. -/
theorem refusedTag_shift (span : Span) (text : List Char) (base : Nat) :
    refusedTag (span.shift base) text = (refusedTag span text).shift base := by
  unfold refusedTag
  split <;> rfl

/-- What is wrong with a piece of content is told from its text, wherever it stands. -/
theorem refusedContent_shift (pos size : Nat) (text : List Char) (base : Nat) :
    refusedContent (pos + base) size text = (refusedContent pos size text).shift base := by
  unfold refusedContent
  rw [span_shift]
  split <;> rfl

/-! ### Inside a tag -/

/-- Reading a value further on. -/
theorem readValue_shift (base pos : Nat) (text : List Char) :
    readValue (pos + base) text = moved base (ReadValue.shift base) (readValue pos text) := by
  unfold readValue
  split
  next value _ => simp [ReadValue.shift, Nat.add_right_comm _ base]
  next =>
    split
    next => simp [ParseError.shift, Nat.add_right_comm _ base]
    next lexeme _ =>
      dsimp only
      split
      · rw [span_add, refusedTag_shift, moved_error]
      · simp [ReadValue.shift, Nat.add_right_comm _ base]
      · simp [ReadValue.shift, Nat.add_right_comm _ base]
      · rw [unexpectedToken_shift, moved_error]

/-- Reading the end of a closing tag further on. -/
theorem readTagEnd_shift (base pos : Nat) (text : List Char) :
    readTagEnd (pos + base) text =
      moved base (fun found => (found.1 + base, found.2)) (readTagEnd pos text) := by
  unfold readTagEnd
  split
  next => simp [ParseError.shift, Nat.add_right_comm _ base]
  next lexeme _ =>
    dsimp only
    split
    · rw [span_add, refusedTag_shift, moved_error]
    · simp [Nat.add_right_comm _ base]
    · rw [unexpectedToken_shift, moved_error]

/-- Reading raw text further on. -/
theorem readRawText_shift (base : Nat) (name : String) (opening : Span) (pos : Nat)
    (text : List Char) :
    readRawText name (opening.shift base) (pos + base) text =
      moved base (ReadRawText.shift base) (readRawText name opening pos text) := by
  unfold readRawText
  split
  · rfl
  next content found _ =>
    -- The closing tag is found by its place in the text, and only then counted from `pos`.
    have hpos : pos + base + byteLength content + byteLength (found.take (2 + name.toList.length)) =
        pos + byteLength content + byteLength (found.take (2 + name.toList.length)) + base := by
          omega
    simp only [hpos, readTagEnd_shift base]
    cases readTagEnd (pos + byteLength content + byteLength (found.take (2 + name.toList.length)))
        (found.drop (2 + name.toList.length)) with
    | error error => rfl
    | ok found => simp [ReadRawText.shift, Nat.add_right_comm _ base]

/-- **Reading further on in a source gives the same, further on**, one reader at a time. -/
theorem flush_shift (base : Nat) (pending : Option (String × Span)) (done : List Attribute) :
    flush (pending.map fun (name, span) => (name, span.shift base)) (done.map (·.shift base)) =
      (flush pending done).map (·.shift base) := by
  cases pending <;> rfl

/-- Reading a tag further on. -/
theorem readAttributes_shift (base : Nat) (pending : Option (String × Span)) (done : List Attribute)
    (pos : Nat) (text : List Char) :
    readAttributes (pending.map fun (name, span) => (name, span.shift base))
      (done.map (·.shift base)) (pos + base)
        text =
      moved base (ReadTag.shift base) (readAttributes pending done pos text) := by
  -- The tokens of a tag do not depend on offsets, so both runs take the same branch at every step.
  fun_induction readAttributes pending done pos text with
  | case1 pending done pos text hlex =>
    rw [readAttributes_end hlex]
    simp [ParseError.shift, Nat.add_right_comm _ base]
  | case2 pending done pos text lexeme hlex _ start stop fault htoken =>
    rw [readAttributes_step hlex]
    simp only [htoken, span_add]
    rw [refusedTag_shift, moved_error]
  | case3 pending done pos text lexeme hlex _ start stop htoken
  | case4 pending done pos text lexeme hlex _ start stop htoken =>
    rw [readAttributes_step hlex]
    simp [htoken, flush_shift, ReadTag.shift, start, stop, Nat.add_right_comm _ base]
  | case5 pending done pos text lexeme hlex _ start stop htoken ih =>
    rw [readAttributes_step hlex]
    simp only [htoken, Nat.add_right_comm _ base]
    exact ih
  | case6 pending done pos text lexeme hlex _ start stop name htoken ih =>
    rw [readAttributes_step hlex]
    simp only [htoken, span_add, flush_shift]
    simp only [Nat.add_right_comm _ base]
    exact ih
  | case7 done pos text lexeme hlex _ start stop htoken =>
    rw [readAttributes_step hlex]
    simp only [htoken]
    exact congrArg Except.error (unexpectedToken_shift ..)
  | case8 done pos text lexeme hlex _ start stop htoken name span error hvalue =>
    rw [readAttributes_step hlex]
    simp only [htoken, Option.map_some, Nat.add_right_comm _ base, readValue_shift base]
    rw [hvalue]
    rfl
  | case9 done pos text lexeme hlex _ start stop htoken name span value hvalue _ ih =>
    rw [readAttributes_step hlex]
    simp only [htoken, Option.map_some, Nat.add_right_comm _ base, readValue_shift base]
    rw [hvalue]
    exact ih
  | case10 pending done pos text lexeme hlex _ start stop token _ _ _ _ _ htoken =>
    rw [readAttributes_step hlex]
    simp only [htoken]
    exact congrArg Except.error (unexpectedToken_shift ..)

/-- Reading the rest of an opening tag further on. -/
theorem readTag_shift (base pos : Nat) (text : List Char) :
    readTag (pos + base) text = moved base (ReadTag.shift base) (readTag pos text) :=
  readAttributes_shift base none [] pos text

/-! ### Nodes -/

theorem shiftAll_eq_map (base : Nat) (nodes : List Node) :
    Node.shiftAll base nodes = nodes.map (Node.shift base) := by
  induction nodes with
  | nil => rfl
  | cons node nodes ih => rw [Node.shiftAll, ih, List.map_cons]

theorem shiftAll_reverse (base : Nat) (nodes : List Node) :
    (Node.shiftAll base nodes).reverse = Node.shiftAll base nodes.reverse := by
  rw [shiftAll_eq_map, shiftAll_eq_map, List.map_reverse]

/-- Nodes are put together as they were. -/
theorem appendText_shift (base : Nat) (value : List Char) (span : Span) (nodes : List Node) :
    appendText value (span.shift base) (Node.shiftAll base nodes) =
      Node.shiftAll base (appendText value span nodes) := by
  match nodes with
  | .text before beforeSpan :: nodes =>
    -- Texts are joined if one ends where the other starts, and moving both keeps that.
    by_cases h : beforeSpan.stop = span.start
    · simp [Node.shiftAll, Node.shift, appendText, Span.shift, h]
    · simp [Node.shiftAll, Node.shift, appendText, Span.shift, h]
  | [] | .element _ _ _ :: _ | .comment _ _ :: _ => rfl

theorem rawChildren_shift (base : Nat) (content : List Char) (span : Span) :
    rawChildren content (span.shift base) = Node.shiftAll base (rawChildren content span) := by
  unfold rawChildren
  split <;> rfl

/-- An element is closed as it was. -/
theorem Frame.close_shift (base : Nat) (frame : Frame) (nodes : List Node) (stop : Nat) :
    (frame.shift base).close (Node.shiftAll base nodes) (stop + base) =
      Node.shiftAll base (frame.close nodes stop) := by
  simp only [Frame.close, Frame.shift, Node.shiftAll, Node.shift, shiftAll_reverse]
  rfl

/-- **The parser further on**: it reads the same, and every offset is moved. -/
theorem parseNodes_shift (base : Nat) (enclosing : Option Enclosing) (stack : List Frame)
    (nodes : List Node) (pos : Nat) (text : List Char) :
    parseNodes (enclosing.map (·.shift base)) (stack.map (·.shift base)) (Node.shiftAll base nodes)
      (pos + base)
        text =
      moved base (ReadNodes.shift base) (parseNodes enclosing stack nodes pos text) := by
  -- Both runs see the same lexemes and take the same branches; what is open and what was read move
  -- along with `pos`.
  fun_induction parseNodes enclosing stack nodes pos text with
  | case1 nodes pos text hlex frame stack =>
    rw [parseNodes_end hlex]
    rfl
  | case2 nodes pos text hlex outer henclosing =>
    subst henclosing
    rw [parseNodes_end hlex]
    rfl
  | case3 nodes pos text hlex henclosing =>
    subst henclosing
    rw [parseNodes_end hlex]
    simp [ReadNodes.shift, shiftAll_reverse]
  -- The token is wrong, a comment, or an opening tag.
  | case4 stack nodes pos text lexeme hlex _ fault htoken =>
    rw [parseNodes_step hlex]
    simp only [htoken]
    rw [refusedContent_shift, moved_error]
  | case5 stack nodes pos text lexeme hlex _ stop value htoken ih =>
    rw [parseNodes_step hlex]
    simp only [htoken, span_shift]
    simp only [Nat.add_right_comm _ base]
    exact ih
  | case6 stack nodes pos text lexeme hlex _ stop name htoken error htag =>
    rw [parseNodes_step hlex]
    simp only [htoken, Nat.add_right_comm _ base, readTag_shift base]
    rw [htag]
    rfl
  | case7 stack nodes pos text lexeme hlex _ stop name htoken found htag _ tag hleaf ih =>
    rw [parseNodes_step hlex]
    simp only [htoken, Nat.add_right_comm _ base, readTag_shift base]
    rw [htag]
    exact (if_pos hleaf).trans ih
  | case8 stack nodes pos text lexeme hlex _ stop name htoken found htag _ tag htakes hraw error
      hread =>
    rw [parseNodes_step hlex]
    simp only [htoken, Nat.add_right_comm _ base, readTag_shift base]
    rw [htag]
    refine (if_neg htakes).trans ((if_pos hraw).trans ?_)
    have hmoved : readRawText name ⟨pos + base, (found.shift base).stop⟩ (found.shift base).stop
        (found.shift base).rest = moved base (ReadRawText.shift base) _ :=
      readRawText_shift base name ⟨pos, found.stop⟩ found.stop found.rest
    rw [hmoved, hread]
    rfl
  | case9 stack nodes pos text lexeme hlex _ stop name htoken found htag _ tag htakes hraw raw hread
      _ children ih =>
    rw [parseNodes_step hlex]
    simp only [htoken, Nat.add_right_comm _ base, readTag_shift base]
    rw [htag]
    refine (if_neg htakes).trans ((if_pos hraw).trans ?_)
    have hmoved : readRawText name ⟨pos + base, (found.shift base).stop⟩ (found.shift base).stop
        (found.shift base).rest = moved base (ReadRawText.shift base) _ :=
      readRawText_shift base name ⟨pos, found.stop⟩ found.stop found.rest
    rw [hmoved, hread]
    refine Eq.trans ?_ ih
    simp only [children, Node.shiftAll, Node.shift, ← rawChildren_shift]
    rfl
  | case10 stack nodes pos text lexeme hlex _ stop name htoken found htag _ tag htakes hraw ih =>
    rw [parseNodes_step hlex]
    simp only [htoken, Nat.add_right_comm _ base, readTag_shift base]
    rw [htag]
    exact (if_neg htakes).trans ((if_neg hraw).trans ih)
  -- A closing tag inside an element.
  | case11 nodes pos text lexeme hlex _ stop name htoken frame stack hname error hend =>
    rw [parseNodes_step hlex]
    simp only [htoken, List.map_cons, Nat.add_right_comm _ base, readTagEnd_shift base]
    rw [hend]
    exact if_pos hname
  | case12 nodes pos text lexeme hlex _ stop name htoken frame stack hname stop' rest hend _ ih =>
    rw [parseNodes_step hlex]
    simp only [htoken, List.map_cons, Nat.add_right_comm _ base, readTagEnd_shift base]
    rw [hend]
    refine (if_pos hname).trans ?_
    rw [← ih, ← Frame.close_shift]
    rfl
  | case13 nodes pos text lexeme hlex _ stop name htoken frame stack hname =>
    rw [parseNodes_step hlex]
    simp only [htoken, List.map_cons]
    rw [span_shift]
    exact if_neg hname
  -- A closing tag outside all elements: it belongs to the enclosing tag, if there is one.
  | case14 nodes pos text lexeme hlex _ stop name htoken outer henclosing hname error hend =>
    subst henclosing
    rw [parseNodes_step hlex]
    simp only [htoken, List.map_nil, Option.map_some, Nat.add_right_comm _ base,
      readTagEnd_shift base]
    rw [hend]
    exact if_pos hname
  | case15 nodes pos text lexeme hlex _ stop name htoken outer henclosing hname stop' rest hend =>
    subst henclosing
    rw [parseNodes_step hlex]
    simp only [htoken, List.map_nil, Option.map_some, Nat.add_right_comm _ base,
      readTagEnd_shift base]
    rw [hend]
    refine (if_pos hname).trans ?_
    rw [shiftAll_reverse]
    rfl
  | case16 nodes pos text lexeme hlex _ stop name htoken outer henclosing hname =>
    subst henclosing
    rw [parseNodes_step hlex]
    simp only [htoken, List.map_nil, Option.map_some]
    rw [span_shift]
    exact if_neg hname
  | case17 nodes pos text lexeme hlex _ stop name htoken henclosing =>
    subst henclosing
    rw [parseNodes_step hlex]
    simp only [htoken, List.map_nil, Option.map_none]
    rw [span_shift]
    rfl
  -- Everything else is text.
  | case18 stack nodes pos text lexeme hlex _ stop token hcomment hopen hclose htoken ih =>
    rw [parseNodes_step hlex]
    simp only [htoken, span_shift, appendText_shift]
    simp only [Nat.add_right_comm _ base]
    exact ih

end Triptych.Markup
