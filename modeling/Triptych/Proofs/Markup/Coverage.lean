import Triptych.Proofs.Markup.Faults

/-!
# Lexers cover every text

Each of the two lexers makes something of every text, however broken it is. What the content lexer
returns tiles the text: each piece starts where the one before it ends (`ContentItems`). What the
tag lexer returns are pieces with blanks between them (`TagItems`). So a reader that follows a lexer
makes progress, ends, and points at what is there.

Both are a matter of one step and of a run. `Strewn` is the picture that the two runs share:
characters that are skipped and the characters of an item take turns, up to the end of the text. It
speaks of texts and knows no lexer; the offsets of the items, and that the rest of the text was
skipped, follow from it. For each lexer it is enough to look at one step (`stands_of_lexContent`,
`stands_of_lexTag`), of which the rest of the development knows most already: `Lexes` and `LexesTag`
say what tokens are, `FailsToLex` and `FailsToLexTag` what the rest is.

One thing cannot be seen in a step. That a name is not the end of a longer name depends on the
character before it, that is, on how the piece before it ended. `BetweenNames` is what the steps
pass on.
-/

namespace Triptych.Markup

open Text

/-! ### Items in a text -/

section Strewn

variable {α : Type}

/-- **Items stand in a text**, behind the text `before`: skipped characters and the characters of an
item in turn, and skipped characters at the end. `skipped` is what may be skipped, and `stands` what
is known of an item between the text before it and the text behind it. Spans count from the start of
`before`. -/
inductive Strewn (skipped : List Char → Prop)
    (stands : List Char → List Char → α → List Char → Prop) :
    List Char → List Char → List (α × Span) → Prop
  | nil {before gap : List Char} (hgap : skipped gap) : Strewn skipped stands before gap []
  | cons {before gap chars rest : List Char} {item : α} {items : List (α × Span)}
      (hgap : skipped gap) (hne : chars ≠ [])
    (hitem : stands (before ++ gap) chars item rest)
    (hitems : Strewn skipped stands (before ++ gap ++ chars) rest items) :
    Strewn skipped stands before (gap ++ (chars ++ rest))
      ((item, ⟨byteLength (before ++ gap), byteLength (before ++ gap ++ chars)⟩) :: items)

/-- **The spans pave the whole**: none is empty, the first starts where the whole does, each next
one where the one before it ends, and the last one ends where the whole does. -/
def Paves : Span → List Span → Prop
  | whole, [] => whole.start = whole.stop
  | whole, span :: spans => span.start = whole.start ∧ span.start < span.stop ∧
      Paves ⟨span.stop, whole.stop⟩ spans

/-- A character that starts between the two ends of a piece belongs to the piece. -/
theorem mem_of_between {before piece after left right : List Char} {c : Char}
    (h : before ++ (piece ++ after) = left ++ c :: right)
    (hstart : byteLength before ≤ byteLength left)
    (hstop : byteLength left < byteLength (before ++ piece)) : c ∈ piece := by
  rw [← List.append_assoc] at h
  -- The character stands behind the piece, or it is one of those up to the end of the piece.
  rcases List.append_eq_append_iff.1 h with ⟨more, rfl, -⟩ | ⟨more, hcut, hmore⟩
  · rw [byteLength_append] at hstop
    omega
  · cases more with
    | nil =>
      rw [List.append_nil] at hcut
      rw [hcut] at hstop
      omega
    | cons d more =>
      obtain rfl := (List.cons.inj hmore).1
      -- The character cannot stand before the piece.
      rcases List.append_eq_append_iff.1 hcut with ⟨first, -, hpiece⟩ | ⟨first, hbefore, hpiece⟩
      · exact hpiece ▸ List.mem_append_right _ List.mem_cons_self
      · cases first with
        | nil =>
          obtain rfl : c :: more = piece := hpiece
          exact List.mem_cons_self
        | cons e first =>
          have hpos := e.utf8Size_pos
          rw [hbefore, byteLength_append, byteLength_cons] at hstart
          omega

namespace Strewn

variable {skipped : List Char → Prop} {stands : List Char → List Char → α → List Char → Prop}
  {before text : List Char} {items : List (α × Span)}

/-- One item more, where a reader stands at the offset of its text. -/
theorem step {gap chars rest : List Char} {item : α} {start stop : Nat}
    (htext : gap ++ (chars ++ rest) = text) (hstart : start = byteLength before + byteLength gap)
    (hstop : stop = start + byteLength chars) (hgap : skipped gap) (hne : chars ≠ [])
    (hitem : stands (before ++ gap) chars item rest)
    (hitems : Strewn skipped stands (before ++ gap ++ chars) rest items) :
    Strewn skipped stands before text ((item, ⟨start, stop⟩) :: items) := by
  subst htext hstart hstop
  have hspan := Strewn.cons hgap hne hitem hitems
  rwa [byteLength_append (before ++ gap), byteLength_append before] at hspan

/-- Every item stands where its span says. -/
theorem stands_of_mem (h : Strewn skipped stands before text items) {item : α × Span}
    (hitem : item ∈ items) :
    ∃ left chars rest, before ++ text = left ++ (chars ++ rest) ∧
      item.2 = ⟨byteLength left, byteLength left + byteLength chars⟩ ∧ chars ≠ [] ∧
      stands left chars item.1 rest := by
  induction h with
  | nil => contradiction
  | @cons before gap chars rest token items hgap hne htoken _ ih =>
    rcases List.mem_cons.1 hitem with rfl | hitem
    · exact ⟨before ++ gap, chars, rest, by simp, by simp [Nat.add_assoc], hne, htoken⟩
    · obtain ⟨left, chars', rest', hcut, hspan⟩ := ih hitem
      exact ⟨left, chars', rest', by rw [← hcut]; simp, hspan⟩

theorem start_lt_stop (h : Strewn skipped stands before text items) {item : α × Span}
    (hitem : item ∈ items) :
    item.2.start < item.2.stop := by
  obtain ⟨left, chars, rest, -, hspan, hne, -⟩ := h.stands_of_mem hitem
  have hpos := byteLength_pos hne
  rw [hspan]
  exact Nat.lt_add_of_pos_right hpos

/-- No item starts before the text does. -/
theorem le_start (h : Strewn skipped stands before text items) {item : α × Span}
    (hitem : item ∈ items) :
    byteLength before ≤ item.2.start := by
  induction h with
  | nil => contradiction
  | @cons before gap chars _ _ _ _ _ _ _ ih =>
    rcases List.mem_cons.1 hitem with rfl | hitem
    · show byteLength before ≤ byteLength (before ++ gap)
      rw [byteLength_append]
      exact Nat.le_add_right _ _
    · have hle := ih hitem
      rw [byteLength_append, byteLength_append] at hle
      omega

/-- Items come in order and do not overlap. -/
theorem pairwise (h : Strewn skipped stands before text items) :
    items.Pairwise fun item later => item.2.stop ≤ later.2.start := by
  induction h with
  | nil => exact .nil
  | cons _ _ _ hitems ih => exact List.Pairwise.cons (fun later hlater => hitems.le_start hlater) ih

/-- **What is outside of the items was skipped.** -/
theorem skipped_of_outside (h : Strewn skipped stands before text items) {left right : List Char}
    {c : Char} (hcut : before ++ text = left ++ c :: right)
    (hbehind : byteLength before ≤ byteLength left) :
    (∃ item ∈ items, item.2.start ≤ byteLength left ∧ byteLength left < item.2.stop) ∨
      ∃ gap, skipped gap ∧ c ∈ gap := by
  induction h with
  | @nil before gap hgap =>
    have hlength := congrArg byteLength hcut
    have hpos := c.utf8Size_pos
    rw [byteLength_append left, byteLength_cons] at hlength
    have hcut : before ++ (gap ++ []) = left ++ c :: right := by rw [List.append_nil, hcut]
    exact .inr ⟨gap, hgap, mem_of_between hcut hbehind (by omega)⟩
  | @cons before gap chars rest item items hgap hne _ hitems ih =>
    -- The character stands before the item, in it, or behind it.
    by_cases hskipped : byteLength left < byteLength (before ++ gap)
    · exact .inr ⟨gap, hgap, mem_of_between hcut hbehind hskipped⟩
    by_cases hread : byteLength left < byteLength (before ++ gap ++ chars)
    · exact .inl ⟨_, List.mem_cons_self, Nat.le_of_not_lt hskipped, hread⟩
    have hcut : before ++ gap ++ chars ++ rest = left ++ c :: right := by simpa using hcut
    rcases ih hcut (Nat.le_of_not_lt hread) with ⟨later, hlater, hinside⟩ | hgap
    · exact .inl ⟨later, List.mem_cons_of_mem _ hlater, hinside⟩
    · exact .inr hgap

/-- **Where nothing is skipped, the items pave the text.** -/
theorem paves (h : Strewn skipped stands before text items)
    (hskipped : ∀ gap, skipped gap → gap = []) :
    Paves ⟨byteLength before, byteLength (before ++ text)⟩ (items.map Prod.snd) := by
  induction h with
  | nil hgap =>
    rw [hskipped _ hgap, List.append_nil]
    rfl
  | @cons before gap chars rest _ _ hgap hne _ _ ih =>
    obtain rfl := hskipped gap hgap
    have hpos := byteLength_pos hne
    rw [List.append_nil] at ih ⊢
    rw [List.nil_append, ← List.append_assoc]
    refine ⟨rfl, ?_, ih⟩
    rw [byteLength_append]
    exact Nat.lt_add_of_pos_right hpos

end Strewn

end Strewn

/-! ### Content -/

/-- The token as it is written. -/
def ContentPart.written : ContentPart → List Char
  | .comment value => commentStart ++ (value.toList ++ commentStop)
  | .declaration body => body.toList
  | .openTag name => '<' :: name.toList
  | .closeTag name => '<' :: '/' :: name.toList
  | .text value => value.toList
  | .lessThan => ['<']

theorem Lexes.written_eq {chars rest : List Char} {part : ContentPart} (h : Lexes chars part rest) :
    part.written = chars := by
  cases h <;> simp [ContentPart.written]

/-- What the content lexer finds: a token or a piece that is none. -/
def ContentStands (chars : List Char) (item : Except ContentFault ContentPart) (rest : List Char) :
    Prop :=
  (∀ part, item = .ok part → Lexes chars part rest) ∧ ∀ fault, item = .error fault →
    FailsToLex chars fault rest

theorem stands_of_lexContent {text : List Char} {lexeme : Lexeme ContentFault ContentPart}
    (h : lexContent text = some lexeme) : ContentStands lexeme.chars lexeme.token lexeme.rest :=
  ⟨fun _ => lexes_of_lexContent h, fun _ => failsToLex_of_lexContent h⟩

/-- A piece that is no token is what the lexer takes. -/
theorem lexContent_of_failsToLex {chars rest : List Char} {fault : ContentFault}
    (h : FailsToLex chars fault rest) :
    lexContent (chars ++ rest) = some { chars, token := .error fault, rest } := by
  cases h with
  | comment hend =>
    -- Nothing ends the comment, so its start is all that is taken.
    have hlex : lexContent (commentStart ++ rest) = some (lexMarkupComment rest) := by
      simp [commentStart, lexContent, lexAngle]
    rw [hlex, lexMarkupComment, (breakOn_eq_none_iff (by simp [commentStop])).2 hend]
  | @declaration c body hletter hbody =>
    -- A letter is no dash, so this is not a comment, and no `>`, so the run to the next `>` is all
    -- of the text.
    have hdash : c ≠ '-' := by
      rintro rfl
      contradiction
    have hc : '>' ∉ c :: body := by
      rw [List.mem_cons, not_or]
      refine ⟨?_, hbody⟩
      rintro rfl
      contradiction
    have hall : ∀ d ∈ c :: body, (d != '>') = true :=
      fun d hd => bne_iff_ne.2 (ne_of_mem_of_not_mem hd hc)
    have hlex : lexContent ('<' :: '!' :: c :: body ++ []) = some (lexDeclaration (c :: body)) := by
      simp [lexContent, lexAngle, hletter, hdash]
    rw [hlex, lexDeclaration, List.dropWhile_eq_nil_iff.2 hall, List.takeWhile_eq_self_iff.2 hall]

/-- **A piece of content is read from its characters alone.** -/
theorem ContentStands.lexContent_eq {chars rest : List Char}
    {item : Except ContentFault ContentPart} (h : ContentStands chars item rest) :
    lexContent chars = some { chars, token := item, rest := [] } := by
  cases item with
  | ok part =>
    -- A token at the end of a text is still the token: nothing follows that it would go on into.
    have halone : Lexes chars part [] := by
      have hlexes : Lexes chars part ([] ++ rest) := h.1 part rfl
      exact hlexes.cut clear_nil
    have hread := lexContent_of_lexes halone
    rwa [List.append_nil] at hread
  | error fault =>
    have halone : FailsToLex chars fault [] := by
      cases h.2 fault rfl with
      | comment => exact .comment (by simp [commentStop])
      | declaration hletter hbody => exact .declaration hletter hbody
    have hread := lexContent_of_failsToLex halone
    rwa [List.append_nil] at hread

/-- **A run of the content lexer** skips nothing. -/
theorem strewn_contentTokens {before text : List Char} {pos : Nat}
    (hpos : pos = byteLength before) :
    Strewn (· = []) (fun _ => ContentStands) before text (contentTokens pos text) := by
  fun_induction contentTokens pos text generalizing before with
  | case1 pos text hlex =>
    rw [eq_nil_of_lexContent hlex]
    exact .nil rfl
  | case2 pos text lexeme hlex stop =>
    rename_i ih
    -- The reader stands right behind `before`, and an item takes it to the end of the item.
    have htext : [] ++ (lexeme.chars ++ lexeme.rest) = text := lexContent_append hlex
    refine .step htext hpos rfl rfl (lexContent_chars_ne_nil hlex) (stands_of_lexContent hlex)
      (ih ?_)
    rw [List.append_nil, byteLength_append, ← hpos]

/-! ### Inside a tag -/

/-- No name goes on from the text `before` into the text behind it. -/
def BetweenNames (before text : List Char) : Prop :=
  Stops isAttributeNameChar before.reverse ∨ Stops isAttributeNameChar text

/-- What the tag lexer finds: a token or a piece that is none. A name does not start within a longer
name. -/
def TagStands (before chars : List Char) (item : Except TagFault TagPart) (rest : List Char) :
    Prop :=
  (∀ part, item = .ok part → LexesTag chars part rest) ∧
  (∀ value, item = .ok (.name value) → Stops isAttributeNameChar before.reverse) ∧
  ∀ fault, item = .error fault → FailsToLexTag chars fault rest

theorem blanks_of_lexTag_eq_none {text : List Char} (h : lexTag text = none) : Blanks text := by
  unfold lexTag at h
  split at h
  next hdrop => exact List.dropWhile_eq_nil_iff.1 hdrop
  next => contradiction

theorem chars_ne_nil_of_lexTag {text : List Char} {lexeme : Lexeme TagFault TagPart}
    (h : lexTag text = some lexeme) :
    lexeme.chars ≠ [] := by
  unfold lexTag at h
  split at h
  next => contradiction
  next =>
    obtain rfl := Option.some.inj h
    exact lexTagAt_chars_ne_nil _ _ _

/-- What ends in a character of another class leaves no name open. -/
theorem betweenNames_of_getLast? {chars : List Char} {c : Char} (hlast : chars.getLast? = some c)
    (hc : isAttributeNameChar c = false) (before text : List Char) :
    BetweenNames (before ++ chars) text := by
  refine .inl fun d hd => ?_
  rw [List.head?_reverse, List.getLast?_append, hlast, Option.some_or] at hd
  exact Option.some.inj hd ▸ hc

/-- Blanks end a name. -/
theorem BetweenNames.blanks {before gap text : List Char} (h : BetweenNames before (gap ++ text))
    (hgap : Blanks gap) :
    BetweenNames (before ++ gap) text := by
  -- Without blanks nothing changes, and else the last of them ends the name.
  cases hlast : gap.getLast? with
  | none =>
    obtain rfl := List.getLast?_eq_none_iff.1 hlast
    rwa [List.append_nil]
  | some c =>
    have hc : isAsciiBlank c = true := hgap c (List.mem_of_getLast? hlast)
    exact betweenNames_of_getLast? hlast (by simp [isAttributeNameChar, hc]) before text

/-- **A token leaves no name open.** -/
theorem LexesTag.betweenNames {chars rest : List Char} {part : TagPart}
    (h : LexesTag chars part rest) (before : List Char) : BetweenNames (before ++ chars) rest := by
  cases h with
  | close | selfClose | slash | equals => exact betweenNames_of_getLast? rfl (by decide) before rest
  | @doubleQuoted value =>
    have hlast : ('"' :: value ++ ['"']).getLast? = some '"' := List.getLast?_concat
    exact betweenNames_of_getLast? hlast (by decide) before rest
  | @singleQuoted value =>
    have hlast : ('\'' :: value ++ ['\'']).getLast? = some '\'' := List.getLast?_concat
    exact betweenNames_of_getLast? hlast (by decide) before rest
  | name _ _ hstop => exact .inr hstop

theorem FailsToLexTag.betweenNames {chars rest : List Char} {fault : TagFault}
    (h : FailsToLexTag chars fault rest) (before : List Char) :
    BetweenNames (before ++ chars) rest := by
  cases h with
  | value => exact .inr (by simp [Stops])
  | lessThan => exact betweenNames_of_getLast? rfl (by decide) before rest

/-- What a name is: its characters, at least one. -/
theorem LexesTag.chars_of_name {chars rest : List Char} {value : String}
    (h : LexesTag chars (.name value) rest) :
    value.toList = chars ∧ (∃ c cs, chars = c :: cs) ∧ (∀ c ∈ chars, isAttributeNameChar c = true) ∧
      Stops isAttributeNameChar rest := by
  generalize hpart : TagPart.name value = part at h
  cases h with
  | name hne hname hstop =>
    obtain rfl := TagPart.name.inj hpart
    exact ⟨String.toList_ofList, List.exists_cons_of_ne_nil hne, hname, hstop⟩
  | _ => contradiction

/-- **A step of the tag lexer** from a place that is not within a name leads to such a place. -/
theorem stands_of_lexTag {before text : List Char} {lexeme : Lexeme TagFault TagPart}
    (h : lexTag text = some lexeme) (hbetween : BetweenNames before text) :
    TagStands (before ++ lexeme.gap) lexeme.chars lexeme.token lexeme.rest ∧
      BetweenNames (before ++ lexeme.gap ++ lexeme.chars) lexeme.rest := by
  rw [← lexTag_append h] at hbetween
  have hstart := hbetween.blanks (blanks_of_lexTag h)
  have hlexes : ∀ part, lexeme.token = .ok part → LexesTag lexeme.chars part lexeme.rest :=
    fun _ hpart => (lexesTag_of_lexTag h hpart).2
  have hfails : ∀ fault, lexeme.token = .error fault →
      FailsToLexTag lexeme.chars fault lexeme.rest :=
    fun _ => failsToLexTag_of_lexTag h
  refine ⟨⟨hlexes, ?_, hfails⟩, ?_⟩
  · intro value hvalue
    refine hstart.resolve_right fun hstops => ?_
    -- A name starts with a character of names, so the text behind the blanks does not stop one.
    obtain ⟨-, ⟨c, cs, hchars⟩, hname, -⟩ := (hlexes _ hvalue).chars_of_name
    rw [hchars] at hstops hname
    have hc := hname c List.mem_cons_self
    rw [hstops c rfl] at hc
    contradiction
  · cases htoken : lexeme.token with
    | ok part => exact (hlexes part htoken).betweenNames _
    | error fault => exact (hfails fault htoken).betweenNames _

/-- **A run of the tag lexer** skips blanks. -/
theorem strewn_tagTokens {before text : List Char} {pos : Nat} (hpos : pos = byteLength before)
    (hbetween : BetweenNames before text) :
    Strewn Blanks TagStands before text (tagTokens pos text) := by
  fun_induction tagTokens pos text generalizing before with
  | case1 pos text hlex => exact .nil (blanks_of_lexTag_eq_none hlex)
  | case2 pos text lexeme hlex start =>
    rename_i ih
    obtain ⟨hstands, hrest⟩ := stands_of_lexTag hlex hbetween
    refine .step (lexTag_append hlex) (hpos ▸ rfl) rfl (blanks_of_lexTag hlex)
      (chars_ne_nil_of_lexTag hlex) hstands
      (ih ?_ hrest)
    rw [byteLength_append, byteLength_append, ← hpos]

/-! ### The statement -/

/-- **What the content lexer makes of a text.** Its pieces pave the text. Each of them, token or
not, is what the lexer makes of the characters of the piece alone, and a token is written as these
characters. -/
structure ContentItems (text : List Char) (items : List (Except ContentFault ContentPart × Span)) :
    Prop where
  paves : Paves ⟨0, byteLength text⟩ (items.map Prod.snd)
  stands : ∀ item ∈ items, ∃ chars, Covers text item.2 chars ∧
    lexContent chars = some { chars, token := item.1, rest := [] } ∧
    ∀ part, item.1 = .ok part → part.written = chars

/-- **What the tag lexer makes of a text.** Its pieces are not empty and come in order, and every
character outside of them is a blank. A token is what `LexesTag` says. A name is made of characters
of names, and no such character stands right before it or right behind it. A piece that is no token
is a `<`, or a quote and everything behind it where the quote does not come again. -/
structure TagItems (text : List Char) (items : List (Except TagFault TagPart × Span)) : Prop where
  nonempty : ∀ item ∈ items, item.2.start < item.2.stop
  apart : items.Pairwise fun item later => item.2.stop ≤ later.2.start
  gaps : ∀ before c after, text = before ++ c :: after →
    (∃ item ∈ items, item.2.start ≤ byteLength before ∧ byteLength before < item.2.stop) ∨
      isAsciiBlank c = true
  stands : ∀ item ∈ items, ∃ before chars rest, text = before ++ (chars ++ rest) ∧
    item.2 = ⟨byteLength before, byteLength before + byteLength chars⟩ ∧
    (∀ part, item.1 = .ok part → LexesTag chars part rest) ∧
    (∀ value, item.1 = .ok (.name value) → value.toList = chars ∧
      (∀ c ∈ chars, isAttributeNameChar c = true) ∧
      Stops isAttributeNameChar before.reverse ∧ Stops isAttributeNameChar rest) ∧
    ∀ fault, item.1 = .error fault → chars = ['<'] ∨
      ∃ mark value, (mark = '"' ∨ mark = '\'') ∧ mark ∉ value ∧ chars = mark :: value ∧ rest = []

theorem Strewn.contentItems {text : List Char}
    {items : List (Except ContentFault ContentPart × Span)}
    (h : Strewn (· = []) (fun _ => ContentStands) [] text items) : ContentItems text items := by
  constructor
  · exact h.paves fun _ => id
  · intro item hitem
    obtain ⟨before, chars, rest, hcut, hspan, -, hstands⟩ := h.stands_of_mem hitem
    refine ⟨chars, ⟨before, rest, hcut, by rw [hspan], by rw [hspan]⟩, hstands.lexContent_eq, ?_⟩
    intro part hpart
    exact (hstands.1 part hpart).written_eq

theorem Strewn.tagItems {text : List Char} {items : List (Except TagFault TagPart × Span)}
    (h : Strewn Blanks TagStands [] text items) : TagItems text items := by
  -- Spans and gaps follow from the tiling; a token says the rest about its own slice.
  refine ⟨fun item hitem => h.start_lt_stop hitem, h.pairwise, ?_, ?_⟩
  · intro before c after hcut
    refine (h.skipped_of_outside hcut (Nat.zero_le _)).imp_right ?_
    rintro ⟨gap, hgap, hc⟩
    exact hgap c hc
  · intro item hitem
    obtain ⟨before, chars, rest, hcut, hspan, -, hlexes, hname, hfails⟩ := h.stands_of_mem hitem
    refine ⟨before, chars, rest, hcut, hspan, hlexes, ?_, ?_⟩
    · intro value hvalue
      obtain ⟨hwritten, -, hchars, hbehind⟩ := (hlexes _ hvalue).chars_of_name
      exact ⟨hwritten, hchars, hname value hvalue, hbehind⟩
    · intro fault hfault
      cases hfails fault hfault with
      | value hmark hvalue => exact .inr ⟨_, _, hmark, hvalue, rfl, rfl⟩
      | lessThan => exact .inl rfl

/-- **The lexers cover every text**, whatever it is: nothing of it is lost between tags, and nothing
but blanks inside a tag. -/
theorem lexers_cover (text : List Char) :
    ContentItems text (contentTokens 0 text) ∧ TagItems text (tagTokens 0 text) := by
  -- Before the text there is no name that could go on into it.
  have hstart : BetweenNames [] text := .inl (by simp [Stops])
  exact ⟨(strewn_contentTokens rfl).contentItems, (strewn_tagTokens rfl hstart).tagItems⟩

end Triptych.Markup
