import Triptych.Proofs.Markup.Minify
import Triptych.Proofs.Markup.Shift

/-!
# Values without their quotes

Quotes are dropped around a value that needs none (`needsNoQuotes`). Whether it needs none is
decided by the value alone, and how far a value without quotes reaches is decided by the reader of
tags, which knows other blanks and gives a slash before `>` back to the tag. The two agree: such a
value, behind a name and an equals sign, is read as it was, and the reader goes on with what follows
it (`readTag_unquoted`).

* A value that needs no quotes ends before `>`, `/>` and blanks (`bareEnds_of_needsNoQuotes`).
* The reader collects the attributes of a tag and looks at none of them again, so the rest of a tag
  reads the same whatever was read before it (`readAttributes_append`), and wherever it starts
  (`readTag_shift`). Hence an attribute is put before those of the rest, however its value is
  written (`readTag_attribute`).
-/

namespace Triptych.Markup

open Text

/-- The tag with an attribute before its others. -/
def ReadTag.prepend (attr : Attribute) (tag : ReadTag) : ReadTag :=
  { tag with attributes := attr :: tag.attributes }

/-- The characters are those of an attribute's name. -/
def IsAttributeName (name : List Char) : Prop :=
  name ≠ [] ∧ ∀ c ∈ name, isAttributeNameChar c = true

/-- What an attribute may be followed by: `>`, `/>` or a blank. -/
def EndsAttribute (rest : List Char) : Prop :=
  rest.head? = some '>' ∨ ['/', '>'] <+: rest ∨ ∃ c, rest.head? = some c ∧ isAsciiBlank c = true

/-! ### Attributes one after the other -/

theorem flush_append (pending : Option (String × Span)) (done before : List Attribute) :
    flush pending (done ++ before) = flush pending done ++ before := by
  cases pending <;> rfl

/-- **What was read before has no say in how the rest of a tag is read.** -/
theorem readAttributes_append (pending : Option (String × Span)) (done before : List Attribute)
    (pos : Nat) (text : List Char) :
    readAttributes pending (done ++ before) pos text =
      (readAttributes pending done pos text).map fun tag =>
        { tag with attributes := before.reverse ++ tag.attributes } := by
  -- Both runs meet the same tokens; the attributes before only come out at the end, behind those of
  -- `done`.
  fun_induction readAttributes pending done pos text with
  | case1 pending done pos text hlex => rw [readAttributes_end hlex]; rfl
  | case2 pending done pos text lexeme hlex _ start stop fault htoken =>
    rw [readAttributes_step hlex]
    simp only [htoken]
    rfl
  | case3 pending done pos text lexeme hlex _ start stop htoken
  | case4 pending done pos text lexeme hlex _ start stop htoken =>
    rw [readAttributes_step hlex]
    simp only [htoken, flush_append, List.reverse_append]
    rfl
  | case5 pending done pos text lexeme hlex _ start stop htoken ih =>
    rw [readAttributes_step hlex]
    simp only [htoken]
    exact ih
  | case6 pending done pos text lexeme hlex _ start stop name htoken ih =>
    rw [readAttributes_step hlex]
    simp only [htoken, flush_append]
    exact ih
  | case7 done pos text lexeme hlex _ start stop htoken =>
    rw [readAttributes_step hlex]
    simp only [htoken]
    rfl
  | case8 done pos text lexeme hlex _ start stop htoken name span error hvalue =>
    rw [readAttributes_step hlex]
    simp only [htoken]
    rw [hvalue]
    rfl
  | case9 done pos text lexeme hlex _ start stop htoken name span value hvalue _ ih =>
    rw [readAttributes_step hlex]
    simp only [htoken]
    rw [hvalue]
    exact ih
  | case10 pending done pos text lexeme hlex _ start stop token _ _ _ _ _ htoken =>
    rw [readAttributes_step hlex]
    simp only [htoken]
    rfl

/-- **An attribute is put before those of the rest of the tag**, whatever its value is written as:
`written` are the characters of the value as they stand in the tag, with or without quotes. -/
theorem readTag_attribute {name written rest : List Char} {value : String} {quote : Quote}
    (hname : IsAttributeName name)
    (hvalue : ∀ pos, ReadsValue pos (written ++ rest) ⟨value, quote, pos + byteLength written,
      rest⟩)
    (pos : Nat) :
    readTag pos (' ' :: (name ++ '=' :: (written ++ rest))) =
      let stop := pos + byteLength (' ' :: (name ++ '=' :: written))
      moved stop
        (fun tag => (tag.shift stop).prepend ⟨String.ofList name, some value, quote,
          ⟨pos + byteLength [' '], stop⟩⟩)
        (readTag 0 rest) := by
  have hblank : Blanks [' '] := List.forall_mem_singleton.2 (by decide)
  have hequals : Stops isAttributeNameChar ('=' :: (written ++ rest)) := stops_cons (by decide) _
  have hlexName := lexTag_of_lexesTag hblank (.name hname.1 hname.2 hequals)
  have hlexEquals :=
    lexTag_of_lexesTag blanks_nil (LexesTag.equals : LexesTag _ _ (written ++ rest))
  have hstop :
      pos + byteLength [' '] + byteLength name + byteLength ([] : List Char) + byteLength ['='] +
        byteLength written = pos + byteLength (' ' :: (name ++ '=' :: written)) := by
    simp only [byteLength_cons, byteLength_append, byteLength_nil]
    omega
  rw [List.singleton_append] at hlexName
  rw [readTag, readAttributes_step hlexName]
  dsimp only [flush]
  rw [List.nil_append, List.singleton_append] at hlexEquals
  rw [readAttributes_step hlexEquals]
  dsimp only
  rw [readValue_of_reads (hvalue _), hstop]
  generalize pos + byteLength (' ' :: (name ++ '=' :: written)) = stop
  -- Behind the value the tag is read as if it started there.
  have hrest := readTag_shift stop 0 rest
  rw [Nat.zero_add] at hrest
  have hdone :=
    readAttributes_append none []
    [⟨String.ofList name, some value, quote, ⟨pos + byteLength [' '], stop⟩⟩]
    stop rest
  rw [List.nil_append] at hdone
  dsimp only
  rw [hdone, show readAttributes none [] stop rest = readTag stop rest from rfl, hrest]
  cases readTag 0 rest <;> rfl

/-! ### Values that need no quotes -/

/-- **A value that needs no quotes ends where it should.** -/
theorem bareEnds_of_needsNoQuotes {value rest : List Char} (hvalue : needsNoQuotes value = true)
    (hrest : EndsAttribute rest) : BareEnds value rest := by
  have hlast : value.getLast? ≠ some '/' := by
    simp only [needsNoQuotes, Bool.and_eq_true, bne_iff_ne] at hvalue
    exact hvalue.2
  -- Since it does not end in a slash, it is enough that what follows is no character of a value.
  have hstops (h : Stops isUnquotedChar rest) : BareEnds value rest :=
    .inl ⟨h, fun hslash => hlast hslash.2.2⟩
  rcases hrest with hclose | ⟨after, rfl⟩ | ⟨c, hc, hblank⟩
  · refine hstops fun c hc => ?_
    obtain rfl := Option.some.inj (hclose.symm.trans hc)
    decide
  · exact .inr ⟨after, rfl⟩
  · refine hstops fun d hd => ?_
    obtain rfl := Option.some.inj (hc.symm.trans hd)
    simp [isUnquotedChar, hblank]

theorem ne_quote_of_needsNoQuotes {value : List Char} (h : needsNoQuotes value = true) :
    ∀ c ∈ value, (c != '"') = true ∧ (c != '\'') = true := by
  simp only [needsNoQuotes, Bool.and_eq_true, Bool.not_eq_true', List.any_eq_false, Bool.or_eq_true,
    not_or, beq_iff_eq] at h
  intro c hc
  obtain ⟨⟨⟨⟨⟨⟨-, hdouble⟩, hsingle⟩, -⟩, -⟩, -⟩, -⟩ := h.1.2 c hc
  exact ⟨by simpa using hdouble, by simpa using hsingle⟩

/-- **Dropping quotes is safe.** Before `>`, `/>` or a blank, a value that needs no quotes is read
without them as it is, up to its end: it is the value of the first attribute, and all else, the
other attributes, the way the tag ends and the errors, is what is read from what follows it, as many
bytes further on. With quotes of either kind the same is read, but for the kind of the quotes and
the offsets. -/
theorem readTag_unquoted {name value rest : List Char} (hname : IsAttributeName name)
    (hvalue : needsNoQuotes value = true) (hrest : EndsAttribute rest) (pos : Nat) :
    (readTag pos (' ' :: (name ++ '=' :: (value ++ rest))) =
      let stop := pos + byteLength (' ' :: (name ++ '=' :: value))
      moved stop
        (fun tag => (tag.shift stop).prepend
          ⟨String.ofList name, some (String.ofList value), .none, ⟨pos + byteLength [' '], stop⟩⟩)
        (readTag 0 rest)) ∧
    ∀ quote mark, (quote, mark) ∈ [(Quote.double, '"'), (Quote.single, '\'')] →
      readTag pos (' ' :: (name ++ '=' :: (mark :: (value ++ [mark]) ++ rest))) =
        let stop := pos + byteLength (' ' :: (name ++ '=' :: (mark :: (value ++ [mark]))))
        moved stop
          (fun tag => (tag.shift stop).prepend
            ⟨String.ofList name, some (String.ofList value), quote, ⟨pos + byteLength [' '], stop⟩⟩)
          (readTag 0 rest) := by
  -- A value that needs no quotes holds neither of them, so either kind can enclose it.
  have hquotes := ne_quote_of_needsNoQuotes hvalue
  refine ⟨readTag_attribute hname (fun pos => ?_) pos, fun quote mark hmark => ?_⟩
  · -- Without quotes the value has to end where the attribute does.
    exact ReadsValue.bare blanks_nil (isBareValue_of_needsNoQuotes hvalue)
      (bareEnds_of_needsNoQuotes hvalue hrest)
  · refine readTag_attribute hname (fun pos => ?_) pos
    obtain ⟨rfl, rfl⟩ | ⟨rfl, rfl⟩ : (quote = .double ∧ mark = '"') ∨
        (quote = .single ∧ mark = '\'') := by
      simpa using hmark
    · exact ReadsValue.double blanks_nil fun c hc => (hquotes c hc).1
    · exact ReadsValue.single blanks_nil fun c hc => (hquotes c hc).2

/-- A path as a value, in a tag that closes itself right behind it. -/
theorem readTag_unquoted_path :
    IsAttributeName "href".toList ∧ needsNoQuotes "/é/b".toList = true ∧
      EndsAttribute "/> c".toList ∧
      readTag 2 " href=/é/b/> c".toList =
        .ok ⟨[⟨"href", some "/é/b", .none, ⟨3, 13⟩⟩], true, 15, " c".toList⟩ := by
  have hname : IsAttributeName "href".toList := ⟨by decide, List.all_eq_true.1 (by decide)⟩
  have hvalue : needsNoQuotes "/é/b".toList = true := by decide
  have hrest : EndsAttribute "/> c".toList := .inr (.inl ⟨" c".toList, by decide⟩)
  have hend : readTag 0 "/> c".toList = .ok ⟨[], true, 2, " c".toList⟩ := by
    have hclose : LexesTag ['/', '>'] .selfClose " c".toList := .selfClose
    exact readAttributes_step (lexTag_of_lexesTag blanks_nil hclose) none [] 0
  have hread := (readTag_unquoted hname hvalue hrest 2).1
  rw [hend] at hread
  exact ⟨hname, hvalue, hrest, hread⟩

end Triptych.Markup
