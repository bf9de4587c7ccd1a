import Triptych.Markup.Attributes
import Triptych.Proofs.Markup.Lexing

/-!
# What stands inside a tag

The tag lexer and the reader of attributes, without their algorithms. `LexesTag chars part rest`
says that the characters, standing before `rest`, are a part of a tag; `ReadsValue` says what a
value after an equals sign looks like, and `TagReads` puts the parts of a tag together up to its
end. The functions and the relations agree:

* `lexTag_of_lexesTag` and `lexesTag_of_lexTag` for the lexer,
* `readValue_of_reads` and `reads_of_readValue` for values,
* `readAttributes_of_tagReads` and `tagReads_of_readAttributes` for the whole tag.

What makes the relations useful is `TagReads.exists_body`: a tag ends with its `>`, and what is
behind that sign has no say in how the tag is read.
-/

namespace Triptych.Markup

open Text

/-! ### Parts of a tag -/

/-- Blanks of the kind that separates the parts of a tag. -/
def Blanks (gap : List Char) : Prop :=
  ∀ c ∈ gap, isAsciiBlank c = true

theorem blanks_nil : Blanks [] := by simp [Blanks]

/-- The characters, standing before `rest`, are the part of a tag. -/
inductive LexesTag : List Char → TagPart → List Char → Prop
  | close {rest : List Char} : LexesTag ['>'] .close rest
  | selfClose {rest : List Char} : LexesTag ['/', '>'] .selfClose rest
  | slash {rest : List Char} (hnext : rest.head? ≠ some '>') : LexesTag ['/'] .slash rest
  | equals {rest : List Char} : LexesTag ['='] .equals rest
  | doubleQuoted {value rest : List Char} (hvalue : ∀ c ∈ value, (c != '"') = true) :
    LexesTag ('"' :: (value ++ ['"'])) (.doubleQuoted (String.ofList value)) rest
  | singleQuoted {value rest : List Char} (hvalue : ∀ c ∈ value, (c != '\'') = true) :
    LexesTag ('\'' :: (value ++ ['\''])) (.singleQuoted (String.ofList value)) rest
  | name {name rest : List Char} (hne : name ≠ [])
      (hname : ∀ c ∈ name, isAttributeNameChar c = true)
    (hstop : Stops isAttributeNameChar rest) : LexesTag name (.name (String.ofList name)) rest

/-- A character of an attribute name is none of the signs of a tag. -/
theorem ne_of_isAttributeNameChar {c : Char} (h : isAttributeNameChar c = true) :
    isAsciiBlank c = false ∧ c ≠ '"' ∧ c ≠ '\'' ∧ c ≠ '<' ∧ c ≠ '>' ∧ c ≠ '=' ∧ c ≠ '/' := by
  simpa [isAttributeNameChar, and_assoc] using h

/-- A part of a tag starts with a character that is no blank. -/
theorem LexesTag.stops {chars rest : List Char} {part : TagPart} (h : LexesTag chars part rest) :
    Stops isAsciiBlank (chars ++ rest) := by
  cases h with
  | name hne hname =>
    obtain ⟨c, cs, rfl⟩ := List.exists_cons_of_ne_nil hne
    have hc := (ne_of_isAttributeNameChar (hname c (by simp))).1
    simpa [Stops] using hc
  | _ => simp [Stops, isAsciiBlank]

/-- Quoted characters before their quote are what the lexer takes. -/
theorem lexQuoted_eq {gap value rest : List Char} {mark : Char} {token : String → TagPart}
    (hvalue : ∀ c ∈ value, (c != mark) = true) :
    lexQuoted gap mark token (value ++ mark :: rest) =
      { gap, chars := mark :: (value ++ [mark]), token := .ok (token (String.ofList value)),
        rest } := by
  have hstop : Stops (· != mark) (mark :: rest) := by simp [Stops]
  unfold lexQuoted
  rw [dropWhile_append_of_stops hvalue hstop, takeWhile_append_of_stops hvalue hstop]

theorem lexTagAt_of_lexesTag {gap chars rest : List Char} {part : TagPart} {c : Char}
    {cs : List Char} (h : LexesTag chars part rest) (hchars : chars ++ rest = c :: cs) :
    lexTagAt gap c cs = { gap, chars, token := .ok part, rest } := by
  -- By the kind of the token, each of which is known by its first character.
  cases h with
  | close | equals | selfClose =>
    obtain ⟨rfl, rfl⟩ := List.cons.inj hchars.symm
    simp [lexTagAt]
  | slash hnext =>
    obtain ⟨rfl, rfl⟩ := List.cons.inj hchars.symm
    cases cs with
    | nil => rfl
    | cons d ds =>
      have hd : d ≠ '>' := by simpa using hnext
      simp [lexTagAt, hd]
  | doubleQuoted hvalue | singleQuoted hvalue =>
    obtain ⟨rfl, rfl⟩ := List.cons.inj hchars.symm
    simp [lexTagAt, lexQuoted_eq hvalue]
  | name hne hname hstop =>
    obtain ⟨d, ds, rfl⟩ := List.exists_cons_of_ne_nil hne
    obtain ⟨rfl, rfl⟩ := List.cons.inj hchars.symm
    -- A name starts with none of the characters that start something else.
    obtain ⟨-, h₁, h₂, h₃, h₄, h₅, h₆⟩ := ne_of_isAttributeNameChar (hname c (by simp))
    have htail : ∀ e ∈ ds, isAttributeNameChar e = true :=
      fun e he => hname e (List.mem_cons_of_mem _ he)
    simp [lexTagAt, h₁, h₂, h₃, h₄, h₅, h₆, takeWhile_append_of_stops htail hstop,
      dropWhile_append_of_stops htail hstop]

/-- Blanks and a part of a tag are what the tag lexer takes. -/
theorem lexTag_of_lexesTag {gap chars rest : List Char} {part : TagPart} (hgap : Blanks gap)
    (h : LexesTag chars part rest) :
    lexTag (gap ++ (chars ++ rest)) = some { gap, chars, token := .ok part, rest } := by
  unfold lexTag
  rw [dropWhile_append_of_stops hgap h.stops, takeWhile_append_of_stops hgap h.stops]
  -- Every part of a tag has a first character.
  obtain ⟨c, cs, hchars⟩ : ∃ c cs, chars ++ rest = c :: cs := by
    cases h with
    | name hne =>
      obtain ⟨d, ds, rfl⟩ := List.exists_cons_of_ne_nil hne
      exact ⟨d, ds ++ rest, rfl⟩
    | _ => exact ⟨_, _, rfl⟩
  rw [hchars]
  exact congrArg some (lexTagAt_of_lexesTag h hchars)

theorem lexesTag_lexQuoted {gap rest : List Char} {mark : Char} {token : String → TagPart}
    {part : TagPart} (h : (lexQuoted gap mark token rest).token = .ok part) :
    ∃ value after, rest = value ++ mark :: after ∧ (∀ c ∈ value, (c != mark) = true) ∧
      part = token (String.ofList value) ∧
      lexQuoted gap mark token rest =
        { gap, chars := mark :: (value ++ [mark]), token := .ok part, rest := after } := by
  cases hdrop : rest.dropWhile (· != mark) with
  | nil => simp [lexQuoted, hdrop] at h
  | cons d after =>
    -- What ends the run is the closing quote.
    obtain rfl : d = mark := by
      simpa using stops_dropWhile (p := (· != mark)) rest d (by rw [hdrop]; rfl)
    have hsplit := List.takeWhile_append_dropWhile (p := (· != d)) (l := rest)
    have hvalue : ∀ c ∈ rest.takeWhile (· != d), (c != d) = true := fun c hc =>
      of_mem_takeWhile (p := (· != d)) hc
    rw [hdrop] at hsplit
    rw [← hsplit, lexQuoted_eq hvalue] at h
    obtain rfl := Except.ok.inj h
    exact ⟨_, after, hsplit.symm, hvalue, rfl, by rw [← hsplit, lexQuoted_eq hvalue, hsplit]⟩

theorem lexesTag_lexTagAt {gap cs : List Char} {c : Char} {part : TagPart}
    (hc : isAsciiBlank c = false) (h : (lexTagAt gap c cs).token = .ok part) :
    LexesTag (lexTagAt gap c cs).chars part (lexTagAt gap c cs).rest := by
  -- One split for each first character that the lexer knows.
  unfold lexTagAt at h ⊢
  split at h
  next hclose =>
    obtain rfl := Except.ok.inj h
    rw [if_pos hclose, hclose]
    exact .close
  next hclose =>
  rw [if_neg hclose]
  split at h
  next hslash =>
    rw [if_pos hslash, hslash]
    split at h
    next rest =>
      obtain rfl := Except.ok.inj h
      exact .selfClose
    next rest hnext =>
      obtain rfl := Except.ok.inj h
      refine .slash ?_
      intro hhead
      obtain ⟨d, ds, rfl⟩ := List.exists_cons_of_ne_nil (l := cs) (by rintro rfl; simp at hhead)
      obtain rfl : d = '>' := by simpa using hhead
      exact hnext ds rfl
  next hslash =>
  rw [if_neg hslash]
  split at h
  next hequals =>
    obtain rfl := Except.ok.inj h
    rw [if_pos hequals, hequals]
    exact .equals
  next hequals =>
  rw [if_neg hequals]
  split at h
  next => contradiction
  next hangle =>
  rw [if_neg hangle]
  split at h
  next hdouble =>
    rw [if_pos hdouble]
    obtain ⟨value, after, -, hvalue, rfl, heq⟩ := lexesTag_lexQuoted h
    rw [heq, hdouble]
    exact .doubleQuoted (hdouble ▸ hvalue)
  next hdouble =>
  rw [if_neg hdouble]
  split at h
  next hsingle =>
    rw [if_pos hsingle]
    obtain ⟨value, after, -, hvalue, rfl, heq⟩ := lexesTag_lexQuoted h
    rw [heq, hsingle]
    exact .singleQuoted (hsingle ▸ hvalue)
  next hsingle =>
    rw [if_neg hsingle]
    obtain rfl := Except.ok.inj h
    -- No other part starts with this character, so a name may.
    refine .name (by simp) ?_ (stops_dropWhile _)
    intro d hd
    rcases List.mem_cons.1 hd with rfl | hd
    · simp [isAttributeNameChar, hc, hclose, hslash, hequals, hangle, hdouble, hsingle]
    · exact of_mem_takeWhile hd

theorem gap_lexTagAt (gap : List Char) (c : Char) (cs : List Char) :
    (lexTagAt gap c cs).gap = gap := by
  unfold lexTagAt lexQuoted
  repeat' split
  all_goals rfl

/-- Blanks are skipped, and nothing else. -/
theorem blanks_of_lexTag {text : List Char} {lexeme : Lexeme TagFault TagPart}
    (h : lexTag text = some lexeme) :
    Blanks lexeme.gap := by
  unfold lexTag at h
  split at h
  next => contradiction
  next =>
    obtain rfl := Option.some.inj h
    rw [gap_lexTagAt]
    exact fun c hc => of_mem_takeWhile hc

/-- What the tag lexer takes is blanks and a part of a tag. -/
theorem lexesTag_of_lexTag {text : List Char} {lexeme : Lexeme TagFault TagPart} {part : TagPart}
    (h : lexTag text = some lexeme) (htoken : lexeme.token = .ok part) :
    Blanks lexeme.gap ∧ LexesTag lexeme.chars part lexeme.rest := by
  refine ⟨blanks_of_lexTag h, ?_⟩
  unfold lexTag at h
  split at h
  · contradiction
  next c cs hdrop =>
    obtain rfl := Option.some.inj h
    -- The blanks before the part were skipped.
    have hc : isAsciiBlank c = false := stops_dropWhile text c (by rw [hdrop]; rfl)
    exact lexesTag_lexTagAt hc htoken

/-! ### Values -/

/-- The characters of a value without quotes: at least one, and no quote first. -/
structure IsBareValue (value : List Char) : Prop where
  ne_nil : value ≠ []
  chars : ∀ c ∈ value, isUnquotedChar c = true
  head : value.head? ≠ some '"' ∧ value.head? ≠ some '\''

/-- A value without quotes ends before `rest`: there a blank or an angle bracket follows, but not
`>` after a slash with something before it, or the tag ends with `/>`. -/
def BareEnds (value rest : List Char) : Prop :=
  (Stops isUnquotedChar rest ∧
    ¬ (1 < value.length ∧ rest.head? = some '>' ∧ value.getLast? = some '/')) ∨
  ∃ after, rest = '/' :: '>' :: after

/-- What follows an equals sign reads as a value. -/
inductive ReadsValue : Nat → List Char → ReadValue → Prop
  | bare {pos : Nat} {gap value rest : List Char} (hgap : Blanks gap) (hvalue : IsBareValue value)
    (hend : BareEnds value rest) :
    ReadsValue pos (gap ++ (value ++ rest))
      ⟨String.ofList value, .none, pos + byteLength gap + byteLength value, rest⟩
  | double {pos : Nat} {gap value rest : List Char} (hgap : Blanks gap)
    (hvalue : ∀ c ∈ value, (c != '"') = true) :
    ReadsValue pos (gap ++ ('"' :: (value ++ ['"']) ++ rest))
      ⟨String.ofList value, .double, pos + byteLength gap + byteLength ('"' :: (value ++ ['"'])),
        rest⟩
  | single {pos : Nat} {gap value rest : List Char} (hgap : Blanks gap)
    (hvalue : ∀ c ∈ value, (c != '\'') = true) :
    ReadsValue pos (gap ++ ('\'' :: (value ++ ['\'']) ++ rest))
      ⟨String.ofList value, .single, pos + byteLength gap + byteLength ('\'' :: (value ++ ['\''])),
        rest⟩

/-- A character of a value without quotes is no blank and no angle bracket. -/
theorem ne_of_isUnquotedChar {c : Char} (h : isUnquotedChar c = true) :
    isAsciiBlank c = false ∧ c ≠ '>' ∧ c ≠ '<' := by
  simpa [isUnquotedChar, and_assoc] using h

theorem IsBareValue.stops {value : List Char} (h : IsBareValue value) (rest : List Char) :
    Stops isAsciiBlank (value ++ rest) := by
  obtain ⟨c, cs, rfl⟩ := List.exists_cons_of_ne_nil h.ne_nil
  simpa [Stops] using (ne_of_isUnquotedChar (h.chars c (by simp))).1

/-- A value without quotes is found where it ends. -/
theorem bareValue_eq_some {gap value rest : List Char} (hgap : Blanks gap)
    (hvalue : IsBareValue value) (hend : BareEnds value rest) :
    bareValue (gap ++ (value ++ rest)) = some value := by
  have hbody : (gap ++ (value ++ rest)).dropWhile isAsciiBlank = value ++ rest :=
    dropWhile_append_of_stops hgap (hvalue.stops rest)
  have hhead : (value ++ rest).head? = value.head? := by
    obtain ⟨c, cs, rfl⟩ := List.exists_cons_of_ne_nil hvalue.ne_nil
    rfl
  -- Where the value ends is told by the run of its characters and what stops it.
  have hpart : unquotedPart ((value ++ rest).takeWhile isUnquotedChar)
      ((value ++ rest).dropWhile isUnquotedChar) = value := by
    obtain ⟨hstop, hslash⟩ | ⟨after, rfl⟩ := hend
    · rw [takeWhile_append_of_stops hvalue.chars hstop,
        dropWhile_append_of_stops hvalue.chars hstop]
      refine if_neg ?_
      simpa [and_assoc] using hslash
    · -- The slash belongs to the run, and is taken off again.
      have hrun : ∀ c ∈ value ++ ['/'], isUnquotedChar c = true := by
        intro c hc
        rcases List.mem_append.1 hc with hc | hc
        · exact hvalue.chars c hc
        · obtain rfl := List.mem_singleton.1 hc
          decide
      have hstop : Stops isUnquotedChar ('>' :: after) := by simp [Stops, isUnquotedChar]
      have hsplit : value ++ '/' :: '>' :: after = (value ++ ['/']) ++ '>' :: after := by simp
      rw [hsplit, takeWhile_append_of_stops hrun hstop, dropWhile_append_of_stops hrun hstop,
        unquotedPart, if_pos, List.dropLast_concat]
      have hpos := List.length_pos_iff.2 hvalue.ne_nil
      simp [hpos]
  simp only [bareValue, hbody, hhead, hpart]
  rw [if_neg (by simpa using hvalue.head), if_neg (by simpa using hvalue.ne_nil)]

/-- The value that is found ends where it should. -/
theorem bareEnds_unquotedPart {run rest : List Char} (hrest : Stops isUnquotedChar rest)
    (hne : unquotedPart run rest ≠ []) :
    ∃ after, run ++ rest = unquotedPart run rest ++ after ∧
      BareEnds (unquotedPart run rest) after := by
  -- Either a slash before `>` is given back to the tag, or the whole run is the value.
  unfold unquotedPart at hne ⊢
  split
  next hslash =>
    obtain ⟨⟨hlength, hhead⟩, hlast⟩ : (1 < run.length ∧ rest.head? = some '>') ∧
        run.getLast? = some '/' := by
      simpa using hslash
    obtain ⟨after, rfl⟩ : ∃ after, rest = '>' :: after := by
      cases rest with
      | nil => simp at hhead
      | cons c cs => exact ⟨cs, by simpa using hhead⟩
    obtain ⟨value, rfl⟩ := List.getLast?_eq_some_iff.1 hlast
    exact ⟨'/' :: '>' :: after, by simp, .inr ⟨after, rfl⟩⟩
  next hslash => exact ⟨rest, rfl, .inl ⟨hrest, by simpa [and_assoc] using hslash⟩⟩

/-- A value without quotes that is found stands after blanks and ends where it should. -/
theorem bareEnds_of_bareValue {text value : List Char} (h : bareValue text = some value) :
    IsBareValue value ∧ ∃ rest, text.dropWhile isAsciiBlank = value ++ rest ∧
      BareEnds value rest := by
  simp only [bareValue] at h
  split at h
  · contradiction
  next hquote =>
    split at h
    · contradiction
    next hne =>
      obtain rfl := Option.some.inj h
      have hsplit :=
        List.takeWhile_append_dropWhile (p := isUnquotedChar) (l := text.dropWhile isAsciiBlank)
      obtain ⟨rest, hrest, hend⟩ :=
        bareEnds_unquotedPart (stops_dropWhile _) (fun hnil => hne (List.isEmpty_iff.2 hnil))
      rw [hsplit] at hrest
      have hmem : ∀ c ∈ unquotedPart ((text.dropWhile isAsciiBlank).takeWhile isUnquotedChar)
          ((text.dropWhile isAsciiBlank).dropWhile isUnquotedChar), isUnquotedChar c = true :=
              fun c hc =>
        of_mem_takeWhile ((unquotedPart_isInitial _ _).subset hc)
      refine ⟨⟨fun hnil => hne (List.isEmpty_iff.2 hnil), hmem, ?_⟩, rest, hrest, hend⟩
      -- The first character of the value is that of the text, which is no quote.
      rw [hrest] at hquote
      generalize unquotedPart _ _ = value at hne hquote
      obtain ⟨c, cs, rfl⟩ := List.exists_cons_of_ne_nil (fun hnil => hne (List.isEmpty_iff.2 hnil))
      simpa using hquote

/-- What reads as a value is what `readValue` finds. -/
theorem readValue_of_reads {pos : Nat} {text : List Char} {found : ReadValue}
    (h : ReadsValue pos text found) :
    readValue pos text = .ok found := by
  cases h with
  | @bare gap value rest hgap hvalue hend =>
    rw [readValue, bareValue_eq_some hgap hvalue hend]
    simp only [dropWhile_append_of_stops hgap (hvalue.stops rest),
      takeWhile_append_of_stops hgap (hvalue.stops rest), List.drop_left]
  | @double gap value rest hgap hvalue =>
    -- A quote first means that there is no bare value.
    have hlex := lexTag_of_lexesTag hgap (LexesTag.doubleQuoted hvalue : LexesTag _ _ rest)
    have hbare : bareValue (gap ++ ('"' :: (value ++ ['"']) ++ rest)) = none := by
      rw [bareValue, dropWhile_append_of_stops hgap (LexesTag.doubleQuoted hvalue).stops]
      rfl
    simp only [readValue, hbare, hlex]
  | @single gap value rest hgap hvalue =>
    have hlex := lexTag_of_lexesTag hgap (LexesTag.singleQuoted hvalue : LexesTag _ _ rest)
    have hbare : bareValue (gap ++ ('\'' :: (value ++ ['\'']) ++ rest)) = none := by
      rw [bareValue, dropWhile_append_of_stops hgap (LexesTag.singleQuoted hvalue).stops]
      rfl
    simp only [readValue, hbare, hlex]

/-- What `readValue` finds reads as a value. -/
theorem reads_of_readValue {pos : Nat} {text : List Char} {found : ReadValue}
    (h : readValue pos text = .ok found) : ReadsValue pos text found := by
  unfold readValue at h
  split at h
  next value hbare =>
    obtain rfl := Except.ok.inj h
    obtain ⟨hvalue, rest, hrest, hend⟩ := bareEnds_of_bareValue hbare
    -- Put the blanks back in front of the value.
    have hsplit := List.takeWhile_append_dropWhile (p := isAsciiBlank) (l := text)
    have hgap : Blanks (text.takeWhile isAsciiBlank) := fun c hc => of_mem_takeWhile hc
    have hreads : ReadsValue pos (text.takeWhile isAsciiBlank ++ (value ++ rest)) _ :=
      .bare hgap hvalue hend
    rw [← hrest, hsplit] at hreads
    rw [hrest, List.drop_left]
    exact hreads
  next hbare =>
    split at h
    · contradiction
    next lexeme hlex =>
      have happend := lexTag_append hlex
      split at h
      · contradiction
      next value htoken =>
        obtain rfl := Except.ok.inj h
        obtain ⟨hgap, hpart⟩ := lexesTag_of_lexTag hlex htoken
        rw [← happend]
        generalize lexeme.chars = chars, lexeme.rest = rest at hpart
        generalize hpart' : TagPart.doubleQuoted value = part at hpart
        cases hpart with
        | doubleQuoted hvalue =>
          obtain rfl := TagPart.doubleQuoted.inj hpart'
          exact .double hgap hvalue
        | _ => contradiction
      next value htoken =>
        obtain rfl := Except.ok.inj h
        obtain ⟨hgap, hpart⟩ := lexesTag_of_lexTag hlex htoken
        rw [← happend]
        generalize lexeme.chars = chars, lexeme.rest = rest at hpart
        generalize hpart' : TagPart.singleQuoted value = part at hpart
        cases hpart with
        | singleQuoted hvalue =>
          obtain rfl := TagPart.singleQuoted.inj hpart'
          exact .single hgap hvalue
        | _ => contradiction
      · contradiction

/-- Where a value without quotes ends is decided before the next `>` has been passed. -/
theorem BareEnds.cut {value body tail tail' : List Char}
    (h : BareEnds value (body ++ '>' :: tail)) :
    BareEnds value (body ++ '>' :: tail') := by
  -- At most two characters behind the value are looked at.
  match body with
  | [] =>
    obtain h | ⟨after, hafter⟩ := h
    · exact .inl (by simpa [Stops] using h)
    · simp at hafter
  | [c] =>
    obtain h | ⟨after, hafter⟩ := h
    · exact .inl (by simpa [Stops] using h)
    · obtain rfl : c = '/' := by simpa using congrArg List.head? hafter
      exact .inr ⟨tail', rfl⟩
  | c :: d :: cs =>
    obtain h | ⟨after, hafter⟩ := h
    · exact .inl (by simpa [Stops] using h)
    · obtain ⟨rfl, rfl, -⟩ : c = '/' ∧ d = '>' ∧ _ := by simpa using hafter
      exact .inr ⟨_, rfl⟩

/-- How a value is read is decided before the next `>` has been passed. -/
theorem ReadsValue.cut {pos : Nat} {text body tail : List Char} {value : ReadValue}
    (h : ReadsValue pos text value) (hrest : value.rest = body ++ '>' :: tail) :
    ∃ read, text = read ++ value.rest ∧ value.stop = pos + byteLength read ∧
      ∀ tail', ReadsValue pos (read ++ (body ++ '>' :: tail')) { value with rest :=
        body ++ '>' :: tail' } := by
  cases h with
  | @bare gap value rest hgap hvalue hend =>
    obtain rfl : rest = body ++ '>' :: tail := hrest
    refine ⟨gap ++ value, by simp, by simp [Nat.add_assoc], fun tail' => ?_⟩
    rw [List.append_assoc]
    exact .bare hgap hvalue hend.cut
  | @double gap value rest hgap hvalue =>
    obtain rfl : rest = body ++ '>' :: tail := hrest
    refine ⟨gap ++ '"' :: (value ++ ['"']), by simp, by simp [Nat.add_assoc], fun tail' => ?_⟩
    rw [List.append_assoc]
    exact .double hgap hvalue
  | @single gap value rest hgap hvalue =>
    obtain rfl : rest = body ++ '>' :: tail := hrest
    refine ⟨gap ++ '\'' :: (value ++ ['\'']), by simp, by simp [Nat.add_assoc], fun tail' => ?_⟩
    rw [List.append_assoc]
    exact .single hgap hvalue

/-! ### Whole tags -/

/-- The text reads as the rest of a tag, after a pending name and the attributes in `done`, newest
first. -/
inductive TagReads : Option (String × Span) → List Attribute → Nat → List Char → ReadTag → Prop
  | close {pending : Option (String × Span)} {done : List Attribute} {pos : Nat}
      {gap rest : List Char}
    (hgap : Blanks gap) :
    TagReads pending done pos (gap ++ (['>'] ++ rest))
      ⟨(flush pending done).reverse, false, pos + byteLength gap + byteLength ['>'], rest⟩
  | selfClose {pending : Option (String × Span)} {done : List Attribute} {pos : Nat}
      {gap rest : List Char}
    (hgap : Blanks gap) :
    TagReads pending done pos (gap ++ (['/', '>'] ++ rest))
      ⟨(flush pending done).reverse, true, pos + byteLength gap + byteLength ['/', '>'], rest⟩
  | slash {pending : Option (String × Span)} {done : List Attribute} {pos : Nat}
      {gap rest : List Char}
    {found : ReadTag} (hgap : Blanks gap) (hnext : rest.head? ≠ some '>')
    (hreads : TagReads pending done (pos + byteLength gap + byteLength ['/']) rest found) :
    TagReads pending done pos (gap ++ (['/'] ++ rest)) found
  | name {pending : Option (String × Span)} {done : List Attribute} {pos : Nat}
      {gap name rest : List Char}
    {found : ReadTag} (hgap : Blanks gap) (hne : name ≠ [])
    (hname : ∀ c ∈ name, isAttributeNameChar c = true) (hstop : Stops isAttributeNameChar rest)
    (hreads : TagReads
      (some (String.ofList name, ⟨pos + byteLength gap, pos + byteLength gap + byteLength name⟩))
      (flush pending done) (pos + byteLength gap + byteLength name) rest found) :
    TagReads pending done pos (gap ++ (name ++ rest)) found
  | value {name : String} {span : Span} {done : List Attribute} {pos : Nat} {gap rest : List Char}
    {value : ReadValue} {found : ReadTag} (hgap : Blanks gap)
    (hvalue : ReadsValue (pos + byteLength gap + byteLength ['=']) rest value)
    (hreads : TagReads none (⟨name, some value.value, value.quote, ⟨span.start, value.stop⟩⟩ ::
      done)
      value.stop value.rest found) :
    TagReads (some (name, span)) done pos (gap ++ (['='] ++ rest)) found

/-- A tag that does not end is an error. -/
theorem readAttributes_end {text : List Char} (h : lexTag text = none)
    (pending : Option (String × Span)) (done : List Attribute) (pos : Nat) :
    readAttributes pending done pos text =
      .error (.unexpectedEnd (pos + byteLength text) .tagEnd) := by
  rw [readAttributes.eq_def]
  split
  next => rfl
  next hsome => rw [h] at hsome; contradiction

/-- One step of `readAttributes`, for a part of a tag that was found. -/
theorem readAttributes_step {text : List Char} {lexeme : Lexeme TagFault TagPart}
    (h : lexTag text = some lexeme) (pending : Option (String × Span)) (done : List Attribute)
    (pos : Nat) :
    readAttributes pending done pos text =
      let start := pos + byteLength lexeme.gap
      let stop := start + byteLength lexeme.chars
      match lexeme.token with
      | .error _ => .error (refusedTag ⟨start, stop⟩ (lexeme.chars ++ lexeme.rest))
      | .ok .close => .ok ⟨(flush pending done).reverse, false, stop, lexeme.rest⟩
      | .ok .selfClose => .ok ⟨(flush pending done).reverse, true, stop, lexeme.rest⟩
      | .ok .slash => readAttributes pending done stop lexeme.rest
      | .ok (.name name) =>
        readAttributes (some (name, ⟨start, stop⟩)) (flush pending done) stop lexeme.rest
      | .ok .equals =>
        match pending with
        | none => .error (.unexpectedToken ⟨start, stop⟩ .attributeName .equals)
        | some (name, nameSpan) =>
          match readValue stop lexeme.rest with
          | .error error => .error error
          | .ok found =>
            readAttributes none
              (⟨name, some found.value, found.quote, ⟨nameSpan.start, found.stop⟩⟩ :: done)
              found.stop found.rest
      | .ok token => .error (.unexpectedToken ⟨start, stop⟩ .attributeName token) := by
  -- One turn of the loop: the token is the one that was found, so only its kind is left.
  rw [readAttributes.eq_def]
  split
  next hnone => rw [h] at hnone; contradiction
  next hsome =>
    obtain rfl := Option.some.inj (h.symm.trans hsome)
    dsimp only
    cases lexeme.token with
    | error fault => rfl
    | ok token =>
      cases token with
      -- Behind an equals sign a value is read, if a name is pending.
      | equals =>
        cases pending with
        | none => rfl
        | some pending =>
          dsimp only
          split
          next hvalue => rw [hvalue]
          next hvalue => rw [hvalue]
      | _ => rfl

/-- What reads as a tag is what `readAttributes` finds. -/
theorem readAttributes_of_tagReads {pending : Option (String × Span)} {done : List Attribute}
    {pos : Nat} {text : List Char} {found : ReadTag} (h : TagReads pending done pos text found) :
    readAttributes pending done pos text = .ok found := by
  induction h with
  | close hgap => rw [readAttributes_step (lexTag_of_lexesTag hgap .close)]
  | selfClose hgap => rw [readAttributes_step (lexTag_of_lexesTag hgap .selfClose)]
  | slash hgap hnext _ ih => rw [readAttributes_step (lexTag_of_lexesTag hgap (.slash hnext)), ← ih]
  | name hgap hne hname hstop _ ih =>
    rw [readAttributes_step (lexTag_of_lexesTag hgap (.name hne hname hstop)), ← ih]
  | value hgap hvalue _ ih =>
    rw [readAttributes_step (lexTag_of_lexesTag hgap .equals)]
    simp only [readValue_of_reads hvalue]
    exact ih

/-- What `readAttributes` finds reads as a tag. -/
theorem tagReads_of_readAttributes {pending : Option (String × Span)} {done : List Attribute}
    {pos : Nat} {text : List Char} {found : ReadTag}
    (h : readAttributes pending done pos text = .ok found) :
    TagReads pending done pos text found := by
  -- Along the run; each token that was found is one rule, and the other cases are errors.
  fun_induction readAttributes pending done pos text with
  | case1 | case2 | case7 | case8 | case10 => contradiction
  | case3 pending done pos text lexeme hlex _ _ _ htoken
  | case4 pending done pos text lexeme hlex _ _ _ htoken =>
    obtain rfl := Except.ok.inj h
    obtain ⟨hgap, hpart⟩ := lexesTag_of_lexTag hlex htoken
    rw [← lexTag_append hlex]
    obtain ⟨gap, chars, token, rest⟩ := lexeme
    cases hpart
    constructor
    exact hgap
  | case5 pending done pos text lexeme hlex _ _ _ htoken ih =>
    obtain ⟨hgap, hpart⟩ := lexesTag_of_lexTag hlex htoken
    rw [← lexTag_append hlex]
    have hreads := ih h
    obtain ⟨gap, chars, token, rest⟩ := lexeme
    cases hpart with
    | slash hnext => exact .slash hgap hnext hreads
  | case6 pending done pos text lexeme hlex _ _ _ name htoken ih =>
    obtain ⟨hgap, hpart⟩ := lexesTag_of_lexTag hlex htoken
    rw [← lexTag_append hlex]
    have hreads := ih h
    obtain ⟨gap, chars, token, rest⟩ := lexeme
    cases hpart with
    | name hne hname hstop => exact .name hgap hne hname hstop hreads
  | case9 done pos text lexeme hlex _ _ _ htoken name span value hvalue _ ih =>
    obtain ⟨hgap, hpart⟩ := lexesTag_of_lexTag hlex htoken
    rw [← lexTag_append hlex]
    have hreads := ih h
    have hread := reads_of_readValue hvalue
    obtain ⟨gap, chars, token, rest⟩ := lexeme
    cases hpart with
    | equals => exact .value hgap hread hreads

/-- **A tag ends with its `>`.** What is behind that sign has no say in how the tag is read. -/
theorem TagReads.exists_body {pending : Option (String × Span)} {done : List Attribute} {pos : Nat}
    {text : List Char} {found : ReadTag} (h : TagReads pending done pos text found) :
    ∃ body, text = body ++ '>' :: found.rest ∧
      found.stop = pos + byteLength body + byteLength ['>'] ∧
      ∀ rest, TagReads pending done pos (body ++ '>' :: rest) { found with rest } := by
  -- The last rule is `close` or `selfClose`; the others put what they read in front of the body.
  induction h with
  | @close pending done pos gap rest hgap =>
    exact ⟨gap, rfl, rfl, fun rest => .close hgap⟩
  | @selfClose pending done pos gap rest hgap =>
    refine ⟨gap ++ ['/'], by simp, by simp [Nat.add_assoc], fun rest => ?_⟩
    have hreads : TagReads pending done pos (gap ++ (['/', '>'] ++ rest)) _ := .selfClose hgap
    simpa using hreads
  | @slash pending done pos gap rest found hgap hnext _ ih =>
    obtain ⟨body, rfl, hstop, hbody⟩ := ih
    refine ⟨gap ++ (['/'] ++ body), by simp, by rw [hstop]; simp [Nat.add_assoc], fun rest => ?_⟩
    -- The slash is followed by the same character as before.
    have hnext' : (body ++ '>' :: rest).head? ≠ some '>' := by
      cases body with
      | nil => simp at hnext
      | cons c cs => simpa using hnext
    have hreads := TagReads.slash hgap hnext' (hbody rest)
    simpa using hreads
  | @name pending done pos gap name rest found hgap hne hname hstop _ ih =>
    obtain ⟨body, rfl, hend, hbody⟩ := ih
    refine ⟨gap ++ (name ++ body), by simp, by rw [hend]; simp [Nat.add_assoc], fun rest => ?_⟩
    -- The name is followed by the same character, or by `>`, which is in no name.
    have hstop' : Stops isAttributeNameChar (body ++ '>' :: rest) := by
      cases body with
      | nil => simp [Stops, isAttributeNameChar]
      | cons c cs => simpa [Stops] using hstop
    have hreads := TagReads.name hgap hne hname hstop' (hbody rest)
    simpa using hreads
  | @value name span done pos gap rest value found hgap hvalue _ ih =>
    obtain ⟨body, hrest, hend, hbody⟩ := ih
    obtain ⟨read, hread, hstop, hcut⟩ := hvalue.cut hrest
    refine ⟨gap ++ (['='] ++ (read ++ body)), by rw [hread, hrest]; simp, ?_, fun rest => ?_⟩
    · rw [hend, hstop]
      simp [Nat.add_assoc]
    · have hreads := TagReads.value hgap (hcut rest) (hbody rest)
      simpa using hreads

/-- A self-closing tag ends with `/>`. -/
theorem TagReads.exists_body_slash {pending : Option (String × Span)} {done : List Attribute}
    {pos : Nat} {text : List Char} {found : ReadTag} (h : TagReads pending done pos text found)
    (hselfClosing : found.selfClosing = true) :
    ∃ body, text = body ++ ['/', '>'] ++ found.rest ∧
      found.stop = pos + byteLength (body ++ ['/', '>']) := by
  -- Of the two rules that end a tag only one makes it self-closing.
  induction h with
  | close => contradiction
  | @selfClose pending done pos gap rest hgap => exact ⟨gap, by simp, by simp [Nat.add_assoc]⟩
  | @slash pending done pos gap rest found hgap hnext _ ih =>
    obtain ⟨body, rfl, hstop⟩ := ih hselfClosing
    exact ⟨gap ++ ['/'] ++ body, by simp, by simp [hstop, Nat.add_assoc]⟩
  | @name pending done pos gap name rest found hgap hne hname hstop _ ih =>
    obtain ⟨body, rfl, hend⟩ := ih hselfClosing
    exact ⟨gap ++ name ++ body, by simp, by simp [hend, Nat.add_assoc]⟩
  | @value name span done pos gap rest value found hgap hvalue _ ih =>
    obtain ⟨body, hrest, hend⟩ := ih hselfClosing
    obtain ⟨read, rfl, hstop⟩ := readValue_advances (readValue_of_reads hvalue)
    exact ⟨gap ++ ['='] ++ read ++ body, by simp [hrest], by simp [hend, hstop, Nat.add_assoc]⟩

/-! ### Closing tags -/

/-- The end of a closing tag is blanks and `>`. -/
theorem readTagEnd_of_blanks {pos : Nat} {gap rest : List Char} (hgap : Blanks gap) :
    readTagEnd pos (gap ++ '>' :: rest) = .ok (pos + byteLength gap + byteLength ['>'], rest) := by
  have hlex := lexTag_of_lexesTag hgap (LexesTag.close : LexesTag _ _ rest)
  rw [List.singleton_append] at hlex
  rw [readTagEnd, hlex]

/-- What reads as the end of a closing tag is blanks and `>`. -/
theorem blanks_of_readTagEnd {pos stop : Nat} {text rest : List Char}
    (h : readTagEnd pos text = .ok (stop, rest)) :
    ∃ gap, Blanks gap ∧ text = gap ++ '>' :: rest ∧
      stop = pos + byteLength gap + byteLength ['>'] := by
  unfold readTagEnd at h
  split at h
  · contradiction
  next lexeme hlex =>
    split at h
    · contradiction
    next htoken =>
      obtain ⟨rfl, rfl⟩ := Prod.mk.inj (Except.ok.inj h)
      obtain ⟨hgap, hpart⟩ := lexesTag_of_lexTag hlex htoken
      rw [← lexTag_append hlex]
      obtain ⟨gap, chars, token, rest⟩ := lexeme
      cases hpart
      exact ⟨gap, hgap, rfl, rfl⟩
    · contradiction

end Triptych.Markup
