import Mathlib.Data.List.Basic
import Triptych.Lint.Important
import Triptych.Proofs.Text.Search

/-!
# Important declarations, one for each segment

The rule looks for a name, a colon and a mark by reading from left to right, and goes on where it
stopped. What it finds can be said without such a reading: semicolons cut the value of the attribute
into segments, each segment is important or not, and each important one has one property
(`Declares`). The findings are those properties, in order (`checkElement_style`).

Two facts make the reading a matter of segments. Neither the name nor the mark holds a semicolon, so
no finding goes across one (`declaration?_append`). And the reader takes the *last* mark before the
semicolon, so the rest of a segment in which it found something holds no mark, and nothing else is
found there (`importantNames_append`).
-/

namespace Triptych.Lint.Important

open Text Markup

/-! ### What is important -/

/-- The text starts with an important mark, and `rest` stands behind it. -/
def Mark (text rest : List Char) : Prop :=
  ∃ blanks, (∀ c ∈ blanks, isBlank c = true) ∧
    text = '!' :: (blanks ++ ("important".toList ++ rest))

/-- There is an important mark somewhere in the text. -/
def HoldsMark (text : List Char) : Prop :=
  ∃ before marked rest, text = before ++ marked ∧ Mark marked rest

/-- **A named colon** of a segment: `before` is followed by a run of characters of property names,
which is not empty, by blanks or none, and by the colon; `value` is everything behind the colon. -/
structure NamedColon (segment before name value : List Char) : Prop where
  name_ne_nil : name ≠ []
  name_chars : ∀ c ∈ name, isPropertyChar c = true
  cut : ∃ blanks, (∀ c ∈ blanks, isBlank c = true) ∧
    segment = before ++ (name ++ (blanks ++ ':' :: value))

/-- The segment is an important declaration: a mark stands behind a named colon. -/
def Offends (segment : List Char) : Prop :=
  ∃ before name value, NamedColon segment before name value ∧ HoldsMark value

/-- **The property of an important declaration**: the longest run before the first of the named
colons that have a mark behind them. -/
def Declares (segment name : List Char) : Prop :=
  ∃ before value, NamedColon segment before name value ∧ HoldsMark value ∧
    Stops isPropertyChar before.reverse ∧
    ∀ before' name' value', NamedColon segment before' name' value' → HoldsMark value' →
      value' <:+ value

theorem Declares.offends {segment name : List Char} (h : Declares segment name) :
    Offends segment := by
  obtain ⟨before, value, hcolon, hmark, -⟩ := h
  exact ⟨before, name, value, hcolon, hmark⟩

theorem isPropertyChar_of_isBlank {c : Char} (h : isBlank c = true) : isPropertyChar c = false := by
  rw [isPropertyChar, isAsciiLetter_of_isBlank h, Bool.false_or, beq_eq_false_iff_ne]
  rintro rfl
  contradiction

/-- A mark at the end of a text is a mark of the text. -/
theorem HoldsMark.mono {text longer : List Char} (h : HoldsMark text) (hend : text <:+ longer) :
    HoldsMark longer := by
  obtain ⟨before, rfl⟩ := hend
  obtain ⟨start, marked, rest, rfl, hmark⟩ := h
  exact ⟨before ++ start, marked, rest, by simp, hmark⟩

theorem holdsMark_cons {c : Char} {text : List Char} :
    HoldsMark (c :: text) ↔ (∃ rest, Mark (c :: text) rest) ∨ HoldsMark text := by
  constructor
  · rintro ⟨before, marked, rest, htext, hmark⟩
    cases before with
    | nil =>
      rw [List.nil_append] at htext
      exact .inl ⟨rest, htext ▸ hmark⟩
    | cons d before =>
      obtain ⟨rfl, rfl⟩ := List.cons.inj htext
      exact .inr ⟨before, marked, rest, rfl, hmark⟩
  · rintro (⟨rest, hmark⟩ | hmark)
    · exact ⟨[], c :: text, rest, rfl, hmark⟩
    · exact hmark.mono (List.suffix_cons c text)

theorem NamedColon.suffix {segment before name value : List Char}
    (h : NamedColon segment before name value) :
    value <:+ segment := by
  obtain ⟨blanks, -, hcut⟩ := h.cut
  exact ⟨before ++ name ++ blanks ++ [':'], by simp [hcut]⟩

/-- Nothing but the run and the blanks stands before the colon of a name that a segment starts
with. -/
theorem NamedColon.value_suffix {segment name value before' name' value' : List Char}
    (h : NamedColon segment [] name value) (h' : NamedColon segment before' name' value') :
    value' <:+ value := by
  obtain ⟨blanks, hblanks, hcut⟩ := h.cut
  obtain ⟨blanks', -, hcut'⟩ := h'.cut
  have hbehind : segment = (name ++ blanks) ++ ':' :: value := by simp [hcut]
  have hbehind' : segment = (before' ++ name' ++ blanks') ++ ':' :: value' := by simp [hcut']
  rw [hbehind] at hbehind'
  -- The same segment is cut at both colons, so one of the cuts is further on.
  rcases List.append_eq_append_iff.1 hbehind' with ⟨more, -, hmore⟩ | ⟨more, hmore, hvalue⟩
  · cases more with
    | nil => exact (List.cons.inj hmore).2 ▸ List.suffix_refl _
    | cons d more => exact ⟨more ++ [':'], by simp [(List.cons.inj hmore).2]⟩
  · cases more with
    | nil => exact (List.cons.inj hvalue).2 ▸ List.suffix_refl _
    | cons d more =>
      -- The other colon would stand in the name or in the blanks.
      obtain ⟨rfl, -⟩ := List.cons.inj hvalue
      have hmem : ':' ∈ name ++ blanks := by simp [hmore]
      rcases List.mem_append.1 hmem with hmem | hmem
      · exact absurd (h.name_chars _ hmem) (by decide)
      · exact absurd (hblanks _ hmem) (by decide)

/-- Backwards from a named colon stand blanks, then the name. -/
theorem NamedColon.name_eq {segment before name value : List Char}
    (h : NamedColon segment before name value) (hstops : Stops isPropertyChar before.reverse) :
    ∃ lead, segment = lead ++ ':' :: value ∧
      (lead.reverse.dropWhile isBlank).takeWhile isPropertyChar = name.reverse := by
  obtain ⟨blanks, hblanks, hcut⟩ := h.cut
  refine ⟨before ++ name ++ blanks, by simp [hcut], ?_⟩
  have hname : Stops isBlank (name.reverse ++ before.reverse) := by
    obtain ⟨c, tail, hreverse⟩ :=
      List.exists_cons_of_ne_nil (List.reverse_ne_nil_iff.2 h.name_ne_nil)
    have hc : isPropertyChar c = true :=
      h.name_chars c (List.mem_reverse.1 (hreverse ▸ List.mem_cons_self))
    rw [hreverse]
    refine stops_cons (Bool.eq_false_iff.2 fun hblank => ?_) _
    rw [isPropertyChar_of_isBlank hblank] at hc
    contradiction
  rw [List.reverse_append, List.reverse_append, dropWhile_append_of_stops
    (by simpa using hblanks) hname, takeWhile_append_of_stops (by simpa using h.name_chars) hstops]

/-- **An important declaration has one property.** -/
theorem Declares.unique {segment name name' : List Char} (h : Declares segment name)
    (h' : Declares segment name') :
    name = name' := by
  obtain ⟨before, value, hcolon, hmark, hstops, hfirst⟩ := h
  obtain ⟨before', value', hcolon', hmark', hstops', hfirst'⟩ := h'
  -- Each colon is the first, so the two are one, and what stands before it tells the name.
  obtain rfl : value = value' :=
    (hfirst' _ _ _ hcolon hmark).eq_of_length_le (hfirst _ _ _ hcolon' hmark').length_le
  obtain ⟨lead, hlead, hname⟩ := hcolon.name_eq hstops
  obtain ⟨lead', hlead', hname'⟩ := hcolon'.name_eq hstops'
  obtain rfl : lead = lead' := List.append_cancel_right (hlead.symm.trans hlead')
  exact List.reverse_inj.1 (hname.symm.trans hname')

/-! ### One reading -/

/-- The reader finds the marks that there are. -/
theorem afterMark?_eq_some_iff {text rest : List Char} :
    afterMark? text = some rest ↔ Mark text rest := by
  constructor
  · intro h
    unfold afterMark? at h
    split at h
    next text =>
      dsimp only at h
      split at h
      next himportant =>
        obtain rfl := Option.some.inj h
        obtain ⟨tail, htail⟩ := List.isPrefixOf_iff_prefix.1 himportant
        -- The blanks between the two parts of the mark are those that are trimmed.
        refine ⟨text.takeWhile isBlank, fun c hc => of_mem_takeWhile hc, ?_⟩
        have hrest : (trimStart text).drop 9 = tail := by
          rw [← htail]
          rfl
        rw [hrest, htail, trimStart, List.takeWhile_append_dropWhile]
      next => contradiction
    next => contradiction
  · rintro ⟨blanks, hblanks, rfl⟩
    -- The blanks end where the word starts, so trimming takes all of them and no more.
    have hword : Stops isBlank ("important".toList ++ rest) := stops_cons (by decide) _
    have hprefix : "important".toList.isPrefixOf ("important".toList ++ rest) = true :=
      List.isPrefixOf_iff_prefix.2 (List.prefix_append _ _)
    rw [afterMark?, trimStart, dropWhile_append_of_stops hblanks hword]
    exact if_pos hprefix

theorem exists_mark_iff {text : List Char} : (∃ rest, Mark text rest) ↔ afterMark? text ≠ none := by
  rw [Option.ne_none_iff_exists']
  exact exists_congr fun rest => afterMark?_eq_some_iff.symm

/-- The reader finds the named colons that there are. -/
theorem declaration?_eq_some_iff {text name rest : List Char} :
    declaration? text = some (name, rest) ↔
      ∃ value, NamedColon text [] name value ∧ afterLastMark? value = some rest := by
  constructor
  · intro h
    simp only [declaration?] at h
    split at h
    next => contradiction
    next hname =>
      split at h
      next value hvalue =>
        obtain ⟨rest', hrest, heq⟩ := Option.map_eq_some_iff.1 h
        obtain ⟨rfl, rfl⟩ := Prod.mk.inj heq
        refine ⟨value, ⟨by simpa using hname, fun c hc => of_mem_takeWhile hc, ?_⟩, hrest⟩
        refine ⟨(text.dropWhile isPropertyChar).takeWhile isBlank, fun c hc => of_mem_takeWhile hc,
          ?_⟩
        rw [← hvalue, trimStart, List.takeWhile_append_dropWhile, List.nil_append,
          List.takeWhile_append_dropWhile]
      next => contradiction
  · rintro ⟨value, ⟨hne, hname, blanks, hblanks, rfl⟩, hrest⟩
    -- The blanks end the name, and the colon ends the blanks.
    have hcolon : Stops isBlank (':' :: value) := stops_cons (by decide) _
    have hbehind : Stops isPropertyChar (blanks ++ ':' :: value) := by
      cases blanks with
      | nil => exact stops_cons (by decide) _
      | cons c blanks =>
        exact stops_cons (isPropertyChar_of_isBlank (hblanks c List.mem_cons_self)) _
    have hempty : name.isEmpty = false := by simpa using hne
    simp only [declaration?, List.nil_append, takeWhile_append_of_stops hname hbehind,
      dropWhile_append_of_stops hname hbehind, hempty, trimStart,
      dropWhile_append_of_stops hblanks hcolon, hrest]
    rfl

/-! ### Segments -/

/-- The text is what can follow a segment: nothing, or a semicolon and more. -/
abbrev EndsSegment (more : List Char) : Prop :=
  Stops (· != ';') more

section Segments

variable {segment more : List Char}

/-- What holds no semicolon is in the segment if it stands where the segment starts. -/
theorem exists_eq_append_of_endsSegment {start rest : List Char} (hmore : EndsSegment more)
    (hstart : ';' ∉ start) (h : segment ++ more = start ++ rest) :
    ∃ left, segment = start ++ left ∧ rest = left ++ more := by
  have hprefix : start <+: segment :=
    prefix_of_stops (h ▸ List.prefix_append start rest)
      (fun c hc => bne_iff_ne.2 (ne_of_mem_of_not_mem hc hstart)) hmore
  obtain ⟨left, rfl⟩ := hprefix
  rw [List.append_assoc] at h
  exact ⟨left, rfl, (List.append_cancel_left h).symm⟩

theorem not_mem_of_isBlank {blanks : List Char} (h : ∀ c ∈ blanks, isBlank c = true) :
    ';' ∉ blanks := fun hmem =>
  absurd (h _ hmem) (by decide)

/-- A mark at the start of a segment is in the segment. -/
theorem afterMark?_append (hmore : EndsSegment more) :
    afterMark? (segment ++ more) = (afterMark? segment).map (· ++ more) := by
  apply Option.ext
  intro rest
  rw [Option.map_eq_some_iff, afterMark?_eq_some_iff]
  simp only [afterMark?_eq_some_iff]
  constructor
  · rintro ⟨blanks, hblanks, htext⟩
    -- No character of the mark is a semicolon, so all of it is in the segment.
    have hstart : ';' ∉ '!' :: (blanks ++ "important".toList) := by
      simp [not_mem_of_isBlank hblanks]
    have hcut : segment ++ more = '!' :: (blanks ++ "important".toList) ++ rest :=
      htext.trans (by simp)
    obtain ⟨left, rfl, rfl⟩ := exists_eq_append_of_endsSegment hmore hstart hcut
    exact ⟨left, ⟨blanks, hblanks, by simp⟩, rfl⟩
  · rintro ⟨left, ⟨blanks, hblanks, rfl⟩, rfl⟩
    exact ⟨blanks, hblanks, by simp⟩

/-- The last mark before the next semicolon is that of the segment. -/
theorem afterLastMark?_append (hmore : EndsSegment more) (hsegment : ';' ∉ segment) :
    afterLastMark? (segment ++ more) = (afterLastMark? segment).map (· ++ more) := by
  induction segment with
  | nil =>
    cases more with
    | nil => rfl
    | cons c more =>
      have hc : c = ';' := by simpa using hmore c rfl
      simp [afterLastMark?, hc]
  | cons c segment ih =>
    rw [List.mem_cons, not_or] at hsegment
    -- A mark further on comes first; without one the mark here is the last.
    have hmark : afterMark? (c :: segment ++ more) = _ := afterMark?_append hmore
    rw [List.cons_append] at hmark ⊢
    rw [afterLastMark?, afterLastMark?, if_neg (Ne.symm hsegment.1), if_neg (Ne.symm hsegment.1),
      ih hsegment.2, hmark]
    cases afterLastMark? segment <;> rfl

/-- A segment has a last mark if it has one. -/
theorem afterLastMark?_eq_none_iff (hsegment : ';' ∉ segment) :
    afterLastMark? segment = none ↔ ¬ HoldsMark segment := by
  induction segment with
  | nil => simp [afterLastMark?, HoldsMark, Mark]
  | cons c segment ih =>
    rw [List.mem_cons, not_or] at hsegment
    rw [holdsMark_cons, exists_mark_iff, not_or, Classical.not_not, ← ih hsegment.2, afterLastMark?,
      if_neg (Ne.symm hsegment.1)]
    cases afterLastMark? segment <;> simp

/-- Behind the last mark is none. -/
theorem not_holdsMark_of_afterLastMark? {rest : List Char} (hsegment : ';' ∉ segment)
    (h : afterLastMark? segment = some rest) : ';' ∉ rest ∧ ¬ HoldsMark rest := by
  induction segment with
  | nil => contradiction
  | cons c segment ih =>
    rw [List.mem_cons, not_or] at hsegment
    rw [afterLastMark?, if_neg (Ne.symm hsegment.1)] at h
    split at h
    next rest' hlast =>
      obtain rfl := Option.some.inj h
      exact ih hsegment.2 hlast
    next hlast =>
      -- The mark starts here, so `rest` is an end of what is behind `c`, where there is no mark.
      obtain ⟨blanks, -, htext⟩ := afterMark?_eq_some_iff.1 h
      have hend : segment = blanks ++ "important".toList ++ rest := by
        simpa using (List.cons.inj htext).2
      rw [afterLastMark?_eq_none_iff hsegment.2, hend] at hlast
      rw [hend] at hsegment
      exact ⟨fun hmem => hsegment.2 (List.mem_append_right _ hmem),
        fun hmark => hlast (hmark.mono (List.suffix_append _ _))⟩

/-- **A declaration that starts in a segment is found there, whatever comes behind the segment.** -/
theorem declaration?_append (hmore : EndsSegment more) (hsegment : ';' ∉ segment) :
    declaration? (segment ++ more) = (declaration? segment).map fun found =>
      (found.1, found.2 ++ more) := by
  apply Option.ext
  rintro ⟨name, rest⟩
  rw [Option.map_eq_some_iff, declaration?_eq_some_iff]
  constructor
  · rintro ⟨value, ⟨hne, hname, blanks, hblanks, htext⟩, hrest⟩
    -- The name, the blanks and the colon are in the segment, and the value starts there.
    have hstart : ';' ∉ name ++ (blanks ++ [':']) := by
      simp only [List.mem_append, List.mem_singleton, not_or]
      exact ⟨fun hmem => absurd (hname _ hmem) (by decide), not_mem_of_isBlank hblanks, by decide⟩
    have hcut : segment ++ more = name ++ (blanks ++ [':']) ++ value := htext.trans (by simp)
    obtain ⟨left, rfl, rfl⟩ := exists_eq_append_of_endsSegment hmore hstart hcut
    have hleft : ';' ∉ left := fun hmem => hsegment (List.mem_append_right _ hmem)
    rw [afterLastMark?_append hmore hleft, Option.map_eq_some_iff] at hrest
    obtain ⟨rest, hrest, rfl⟩ := hrest
    exact ⟨(name, rest), declaration?_eq_some_iff.2 ⟨left, ⟨hne, hname, blanks, hblanks, by simp⟩,
      hrest⟩, rfl⟩
  · rintro ⟨⟨name', rest'⟩, hfound, heq⟩
    obtain ⟨rfl, rfl⟩ := Prod.mk.inj heq
    obtain ⟨value, ⟨hne, hname, blanks, hblanks, rfl⟩, hrest⟩ := declaration?_eq_some_iff.1 hfound
    have hvalue : ';' ∉ value := fun hmem => hsegment (by simp [hmem])
    refine ⟨value ++ more, ⟨hne, hname, blanks, hblanks, by simp⟩, ?_⟩
    rw [afterLastMark?_append hmore hvalue, hrest]
    rfl

/-- A declaration has a mark in its segment. -/
theorem holdsMark_of_declaration? {found : List Char × List Char} (hsegment : ';' ∉ segment)
    (h : declaration? segment = some found) :
    ∃ value, NamedColon segment [] found.1 value ∧ HoldsMark value ∧ ';' ∉ found.2 ∧
      ¬ HoldsMark found.2 := by
  obtain ⟨value, hcolon, hlast⟩ := declaration?_eq_some_iff.1 h
  have hvalue : ';' ∉ value := fun hmem => hsegment (hcolon.suffix.mem hmem)
  refine ⟨value, hcolon, ?_, not_holdsMark_of_afterLastMark? hvalue hlast⟩
  refine Classical.byContradiction fun hmark => ?_
  rw [(afterLastMark?_eq_none_iff hvalue).2 hmark] at hlast
  contradiction

/-- Where a name, a colon and a mark are, a declaration is found. -/
theorem declaration?_ne_none {name value : List Char} (hsegment : ';' ∉ segment)
    (hcolon : NamedColon segment [] name value) (hmark : HoldsMark value) :
    declaration? segment ≠ none := by
  have hvalue : ';' ∉ value := fun hmem => hsegment (hcolon.suffix.mem hmem)
  obtain ⟨rest, hrest⟩ := Option.ne_none_iff_exists'.1 fun hlast =>
    (afterLastMark?_eq_none_iff hvalue).1 hlast hmark
  rw [declaration?_eq_some_iff.2 ⟨value, hcolon, hrest⟩]
  simp

end Segments

/-! ### What is found in a segment -/

/-- The name in the first declaration that starts in the segment. -/
def declared? : List Char → Option (List Char)
  | [] => none
  | c :: segment => ((declaration? (c :: segment)).map Prod.fst).or (declared? segment)

theorem declared?_of_some {c : Char} {segment : List Char} {found : List Char × List Char}
    (h : declaration? (c :: segment) = some found) : declared? (c :: segment) = some found.1 := by
  rw [declared?, h]
  rfl

theorem declared?_of_none {c : Char} {segment : List Char}
    (h : declaration? (c :: segment) = none) :
    declared? (c :: segment) = declared? segment := by
  rw [declared?, h]
  rfl

/-- A named colon stands behind a character of the segment unless the name starts there. -/
theorem NamedColon.cons_cases {c : Char} {segment before name value : List Char}
    (h : NamedColon (c :: segment) before name value) :
    NamedColon (c :: segment) [] name value ∨ ∃ before', before = c :: before' ∧
      NamedColon segment before' name value := by
  cases before with
  | nil => exact .inl h
  | cons d before =>
    obtain ⟨hne, hname, blanks, hblanks, hcut⟩ := h
    obtain ⟨rfl, hrest⟩ := List.cons.inj hcut
    exact .inr ⟨before, rfl, ⟨hne, hname, blanks, hblanks, hrest⟩⟩

/-- **A segment declares what it declares behind its first character** if no declaration starts at
that character. -/
theorem Declares.cons {c : Char} {segment name : List Char} (h : Declares segment name)
    (hhere : ∀ name value, NamedColon (c :: segment) [] name value → ¬ HoldsMark value) :
    Declares (c :: segment) name := by
  obtain ⟨before, value, ⟨hne, hname, blanks, hblanks, hcut⟩, hmark, hstops, hfirst⟩ := h
  refine ⟨c :: before, value, ⟨hne, hname, blanks, hblanks, by simp [hcut]⟩, hmark, ?_, ?_⟩
  · cases before with
    | nil =>
      -- A name that goes on to the left would be found here already.
      refine stops_cons (Bool.eq_false_iff.2 fun hc => ?_) _
      have hlonger : NamedColon (c :: segment) [] (c :: name) value :=
        ⟨List.cons_ne_nil c name, List.forall_mem_cons.2 ⟨hc, hname⟩, blanks,
          hblanks, by simp [hcut]⟩
      exact hhere _ _ hlonger hmark
    | cons d before =>
      obtain ⟨e, tail, hreverse⟩ :=
        List.exists_cons_of_ne_nil (List.reverse_ne_nil_iff.2 (List.cons_ne_nil d before))
      rw [hreverse] at hstops
      rw [List.reverse_cons, hreverse]
      exact stops_cons (hstops e rfl) _
  · intro before' name' value' hcolon hmark'
    rcases hcolon.cons_cases with hcolon | ⟨before', -, hcolon⟩
    · exact absurd hmark' (hhere _ _ hcolon)
    · exact hfirst _ _ _ hcolon hmark'

/-- **What is found in a segment is what it declares.** -/
theorem declares_of_declared? {segment name : List Char} (hsegment : ';' ∉ segment)
    (h : declared? segment = some name) :
    Declares segment name := by
  induction segment with
  | nil => contradiction
  | cons c segment ih =>
    cases hfound : declaration? (c :: segment) with
    | some found =>
      rw [declared?_of_some hfound] at h
      obtain rfl := Option.some.inj h
      -- No declaration starts before one that starts at the front.
      obtain ⟨value, hcolon, hmark, -⟩ := holdsMark_of_declaration? hsegment hfound
      refine ⟨[], value, hcolon, hmark, by simp [Stops], ?_⟩
      intro _ _ _ hcolon' _
      exact hcolon.value_suffix hcolon'
    | none =>
      rw [declared?_of_none hfound] at h
      -- No declaration starts here, so what the rest declares is what is declared.
      refine (ih (fun hmem => hsegment (List.mem_cons_of_mem _ hmem)) h).cons ?_
      intro name value hcolon hmark
      exact declaration?_ne_none hsegment hcolon hmark hfound

/-- **In every important segment a declaration is found.** -/
theorem declared?_ne_none {segment : List Char} (hsegment : ';' ∉ segment) (h : Offends segment) :
    declared? segment ≠ none := by
  obtain ⟨before, name, value, hcolon, hmark⟩ := h
  induction segment generalizing before with
  | nil =>
    obtain ⟨blanks, -, hcut⟩ := hcolon.cut
    simp at hcut
  | cons c segment ih =>
    cases hfound : declaration? (c :: segment) with
    | some found => simp [declared?_of_some hfound]
    | none =>
      rw [declared?_of_none hfound]
      rcases hcolon.cons_cases with hcolon | ⟨before', -, hcolon⟩
      · exact absurd hfound (declaration?_ne_none hsegment hcolon hmark)
      · exact ih (fun hmem => hsegment (List.mem_cons_of_mem _ hmem)) before' hcolon

theorem declared?_eq_some_iff {segment name : List Char} (hsegment : ';' ∉ segment) :
    declared? segment = some name ↔ Declares segment name := by
  refine ⟨declares_of_declared? hsegment, fun h => ?_⟩
  obtain ⟨name', hname'⟩ := Option.ne_none_iff_exists'.1 (declared?_ne_none hsegment h.offends)
  rw [hname', (declares_of_declared? hsegment hname').unique h]

theorem declared?_eq_none_iff {segment : List Char} (hsegment : ';' ∉ segment) :
    declared? segment = none ↔ ¬ Offends segment := by
  refine ⟨fun hnone h => declared?_ne_none hsegment h hnone, fun h => ?_⟩
  refine Decidable.byContradiction fun hne => ?_
  obtain ⟨name, hname⟩ := Option.ne_none_iff_exists'.1 hne
  exact h (declares_of_declared? hsegment hname).offends

/-! ### The whole value -/

theorem importantNames_of_some {c : Char} {text name rest : List Char}
    (h : declaration? (c :: text) = some (name, rest)) :
    importantNames (c :: text) = name :: importantNames rest := by
  rw [importantNames]
  split
  next name' rest' hfound =>
    obtain ⟨rfl, rfl⟩ := Prod.mk.inj (Option.some.inj (hfound.symm.trans h))
    rfl
  next hfound =>
    rw [h] at hfound
    contradiction

theorem importantNames_of_none {c : Char} {text : List Char} (h : declaration? (c :: text) = none) :
    importantNames (c :: text) = importantNames text := by
  rw [importantNames]
  split
  next hfound =>
    rw [h] at hfound
    contradiction
  next => rfl

/-- No declaration starts with a semicolon. -/
theorem importantNames_semicolon (text : List Char) :
    importantNames (';' :: text) = importantNames text :=
  importantNames_of_none rfl

/-- Where no mark is, nothing is found. -/
theorem importantNames_of_not_holdsMark {segment more : List Char} (hsegment : ';' ∉ segment)
    (hmore : EndsSegment more) (h : ¬ HoldsMark segment) :
    importantNames (segment ++ more) = importantNames more := by
  induction segment with
  | nil => rfl
  | cons c segment ih =>
    have hnone : declaration? (c :: segment) = none := by
      refine Decidable.byContradiction fun hne => h ?_
      obtain ⟨found, hfound⟩ := Option.ne_none_iff_exists'.1 hne
      obtain ⟨value, hcolon, hmark, -⟩ := holdsMark_of_declaration? hsegment hfound
      exact hmark.mono hcolon.suffix
    have hfound := declaration?_append hmore hsegment
    rw [hnone, Option.map_none, List.cons_append] at hfound
    rw [List.cons_append, importantNames_of_none hfound]
    exact ih (fun hmem => hsegment (List.mem_cons_of_mem _ hmem)) fun hmark =>
      h (hmark.mono (List.suffix_cons c segment))

/-- **One finding at most is made in a segment**, and then come those behind it. -/
theorem importantNames_append {segment more : List Char} (hsegment : ';' ∉ segment)
    (hmore : EndsSegment more) :
    importantNames (segment ++ more) = (declared? segment).toList ++ importantNames more := by
  induction segment with
  | nil => exact (List.nil_append _).symm
  | cons c segment ih =>
    have hfound := declaration?_append hmore hsegment
    rw [List.cons_append] at hfound
    cases hhere : declaration? (c :: segment) with
    | some found =>
      rw [hhere, Option.map_some] at hfound
      -- The reader goes on behind the last mark, and the rest of the segment has nothing for it.
      obtain ⟨value, -, -, hrest, hnone⟩ := holdsMark_of_declaration? hsegment hhere
      rw [List.cons_append, importantNames_of_some hfound, declared?_of_some hhere,
        importantNames_of_not_holdsMark hrest hmore hnone]
      rfl
    | none =>
      rw [hhere, Option.map_none] at hfound
      rw [List.cons_append, importantNames_of_none hfound, declared?_of_none hhere]
      exact ih fun hmem => hsegment (List.mem_cons_of_mem _ hmem)

/-- A text is its first segment, or that segment, a semicolon and more. -/
theorem exists_segment (text : List Char) :
    ∃ segment, ';' ∉ segment ∧ (text = segment ∨ ∃ more, text = segment ++ ';' :: more) := by
  have hcut : text.takeWhile (· != ';') ++ text.dropWhile (· != ';') = text :=
    List.takeWhile_append_dropWhile
  have hstops := stops_dropWhile (p := (· != ';')) text
  refine ⟨text.takeWhile (· != ';'), fun hmem => absurd (of_mem_takeWhile hmem) (by decide), ?_⟩
  cases hrest : text.dropWhile (· != ';') with
  | nil => exact .inl (by simpa [hrest] using hcut.symm)
  | cons c more =>
    obtain rfl : c = ';' := by simpa using hstops c (by rw [hrest]; rfl)
    exact .inr ⟨more, by rw [← hrest, hcut]⟩

/-- **The findings are those of the segments**, and no segment holds a semicolon. -/
theorem importantNames_eq (text : List Char) :
    (∀ segment ∈ text.splitOn ';', ';' ∉ segment) ∧
      importantNames text = (text.splitOn ';').filterMap declared? := by
  induction hlength : text.length using Nat.strongRecOn generalizing text with
  | ind n ih =>
    subst hlength
    -- One segment is read, and the rest of the text is shorter by that segment and its semicolon.
    obtain ⟨segment, hsegment, rfl | ⟨more, rfl⟩⟩ := exists_segment text
    · have hnames : importantNames (text ++ []) = (declared? text).toList ++ importantNames [] :=
        importantNames_append hsegment (by simp [Stops])
      rw [List.append_nil, importantNames, List.append_nil] at hnames
      rw [List.splitOn_eq_singleton hsegment, hnames, List.filterMap_cons]
      refine ⟨by simpa using hsegment, ?_⟩
      cases declared? text <;> rfl
    · obtain ⟨hmore, hnames⟩ := ih more.length (by simp; omega) more rfl
      rw [List.splitOn_append_cons_self_of_not_mem hsegment, List.forall_mem_cons,
        List.filterMap_cons, importantNames_append hsegment (stops_cons (by decide) _),
        importantNames_semicolon, hnames]
      refine ⟨⟨hsegment, hmore⟩, ?_⟩
      cases declared? segment <;> rfl

/-! ### The statement -/

/-- **Each important declaration is reported once.** Let `attr` be the first attribute of the
element that is named `style`, up to case, and `style` its value. Cut at its semicolons, the value
falls into segments. A segment that has a mark behind a named colon makes one finding, about the
property that it declares, and the other segments make none; the findings come in the order of the
segments. -/
theorem checkElement_style {element : Element} {before after : List Attribute} {attr : Attribute}
    {style : String} (hattributes : element.tag.attributes = before ++ attr :: after)
    (hbefore : ∀ other ∈ before, equalsIgnoringCase other.name.toList "style".toList = false)
    (hname : equalsIgnoringCase attr.name.toList "style".toList = true)
    (hvalue : attr.value = some style) :
    ∃ property : List Char → Option (List Char),
      (∀ segment ∈ style.toList.splitOn ';',
        (∀ name, property segment = some name ↔ Declares segment name) ∧
        (property segment = none ↔ ¬ Offends segment)) ∧
      rule.checkElement element = ((style.toList.splitOn ';').filterMap property).map
        (finding element.span) := by
  have hfirst : element.tag.attribute? "style" = some attr := by
    refine List.find?_eq_some_iff_append.2 ⟨hname, before, after, hattributes, ?_⟩
    intro other hother
    rw [hbefore other hother, Bool.not_false]
  obtain ⟨hsegments, hnames⟩ := importantNames_eq style.toList
  refine ⟨declared?, ?_, ?_⟩
  · intro segment hmem
    have hsegment := hsegments segment hmem
    exact ⟨fun name => declared?_eq_some_iff hsegment, declared?_eq_none_iff hsegment⟩
  · simp only [rule, hfirst, Option.bind_some, hvalue, hnames]

/-- A paragraph with one important declaration between others, and a second `style` that does not
count. -/
def paragraph : Element where
  tag := {
    name := "p"
    attributes := [
      ⟨"class", some "a:b!important", .double, ⟨3, 24⟩⟩,
      ⟨"STYLE", some "margin:0; a b -Color : red! important!important c:d;top:0", .double,
        ⟨25, 90⟩⟩,
      ⟨"style", some "left:0!important", .double, ⟨91, 115⟩⟩]
    selfClosing := false }
  children := []
  span := ⟨0, 120⟩

/-- One finding for two marks in one segment. The class attribute is not looked at, and the segments
without a mark give none. -/
theorem checkElement_style_paragraph :
    rule.checkElement paragraph = [finding ⟨0, 120⟩ "-Color".toList] := by
  obtain ⟨property, hproperty, hcheck⟩ :=
    checkElement_style (show paragraph.tag.attributes = [_] ++ _ :: [_] from rfl) (by decide)
      (by decide) rfl
  -- What the segments declare can be computed.
  have hsame :
    ∀ segment ∈ "margin:0; a b -Color : red! important!important c:d;top:0".toList.splitOn ';',
      property segment = declared? segment := by
    intro segment hsegment
    apply Option.ext
    intro name
    rw [(hproperty segment hsegment).1 name, declared?_eq_some_iff
      ((importantNames_eq _).1 segment hsegment)]
  rw [hcheck, List.filterMap_congr hsame]
  decide

end Triptych.Lint.Important
