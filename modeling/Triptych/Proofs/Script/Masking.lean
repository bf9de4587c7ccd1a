import Triptych.Proofs.Script.Descent
import Triptych.Proofs.Script.Exporting

/-!
# What a mask keeps

A mask is made to be searched, and what is found there is an offset. So the mask has to keep
offsets: byte for byte it is the script, but for the literals, where each byte is a space. Both
halves are about the spans of the literals, which are read off the segments of the script
(`literals`):

* each of them starts and ends between two characters, none is empty, and each ends before the next
  one starts (`exists_segment_of_mem_literalSpans`, `pairwise_literalSpans`);
* what the mask holds at an offset is told by whether a span covers the offset
  (`getElem?_bytes_masked`), and a character that is not covered stands at the same offset of the
  script (`exists_of_masked_eq`).

The masker keeps no account of parentheses and square brackets, and of braces it only knows which of
them lead back into a template literal. Still the brackets that it leaves are nested if the checker
accepts the script. Those that are open, from the innermost outwards, are closed in this order by
the code that follows (`ClosesAll`): a piece of code does what the checker's stack says, and every
other piece, with the brace that leads back into a template literal, leaves both the open brackets
and the mask alone (`closesAll_react`).
-/

namespace Triptych.Text

/-! ### Bytes -/

/-- The bytes of a text in UTF-8. -/
def bytes (text : List Char) : List UInt8 :=
  text.flatMap String.utf8EncodeChar

theorem bytes_append (text more : List Char) : bytes (text ++ more) = bytes text ++ bytes more :=
  List.flatMap_append

theorem length_bytes (text : List Char) : (bytes text).length = byteLength text := by
  induction text with
  | nil => rfl
  | cons c text ih =>
    rw [bytes, List.flatMap_cons, List.length_append, String.length_utf8EncodeChar, byteLength_cons]
    exact congrArg (c.utf8Size + ·) ih

theorem bytes_spaces (count : Nat) :
    bytes (List.replicate count ' ') = List.replicate count 0x20 := by
  induction count with
  | zero => rfl
  | succ count ih =>
    rw [List.replicate_succ, List.replicate_succ, bytes, List.flatMap_cons]
    exact congrArg (0x20 :: ·) ih

end Triptych.Text

namespace Triptych.Script

open Text Code

/-! ### The spans of the literals -/

/-- The spans of the literals of a script. -/
def literals (source : List Char) : List Span :=
  literalSpans 0 (segments [] none source)

/-- True when the offset is in one of the spans. -/
def inSpans (spans : List Span) (offset : Nat) : Bool :=
  spans.any fun span => span.start ≤ offset && offset < span.stop

theorem inSpans_cons (span : Span) (spans : List Span) (offset : Nat) :
    inSpans (span :: spans) offset = true ↔
      (span.start ≤ offset ∧ offset < span.stop) ∨ inSpans spans offset = true := by
  simp [inSpans]

/-- **A span of a literal is that of a segment.** -/
theorem exists_segment_of_mem_literalSpans {segs : List Segment} {pos : Nat} {span : Span}
    (h : span ∈ literalSpans pos segs) :
    ∃ left segment right, segs = left ++ segment :: right ∧
      span.start = pos + byteLength (left.flatMap Segment.chars) ∧
      span.stop = span.start + byteLength segment.chars := by
  induction segs generalizing pos with
  | nil => contradiction
  | cons segment segs ih =>
    -- The segments behind the first one start where it ends.
    have hlater (hspan : span ∈ literalSpans (pos + byteLength segment.chars) segs) :
        ∃ left literal right, segment :: segs = left ++ literal :: right ∧
          span.start = pos + byteLength (left.flatMap Segment.chars) ∧
          span.stop = span.start + byteLength literal.chars := by
      obtain ⟨left, literal, right, rfl, hstart, hstop⟩ := ih hspan
      refine ⟨segment :: left, literal, right, rfl, ?_, hstop⟩
      rw [hstart, List.flatMap_cons, byteLength_append, Nat.add_assoc]
    simp only [literalSpans] at h
    split at h
    next =>
      rcases List.mem_cons.1 h with rfl | h
      · exact ⟨[], segment, segs, rfl, rfl, rfl⟩
      · exact hlater h
    next => exact hlater h

theorem le_start_of_mem_literalSpans {segs : List Segment} {pos : Nat} {span : Span}
    (h : span ∈ literalSpans pos segs) :
    pos ≤ span.start := by
  obtain ⟨left, segment, right, -, hstart, -⟩ := exists_segment_of_mem_literalSpans h
  omega

/-- **Each span ends before the next one starts.** -/
theorem pairwise_literalSpans (pos : Nat) (segs : List Segment) :
    (literalSpans pos segs).Pairwise fun span later => span.stop ≤ later.start := by
  induction segs generalizing pos with
  | nil => exact .nil
  | cons segment segs ih =>
    simp only [literalSpans]
    split
    next =>
      exact List.pairwise_cons.2 ⟨fun later hlater => le_start_of_mem_literalSpans hlater, ih _⟩
    next => exact ih _

/-- Before the segments no offset is covered. -/
theorem inSpans_of_lt {segs : List Segment} {pos offset : Nat} (h : offset < pos) :
    inSpans (literalSpans pos segs) offset = false := by
  rw [inSpans, List.any_eq_false]
  intro span hspan
  have hstart := le_start_of_mem_literalSpans hspan
  simp only [Bool.and_eq_true, decide_eq_true_eq, not_and]
  omega

/-- Behind the first segment an offset is covered by the spans of the others. -/
theorem inSpans_behind {segment : Segment} {segs : List Segment} {pos offset : Nat}
    (h : pos + byteLength segment.chars ≤ offset) :
    inSpans (literalSpans pos (segment :: segs)) offset =
      inSpans (literalSpans (pos + byteLength segment.chars) segs) offset := by
  simp only [literalSpans]
  split
  next =>
    rw [Bool.eq_iff_iff, inSpans_cons]
    refine or_iff_right ?_
    rintro ⟨-, hlt⟩
    exact Nat.not_lt_of_le h hlt
  next => rfl

/-- In the first segment an offset is covered exactly if the segment is a literal. -/
theorem inSpans_inside {segment : Segment} {segs : List Segment} {pos offset : Nat}
    (hle : pos ≤ offset) (hlt : offset < pos + byteLength segment.chars) :
    inSpans (literalSpans pos (segment :: segs)) offset = segment.isLiteral := by
  simp only [literalSpans]
  split
  next hliteral =>
    rw [hliteral, inSpans_cons]
    exact .inl ⟨hle, hlt⟩
  next hliteral =>
    rw [inSpans_of_lt hlt]
    exact (eq_false_of_ne_true hliteral).symm

theorem chars_ne_nil_of_mem_segments {braces : List Bool} {previous : Option Char}
    {text : List Char} {segment : Segment} (h : segment ∈ segments braces previous text) :
    segment.chars ≠ [] := by
  match text with
  | [] =>
    rw [segments_nil] at h
    contradiction
  | c :: text =>
    have hshorter := readPiece_rest_le (braces.head? == some true) previous c text
    rw [segments_cons, List.mem_cons] at h
    rcases h with rfl | h
    · intro hnil
      -- Otherwise the piece would take nothing from the text.
      have happend :=
        congrArg List.length (readPiece_append (braces.head? == some true) previous c text)
      rw [List.length_append, List.length_cons] at happend
      have hlength : (readPiece (braces.head? == some true) previous c text).chars.length = 0 :=
        congrArg _ hnil
      omega
    · exact chars_ne_nil_of_mem_segments h
termination_by text.length
decreasing_by simp only [List.length_cons]; omega

/-- The spans of the literals of a script cut pieces out of it, none of them empty. -/
theorem covers_of_mem_literals {source : List Char} {span : Span} (h : span ∈ literals source) :
    ∃ chars, chars ≠ [] ∧ Covers source span chars := by
  obtain ⟨left, segment, right, hsegments, hstart, hstop⟩ := exists_segment_of_mem_literalSpans h
  have hsource := flatMap_chars_segments [] none source
  rw [hsegments, List.flatMap_append, List.flatMap_cons] at hsource
  rw [Nat.zero_add] at hstart
  have hmem : segment ∈ segments [] none source := by
    rw [hsegments]
    exact List.mem_append_right _ List.mem_cons_self
  exact ⟨segment.chars, chars_ne_nil_of_mem_segments hmem, _, _, hsource.symm,
    hstart, by rw [hstop, hstart]⟩

/-! ### The mask, offset by offset -/

/-- **The bytes of a mask**: spaces in the spans of the literals, and everywhere else those of the
script. -/
theorem getElem?_bytes_masked (pos offset : Nat) (segs : List Segment) :
    (bytes (segs.flatMap Segment.masked))[offset]? =
      if inSpans (literalSpans pos segs) (pos + offset) then some 0x20
      else (bytes (segs.flatMap Segment.chars))[offset]? := by
  induction segs generalizing pos offset with
  | nil => rfl
  | cons segment segs ih =>
    have hsize : (bytes segment.masked).length = byteLength segment.chars := by
      rw [length_bytes, byteLength_masked]
    rw [List.flatMap_cons, List.flatMap_cons, bytes_append, bytes_append]
    by_cases hinside : offset < byteLength segment.chars
    · -- Inside the segment the mask is decided by its kind.
      rw [List.getElem?_append_left (by rwa [hsize]), List.getElem?_append_left
        (by rwa [length_bytes]), inSpans_inside (Nat.le_add_right pos offset)
          (Nat.add_lt_add_left hinside pos), Segment.masked]
      split
      next => rw [bytes_spaces, List.getElem?_replicate, if_pos hinside]
      next => rfl
    · -- Behind the segment the offset counts from its end.
      rw [Nat.not_lt] at hinside
      have hoffset : pos + offset =
        pos + byteLength segment.chars + (offset - byteLength segment.chars) := by omega
      rw [List.getElem?_append_right (by rwa [hsize]), List.getElem?_append_right
        (by rwa [length_bytes]), hsize, length_bytes,
        inSpans_behind (Nat.add_le_add_left hinside pos), hoffset]
      exact ih _ _

/-- **A character of a mask that no span covers stands at the same offset of the script.** -/
theorem exists_of_masked_eq {pos : Nat} {segs : List Segment} {before after : List Char} {c : Char}
    (h : segs.flatMap Segment.masked = before ++ c :: after)
    (hcode : inSpans (literalSpans pos segs) (pos + byteLength before) = false) :
    ∃ left right, segs.flatMap Segment.chars = left ++ c :: right ∧
      byteLength left = byteLength before := by
  induction segs generalizing pos before with
  | nil => simp at h
  | cons segment segs ih =>
    rw [List.flatMap_cons] at h ⊢
    have hsize := byteLength_masked segment
    rcases List.append_eq_append_iff.1 h with ⟨between, rfl, hrest⟩ | ⟨between, hmasked, hrest⟩
    · -- The character stands behind the segment.
      rw [byteLength_append, hsize, inSpans_behind (by omega), ← Nat.add_assoc] at hcode
      obtain ⟨left, right, hchars, hleft⟩ := ih hrest hcode
      refine ⟨segment.chars ++ left, right, by rw [hchars, List.append_assoc], ?_⟩
      rw [byteLength_append, byteLength_append, hsize, hleft]
    · cases between with
      | nil =>
        -- The segment ends right before the character.
        rw [List.append_nil] at hmasked
        rw [List.nil_append] at hrest
        rw [← hmasked, hsize, inSpans_behind (Nat.le_refl _)] at hcode
        obtain ⟨left, right, hchars, hleft⟩ := @ih _ [] hrest.symm hcode
        have hnil : left = [] := by
          refine Decidable.byContradiction fun hne => ?_
          exact Nat.ne_of_gt (byteLength_pos hne) hleft
        refine ⟨segment.chars, right, by rw [hchars, hnil]; rfl, by rw [← hmasked, hsize]⟩
      | cons d between =>
        obtain ⟨rfl, -⟩ := List.cons.inj hrest
        have hlt : byteLength before < byteLength segment.chars := by
          have hpos := c.utf8Size_pos
          rw [← hsize, hmasked, byteLength_append, byteLength_cons]
          omega
        rw [inSpans_inside (Nat.le_add_right pos _) (Nat.add_lt_add_left hlt pos)] at hcode
        rw [Segment.masked, hcode, if_neg (by decide)] at hmasked
        exact ⟨before, between ++
          segs.flatMap Segment.chars, by rw [hmasked, List.append_assoc]; rfl, rfl⟩

/-! ### Nested brackets -/

/-- The brackets of code, each opening one with the one that closes it. -/
def bracketPairs : List (Char × Char) :=
  [('{', '}'), ('(', ')'), ('[', ']')]

/-- True of a bracket, opening or closing. -/
def isBracket (c : Char) : Bool :=
  bracketPairs.any fun pair => c == pair.1 || c == pair.2

/-- **Well-nested brackets.** Each opening bracket is closed by its own, and what stands between the
two is well nested. -/
inductive WellNested : List Char → Prop
  | nil : WellNested []
  | pair {opening closing : Char} {inside rest : List Char} : (opening, closing) ∈ bracketPairs →
      WellNested inside → WellNested rest → WellNested (opening :: (inside ++ closing :: rest))

/-- The brackets close what is open, innermost first, and between and behind the closing ones they
are well nested. -/
def ClosesAll : List Opener → List Char → Prop
  | [], brackets => WellNested brackets
  | opener :: openers, brackets =>
    ∃ inside rest, brackets = inside ++ opener.closer :: rest ∧ WellNested inside ∧
      ClosesAll openers rest

/-- A pair of brackets before others closes nothing that was open. -/
theorem ClosesAll.pair {openers : List Opener} {opening closing : Char} {inside rest : List Char}
    (hpair : (opening, closing) ∈ bracketPairs) (hinside : WellNested inside)
    (hrest : ClosesAll openers rest) :
    ClosesAll openers (opening :: (inside ++ closing :: rest)) := by
  cases openers with
  | nil => exact WellNested.pair hpair hinside hrest
  | cons opener openers =>
    obtain ⟨inner, outer, rfl, hinner, houter⟩ := hrest
    refine ⟨opening :: (inside ++ closing :: inner), outer, ?_, .pair hpair hinside hinner, houter⟩
    rw [List.cons_append, List.append_assoc]
    rfl

/-- The brackets that are open, innermost first: the code of a template literal is not counted. -/
def openBrackets (stack : List (Opener × Location)) : List Opener :=
  (stack.map Prod.fst).filter (· != .substitution)

theorem isBracket_of_isBlank {c : Char} (h : isBlank c = true) : isBracket c = false := by
  have hall : (bracketPairs.all fun pair => !isBlank pair.1 && !isBlank pair.2) = true := by decide
  rw [isBracket, List.any_eq_false]
  intro pair hpair heq
  obtain ⟨hopening, hclosing⟩ : isBlank pair.1 = false ∧ isBlank pair.2 = false := by
    simpa using List.all_eq_true.1 hall pair hpair
  rw [Bool.or_eq_true, beq_iff_eq, beq_iff_eq] at heq
  rcases heq with rfl | rfl
  · rw [h] at hopening
    contradiction
  · rw [h] at hclosing
    contradiction

/-- A piece that is no code shows no bracket in the mask. -/
theorem Lexeme.WellFormed.filter_masked_of_noCode {lexeme : Lexeme} (h : lexeme.WellFormed)
    (hgap : NoCode lexeme) :
    lexeme.masked.filter isBracket = [] := by
  refine List.filter_eq_nil_iff.2 fun c hc => ?_
  rw [isBracket_of_isBlank ((h.masked_of_noCode hgap).2 c hc)]
  exact Bool.false_ne_true

/-- What opens is the first bracket of a pair. -/
theorem mem_bracketPairs_of_openerOf? {c : Char} {opener : Opener} (h : openerOf? c = some opener) :
    (c, opener.closer) ∈ bracketPairs ∧ opener ≠ .substitution := by
  unfold openerOf? at h
  split at h
  · cases h; decide
  · cases h; decide
  · cases h; decide
  · contradiction

theorem isBracket_eq_false {c : Char} (hopener : openerOf? c = none)
    (hcloser : isCloser c = false) :
    isBracket c = false := by
  rw [isBracket, List.any_eq_false]
  intro pair hpair heq
  have hall : (bracketPairs.all fun pair => (openerOf? pair.1).isSome && isCloser pair.2) =
    true := by decide
  have hboth := List.all_eq_true.1 hall pair hpair
  rw [Bool.or_eq_true, beq_iff_eq, beq_iff_eq] at heq
  rcases heq with rfl | rfl
  · simp [hopener] at hboth
  · simp [hcloser] at hboth

/-- **A character of code does to the open brackets what it does to the stack.** -/
theorem closesAll_afterPlain {stack stack' : List (Opener × Location)} {loc : Location} {c : Char}
    (h : afterPlain stack loc c = .ok stack') {brackets : List Char}
    (hrest : ClosesAll (openBrackets stack') brackets) :
    ClosesAll (openBrackets stack) ([c].filter isBracket ++ brackets) := by
  unfold afterPlain at h
  split at h
  next opener hopener =>
    obtain rfl := Except.ok.inj h
    obtain ⟨hpair, hne⟩ := mem_bracketPairs_of_openerOf? hopener
    -- An opening bracket: the rest closes it before it closes those that were open already.
    have hbracket : isBracket c = true := List.any_eq_true.2 ⟨_, hpair, by simp⟩
    have hopen : openBrackets ((opener, loc) :: stack) = opener :: openBrackets stack :=
      List.filter_cons_of_pos (by simpa using hne)
    rw [hopen] at hrest
    obtain ⟨inside, outer, rfl, hinside, houter⟩ := hrest
    rw [List.filter_cons_of_pos hbracket]
    exact houter.pair hpair hinside
  next hopener =>
    split at h
    next hcloser =>
      cases stack with
      | nil => contradiction
      | cons top stack =>
        obtain ⟨opener, place⟩ := top
        rw [afterCloser] at h
        split at h
        next hcloses =>
          obtain rfl := Except.ok.inj h
          -- A closing bracket takes off the one that it closes, with nothing left in between.
          obtain ⟨hne, rfl⟩ := closes_iff.1 hcloses
          have hbracket : isBracket opener.closer = true := by cases opener <;> rfl
          have hopen : openBrackets ((opener, place) :: stack) = opener :: openBrackets stack :=
            List.filter_cons_of_pos (by simpa using hne)
          rw [hopen, List.filter_cons_of_pos hbracket]
          exact ⟨[], brackets, rfl, .nil, hrest⟩
        next => contradiction
    next hcloser =>
      obtain rfl := Except.ok.inj h
      -- Everything else is no bracket, and neither list takes notice.
      rw [List.filter_cons_of_neg
        (by simp [isBracket_eq_false hopener (eq_false_of_ne_true hcloser)])]
      exact hrest

theorem openBrackets_afterTemplate {stack stack' : List (Opener × Location)} {place : Location}
    {ending : TemplateEnd} (h : afterTemplate stack place ending = .ok stack') :
    openBrackets stack' = openBrackets stack := by
  cases ending with
  | closed | substitution =>
    obtain rfl := Except.ok.inj h
    rfl
  | missing => contradiction

/-- **Pieces that are no code leave the open brackets alone.** -/
theorem openBrackets_react {stack stack' : List (Opener × Location)} {loc : Location}
    {previous : Option Char} {c : Char} {text : List Char}
    (h : react stack loc c (readPiece (inSubstitution stack) previous c text).piece = .ok stack')
    (hplain : (readPiece (inSubstitution stack) previous c text).piece ≠ .plain) :
    openBrackets stack' = openBrackets stack := by
  have hresumes (hc : c = '}') := inSubstitution_of_readPiece hc hplain
  generalize (readPiece (inSubstitution stack) previous c text).piece = piece at *
  cases piece with
  | plain => contradiction
  | blank =>
    obtain rfl := Except.ok.inj h
    rfl
  | comment ended | regex ended | string ended =>
    cases ended with
    | false => contradiction
    | true =>
      obtain rfl := Except.ok.inj h
      rfl
  | template ending =>
    unfold react at h
    by_cases hc : c = '}'
    · -- What the brace takes off the stack is the code of a template literal, which is not counted.
      obtain ⟨place, rest, rfl⟩ := exists_cons_of_inSubstitution (hresumes hc)
      rw [hc] at h
      show openBrackets stack' = openBrackets rest
      exact openBrackets_afterTemplate h
    · simp only [beq_false_of_ne hc] at h
      exact openBrackets_afterTemplate h

/-- **One turn of the checker**: if the brackets behind the piece close what is open then, those of
the piece and behind it close what is open before. -/
theorem closesAll_react {stack stack' : List (Opener × Location)} {loc : Location}
    {previous : Option Char} {c : Char} {text : List Char}
    (h : react stack loc c (readPiece (inSubstitution stack) previous c text).piece = .ok stack')
    {brackets : List Char} (hrest : ClosesAll (openBrackets stack') brackets) :
    ClosesAll (openBrackets stack)
      ((Lexeme.mk (readPiece (inSubstitution stack) previous c text).piece
        (readPiece (inSubstitution stack) previous c text).chars).masked.filter isBracket ++
          brackets) := by
  by_cases hplain : (readPiece (inSubstitution stack) previous c text).piece = .plain
  · have hchars := @chars_of_not_isLiteral (inSubstitution stack) previous c text
      (by rw [hplain]; rfl)
    rw [hplain] at h ⊢
    rw [hchars]
    exact closesAll_afterPlain h hrest
  · have hpiece := wellFormed_readPiece (inSubstitution stack) previous c text
    rw [hpiece.filter_masked_of_noCode hplain, ← openBrackets_react h hplain]
    exact hrest

/-- **What the checker accepts closes what is open**, also in the mask. -/
theorem closesAll_of_checkFrom {stack : List (Opener × Location)} {previous : Option Char}
    {loc : Location} {text : List Char} (h : checkFrom stack previous loc text = .ok ()) :
    ClosesAll (openBrackets stack)
      ((masked (lexemesFrom stack previous loc text)).filter isBracket) := by
  match text with
  | [] =>
    rw [lexemesFrom_nil]
    cases stack with
    | nil => exact .nil
    | cons top stack =>
      rw [checkFrom_nil_cons] at h
      contradiction
  | c :: text =>
    have hshorter := readPiece_rest_le (inSubstitution stack) previous c text
    obtain ⟨stack', hreact, hrest⟩ := exists_react_of_checkFrom h
    rw [lexemesFrom_cons hreact, masked_cons, List.filter_append]
    exact closesAll_react hreact (closesAll_of_checkFrom hrest)
termination_by text.length
decreasing_by simp only [List.length_cons]; omega

/-- The brackets among characters of code. -/
def codeBrackets (pieces : List Lexeme) : List Char :=
  (pieces.filter (·.piece == .plain)).flatMap fun lexeme => lexeme.chars.filter isBracket

/-- In a mask the brackets of the code are seen, and no others. -/
theorem filter_masked {pieces : List Lexeme} (h : ∀ lexeme ∈ pieces, lexeme.WellFormed) :
    (masked pieces).filter isBracket = codeBrackets pieces := by
  induction pieces with
  | nil => rfl
  | cons lexeme pieces ih =>
    obtain ⟨hlexeme, hpieces⟩ := List.forall_mem_cons.1 h
    rw [masked_cons, List.filter_append, ih hpieces, codeBrackets, codeBrackets]
    by_cases hplain : lexeme.piece = .plain
    · rw [List.filter_cons_of_pos (by simpa using hplain), List.flatMap_cons, Lexeme.masked, hplain]
      rfl
    · rw [List.filter_cons_of_neg (by simpa using hplain), hlexeme.filter_masked_of_noCode hplain,
        List.nil_append]

/-- **Masking keeps offsets and agrees with the checker.** The spans of the literals are not empty,
lie within the script and start and end between two characters, each before the next. The mask has
as many bytes as the script; in the spans they are spaces, and outside they are those of the script.
A character of the mask that is in no span stands at the same offset of the script, so that the
script can be cut before and behind it. If the checker accepts the script, the brackets that are
left in the mask are those that the checker takes for code, and they are well nested. -/
theorem mask_keeps_offsets (source : List Char) :
    (∀ span ∈ literals source, span.start < span.stop ∧ span.stop ≤ byteLength source ∧
      IsBoundary source span.start ∧ IsBoundary source span.stop) ∧
    ((literals source).Pairwise fun span later => span.stop ≤ later.start) ∧
    (bytes (mask source)).length = (bytes source).length ∧
    (∀ offset, (bytes (mask source))[offset]? =
      if inSpans (literals source) offset then some 0x20 else (bytes source)[offset]?) ∧
    (∀ before c after, mask source = before ++ c :: after →
      inSpans (literals source) (byteLength before) = false →
      ∃ left right, source = left ++ c :: right ∧ byteLength left = byteLength before) ∧
    (check source = .ok () → (mask source).filter isBracket = codeBrackets (lexemes source) ∧
      WellNested ((mask source).filter isBracket)) := by
  -- All parts speak of the segments of the script, which put together are the script.
  have hsource := flatMap_chars_segments [] none source
  refine ⟨fun span hspan => ?_, pairwise_literalSpans 0 _, ?_, fun offset =>
    ?_, fun before c after hmask hcode => ?_, fun hcheck => ⟨?_, ?_⟩⟩
  · obtain ⟨chars, hne, left, right, rfl, hstart, hstop⟩ := covers_of_mem_literals hspan
    have hpos := byteLength_pos hne
    refine ⟨by omega, ?_, ⟨left, _, rfl, hstart.symm⟩, ⟨left ++ chars, right, ?_, ?_⟩⟩
    · simp only [byteLength_append]
      omega
    · rw [List.append_assoc]
    · rw [byteLength_append, hstop]
  · rw [length_bytes, length_bytes, mask, byteLength_flatMap_masked, hsource]
  · have hbyte := getElem?_bytes_masked 0 offset (segments [] none source)
    rwa [Nat.zero_add, hsource] at hbyte
  · rw [← Nat.zero_add (byteLength before)] at hcode
    obtain ⟨left, right, hchars, hleft⟩ := exists_of_masked_eq hmask hcode
    exact ⟨left, right, hsource.symm.trans hchars, hleft⟩
  · rw [mask_eq_masked hcheck]
    exact filter_masked fun _ hmem => wellFormed_of_mem_lexemesFrom hmem
  · rw [mask_eq_masked hcheck]
    exact closesAll_of_checkFrom hcheck

/-- A call with a template literal, in which a letter of two bytes stands before code in square
brackets. -/
def templateCall : List Char :=
  ['f', '(', '`', 'é', '$', '{', '[', 'x', ']', '}', '`', ')']

/-- The template literal is masked in two parts, and of the brackets the brace that leads back into
it is missing. -/
theorem mask_keeps_offsets_templateCall :
    check templateCall = .ok () ∧ literals templateCall = [⟨2, 7⟩, ⟨10, 12⟩] ∧
      mask templateCall = "f(     [x]  )".toList ∧
      codeBrackets (lexemes templateCall) = ['(', '[', ']', ')'] ∧
      WellNested ['(', '[', ']', ')'] := by
  have hcheck : check templateCall = .ok () := by
    with_unfolding_all rfl
  -- The literal is cut at the substitution; the code in between is segments of its own.
  have hsegments : segments [] none templateCall =
      [⟨false, ['f']⟩, ⟨false, ['(']⟩, ⟨true, ['`', 'é', '$', '{']⟩, ⟨false, ['[']⟩, ⟨false, ['x']⟩,
        ⟨false, [']']⟩, ⟨true, ['}', '`']⟩, ⟨false, [')']⟩] := by
    with_unfolding_all rfl
  have hmask : mask templateCall = "f(     [x]  )".toList := by
    rw [mask, hsegments]
    decide
  have hliterals : literals templateCall = [⟨2, 7⟩, ⟨10, 12⟩] := by
    rw [literals, hsegments]
    decide
  obtain ⟨-, -, -, -, -, hbrackets⟩ := mask_keeps_offsets templateCall
  obtain ⟨hcode, hnested⟩ := hbrackets hcheck
  have hfilter : (mask templateCall).filter isBracket = ['(', '[', ']', ')'] := by
    rw [hmask]
    decide
  rw [hfilter] at hcode hnested
  exact ⟨hcheck, hliterals, hmask, hcode.symm, hnested⟩

end Triptych.Script
