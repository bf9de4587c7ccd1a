import Mathlib.Data.List.Basic
import Mathlib.Data.List.TakeWhile
import Triptych.Proofs.Script.Lexemes

/-!
# The words before the object that markup goes into

Markup goes into the object that a script exports by default. The search for it goes through the
mask of the script, in which comments and literals are spaces, and knows blanks only. Here what it
finds is said in the pieces of the script: the brace is a piece of code, and before it stand the
words of a default export (`ExportHead`).

Between the words nothing is code. That is all, since a comment, a string, a regular expression and
a template all look the same in the mask. So the words are apart by blanks and comments alone
exactly if no literal that is a value stands there (`inject_behind_export`).

* A visible character of the mask is a piece of code (`eq_cons_of_masked`), so a word of the mask is
  a word of the code (`eq_codeOf_append`), and what the search takes for blanks are the pieces up to
  the next one of code (`trimStart_masked`).
* From this the search for an export goes through the pieces as it goes through the mask
  (`afterExport?_masked_iff`).
-/

namespace Triptych.Script

open Text Code

/-! ### Pieces in the mask -/

/-- What is seen of a piece in the mask. -/
def Lexeme.masked (lexeme : Lexeme) : List Char :=
  Segment.masked ⟨lexeme.piece.isLiteral, lexeme.chars⟩

/-- What is seen of pieces in the mask. -/
def masked (pieces : List Lexeme) : List Char :=
  pieces.flatMap Lexeme.masked

theorem masked_cons (lexeme : Lexeme) (pieces : List Lexeme) :
    masked (lexeme :: pieces) = lexeme.masked ++ masked pieces :=
  List.flatMap_cons

theorem masked_append (pieces more : List Lexeme) :
    masked (pieces ++ more) = masked pieces ++ masked more :=
  List.flatMap_append

/-- **The mask is what is seen of the pieces**, if the script is accepted. -/
theorem mask_eq_masked {source : List Char} (h : check source = .ok ()) :
    mask source = masked (lexemes source) := by
  rw [mask, segments_eq_map_lexemes h, List.flatMap_map]
  rfl

/-- Characters of code, each a piece. -/
def codeOf (word : List Char) : List Lexeme :=
  word.map fun c => ⟨.plain, [c]⟩

/-- Code is seen as it is. -/
theorem masked_codeOf (word : List Char) : masked (codeOf word) = word := by
  induction word with
  | nil => rfl
  | cons c word ih => exact congrArg (c :: ·) ih

/-- The piece is no code. -/
def NoCode (lexeme : Lexeme) : Prop :=
  lexeme.piece ≠ .plain

/-- A piece that is no code is seen as blanks. -/
theorem Lexeme.WellFormed.masked_of_noCode {lexeme : Lexeme} (h : lexeme.WellFormed)
    (hgap : NoCode lexeme) :
    lexeme.masked ≠ [] ∧ ∀ c ∈ lexeme.masked, isBlank c = true := by
  obtain ⟨piece, chars⟩ := lexeme
  cases piece with
  | plain => exact absurd rfl hgap
  | blank =>
    obtain ⟨c, rfl, hc⟩ := h
    exact ⟨List.cons_ne_nil c
      [], by simpa [Lexeme.masked, Segment.masked, Piece.isLiteral] using hc⟩
  | comment | regex | string | template =>
    have hpos : byteLength chars ≠ 0 := Nat.ne_of_gt (byteLength_pos h)
    refine ⟨by simpa [Lexeme.masked, Segment.masked, Piece.isLiteral] using hpos, fun c hc => ?_⟩
    rw [List.eq_of_mem_replicate hc]
    decide

section Masked

variable {pieces : List Lexeme}

/-- **A visible character at the front of the mask is a piece of code.** -/
theorem eq_cons_of_masked (hpieces : ∀ lexeme ∈ pieces, lexeme.WellFormed) {c : Char}
    (hc : isBlank c = false) {text : List Char} (h : masked pieces = c :: text) :
    ∃ more, pieces = ⟨.plain, [c]⟩ :: more ∧ masked more = text := by
  cases pieces with
  | nil => contradiction
  | cons lexeme pieces =>
    rw [masked_cons] at h
    have hlexeme := hpieces lexeme List.mem_cons_self
    by_cases hplain : lexeme.piece = .plain
    · obtain ⟨piece, chars⟩ := lexeme
      obtain rfl : piece = .plain := hplain
      obtain ⟨d, rfl, -⟩ := hlexeme
      obtain ⟨rfl, htext⟩ := List.cons.inj h
      exact ⟨pieces, rfl, htext⟩
    · -- Everything but code is masked by blanks, and not by nothing.
      obtain ⟨hne, hblank⟩ := hlexeme.masked_of_noCode hplain
      obtain ⟨d, blanks, hmasked⟩ := List.exists_cons_of_ne_nil hne
      rw [hmasked] at h hblank
      obtain ⟨rfl, -⟩ := List.cons.inj h
      cases hc.symm.trans (hblank d List.mem_cons_self)

/-- **A word at the front of the mask is a word of the code.** -/
theorem eq_codeOf_append (hpieces : ∀ lexeme ∈ pieces, lexeme.WellFormed) {word : List Char}
    (hword : ∀ c ∈ word, isBlank c = false) {text : List Char} (h : masked pieces = word ++ text) :
    ∃ more, pieces = codeOf word ++ more ∧ masked more = text := by
  induction word generalizing pieces with
  | nil => exact ⟨pieces, rfl, h⟩
  | cons c word ih =>
    rw [List.forall_mem_cons] at hword
    obtain ⟨tail, rfl, htail⟩ := eq_cons_of_masked hpieces hword.1 h
    obtain ⟨more, rfl, hmore⟩ := ih (List.forall_mem_cons.1 hpieces).2 hword.2 htail
    exact ⟨more, rfl, hmore⟩

/-- **What is taken for blanks are the pieces up to the next one of code.** -/
theorem trimStart_masked (hpieces : ∀ lexeme ∈ pieces, lexeme.WellFormed) :
    trimStart (masked pieces) = masked (pieces.dropWhile (·.piece != .plain)) := by
  induction pieces with
  | nil => rfl
  | cons lexeme pieces ih =>
    rw [List.forall_mem_cons] at hpieces
    by_cases hplain : lexeme.piece = .plain
    · rw [List.dropWhile_cons_of_neg (by simpa using hplain)]
      obtain ⟨piece, chars⟩ := lexeme
      obtain rfl : piece = .plain := hplain
      obtain ⟨d, rfl, hd⟩ := hpieces.1
      exact List.dropWhile_cons_of_neg (by simpa using hd)
    · rw [List.dropWhile_cons_of_pos (by simpa using hplain), masked_cons, ← ih hpieces.2]
      exact List.dropWhile_append_of_pos (hpieces.1.masked_of_noCode hplain).2

end Masked

/-! ### The search in the pieces -/

/-- A word is passed if the text starts with it. -/
theorem after?_eq_some_iff {word text rest : List Char} :
    after? word text = some rest ↔ text = word ++ rest := by
  unfold after?
  split
  next hprefix =>
    obtain ⟨tail, rfl⟩ := List.isPrefixOf_iff_prefix.1 hprefix
    simp
  next hprefix =>
    refine iff_of_false nofun ?_
    rintro rfl
    exact hprefix (List.isPrefixOf_iff_prefix.2 (List.prefix_append ..))

/-- The pieces of the search for an exported object, each as a search for words between blanks. -/
theorem afterBrace?_eq (text : List Char) : afterBrace? text = after? ['{'] text := by
  refine Option.ext fun rest => ?_
  rw [after?_eq_some_iff]
  unfold afterBrace?
  split
  next => simp
  next hbrace => exact iff_of_false nofun (hbrace rest)

theorem afterWrapper?_eq (text : List Char) :
    afterWrapper? text = (after? "defineComponent".toList text).bind fun text =>
      (after? ['('] (trimStart text)).bind fun text => after? ['{'] (trimStart text) := by
  refine congrArg _ (funext fun text => ?_)
  split
  next inner hparen => rw [hparen, afterBrace?_eq]; rfl
  next hparen =>
    cases hafter : after? ['('] (trimStart text) with
    | none => rfl
    | some rest => exact absurd (after?_eq_some_iff.1 hafter) (hparen rest)

/-- True of visible characters, one or more. -/
def isWord (word : List Char) : Bool :=
  !word.isEmpty && word.all fun c => !isBlank c

/-- A word is not empty and holds no blanks. -/
theorem isWord_iff {word : List Char} :
    isWord word = true ↔ word ≠ [] ∧ ∀ c ∈ word, isBlank c = false := by
  simp [isWord]

section Search

variable {pieces : List Lexeme} {word rest : List Char}

/-- **A word is seen in the mask just if it is written as code**: literals are masked by blanks. -/
theorem after?_masked_iff (hpieces : ∀ lexeme ∈ pieces, lexeme.WellFormed)
    (hword : isWord word = true) :
    after? word (masked pieces) = some rest ↔
      ∃ more, pieces = codeOf word ++ more ∧ masked more = rest := by
  rw [after?_eq_some_iff]
  refine ⟨eq_codeOf_append hpieces (isWord_iff.1 hword).2, ?_⟩
  rintro ⟨more, rfl, rfl⟩
  rw [masked_append, masked_codeOf]

/-- **A word behind blanks of the mask is a word of the code behind pieces that are no code.** -/
theorem after?_trimStart_masked_iff (hpieces : ∀ lexeme ∈ pieces, lexeme.WellFormed)
    (hword : isWord word = true) :
    after? word (trimStart (masked pieces)) = some rest ↔
      ∃ gap more, pieces = gap ++ (codeOf word ++ more) ∧ (∀ lexeme ∈ gap, NoCode lexeme) ∧
        masked more = rest := by
  have hsplit := @List.takeWhile_append_dropWhile _ (·.piece != .plain) pieces
  have hdropped : ∀ lexeme ∈ pieces.dropWhile (·.piece != .plain), lexeme.WellFormed :=
    fun lexeme hmem => hpieces lexeme (hsplit ▸ List.mem_append_right _ hmem)
  rw [trimStart_masked hpieces, after?_masked_iff hdropped hword]
  constructor
  · rintro ⟨more, hmore, hrest⟩
    refine ⟨_, more, by rw [← hmore, hsplit], fun lexeme hmem => ?_, hrest⟩
    simpa [NoCode] using List.mem_takeWhile_imp hmem
  · rintro ⟨gap, more, rfl, hgap, hrest⟩
    obtain ⟨c, word, rfl⟩ := List.exists_cons_of_ne_nil (isWord_iff.1 hword).1
    refine ⟨more, ?_, hrest⟩
    rw [List.dropWhile_append_of_pos (by simpa [NoCode] using hgap)]
    exact List.dropWhile_cons_of_neg (by simp)

end Search

/-! ### The head of a default export -/

/-- **What stands before the brace of an exported object**, behind the word `default`: nothing, or
the word `defineComponent` and a parenthesis, with pieces between them as `gap` says. -/
inductive ObjectHead (gap : Lexeme → Prop) : List Lexeme → Prop
  | bare {pieces : List Lexeme} : (∀ lexeme ∈ pieces, gap lexeme) → ObjectHead gap pieces
  | wrapped {first second third : List Lexeme} : (∀ lexeme ∈ first, gap lexeme) →
      (∀ lexeme ∈ second, gap lexeme) →
      (∀ lexeme ∈ third, gap lexeme) →
      ObjectHead gap
        (first ++ (codeOf "defineComponent".toList ++ (second ++ (codeOf ['('] ++ third))))

/-- **The head of a default export**, up to the brace of the object: the word `export`, at least one
piece as `gap` says, the word `default`, and what stands before the brace. -/
inductive ExportHead (gap : Lexeme → Prop) : List Lexeme → Prop
  | words {between object : List Lexeme} : between ≠ [] → (∀ lexeme ∈ between, gap lexeme) →
      ObjectHead gap object →
      ExportHead gap (codeOf "export".toList ++ (between ++ (codeOf "default".toList ++ object)))

/-- The object stands bare or wrapped. It is not both, since no brace is the start of the wrapper's
name. -/
theorem afterObject?_eq_some_iff {text rest : List Char} :
    ((afterBrace? text).orElse fun _ => afterWrapper? text) = some rest ↔
      after? ['{'] text = some rest ∨ afterWrapper? text = some rest := by
  rw [afterBrace?_eq]
  cases hbrace : after? ['{'] text with
  | none => simp
  | some found =>
    refine (or_iff_left fun hwrapper => ?_).symm
    rw [afterWrapper?_eq] at hwrapper
    obtain ⟨tail, hname, -⟩ := Option.bind_eq_some_iff.1 hwrapper
    cases (after?_eq_some_iff.1 hbrace).symm.trans (after?_eq_some_iff.1 hname)

/-- The head of an export, word by word. -/
theorem afterExport?_eq_some_iff {text rest : List Char} :
    afterExport? text = some rest ↔
      ∃ c tail object, after? "export".toList text = some (c :: tail) ∧ isBlank c = true ∧
      after? "default".toList (trimStart (c :: tail)) = some object ∧
      (after? ['{'] (trimStart object) = some rest ∨
        afterWrapper? (trimStart object) = some rest) := by
  -- The blank behind `export` is one of those that are trimmed before `default`.
  have htrim {c : Char} (hc : isBlank c = true) (tail : List Char) :
      trimStart (c :: tail) = trimStart tail :=
    List.dropWhile_cons_of_pos hc
  constructor
  · intro h
    obtain ⟨behind, hexport, h⟩ := Option.bind_eq_some_iff.1 h
    split at h
    next c tail =>
      split at h
      next hc =>
        obtain ⟨object, hdefault, h⟩ := Option.bind_eq_some_iff.1 h
        exact ⟨c, tail, object, hexport, hc, by rwa [htrim hc], afterObject?_eq_some_iff.1 h⟩
      next => contradiction
    next => contradiction
  · rintro ⟨c, tail, object, hexport, hc, hdefault, hobject⟩
    rw [htrim hc] at hdefault
    refine Option.bind_eq_some_iff.2 ⟨c :: tail, hexport, ?_⟩
    exact (if_pos hc).trans (Option.bind_eq_some_iff.2
      ⟨object, hdefault, afterObject?_eq_some_iff.2 hobject⟩)

/-- **The search finds the object where the pieces start with its head and a brace.** -/
theorem afterObject?_masked_iff {pieces : List Lexeme}
    (hpieces : ∀ lexeme ∈ pieces, lexeme.WellFormed) {rest : List Char} :
    (after? ['{'] (trimStart (masked pieces)) = some rest ∨
      afterWrapper? (trimStart (masked pieces)) = some rest) ↔
      ∃ object right, pieces = object ++ (codeOf ['{'] ++ right) ∧ ObjectHead NoCode object ∧
        masked right = rest := by
  have hbehind {gap more : List Lexeme} {word : List Char}
      (h : ∀ lexeme ∈ gap ++ (codeOf word ++ more), lexeme.WellFormed) :
          ∀ lexeme ∈ more, lexeme.WellFormed :=
    fun lexeme hmem => h lexeme (List.mem_append_right _ (List.mem_append_right _ hmem))
  -- The object is bare, or the argument of a call. In a call, each of its words is found behind the
  -- one before.
  rw [afterWrapper?_eq, Option.bind_eq_some_iff]
  constructor
  · rintro (hbrace | ⟨inner, hinner, h⟩)
    · obtain ⟨gap, right, rfl, hgap, hright⟩ :=
        (after?_trimStart_masked_iff hpieces (by decide)).1 hbrace
      exact ⟨gap, right, rfl, .bare hgap, hright⟩
    · obtain ⟨argument, hargument, hbrace⟩ := Option.bind_eq_some_iff.1 h
      obtain ⟨first, more, rfl, hfirst, rfl⟩ :=
        (after?_trimStart_masked_iff hpieces (by decide)).1 hinner
      have hmore := hbehind hpieces
      obtain ⟨second, more, rfl, hsecond, rfl⟩ :=
        (after?_trimStart_masked_iff hmore (by decide)).1 hargument
      obtain ⟨third, right, rfl, hthird, hright⟩ :=
        (after?_trimStart_masked_iff (hbehind hmore) (by decide)).1 hbrace
      exact ⟨_, right, by simp only [List.append_assoc], .wrapped hfirst hsecond hthird, hright⟩
  · rintro ⟨object, right, rfl, hobject, hright⟩
    cases hobject with
    | bare hgap =>
      exact .inl ((after?_trimStart_masked_iff hpieces (by decide)).2 ⟨_, right, rfl, hgap, hright⟩)
    | wrapped hfirst hsecond hthird =>
      simp only [List.append_assoc] at hpieces ⊢
      have hmore := hbehind hpieces
      refine .inr ⟨_, (after?_trimStart_masked_iff hpieces (by decide)).2 ⟨_, _, rfl, hfirst, rfl⟩,
        ?_⟩
      refine Option.bind_eq_some_iff.2 ⟨_, (after?_trimStart_masked_iff hmore (by decide)).2
        ⟨_, _, rfl, hsecond, rfl⟩, ?_⟩
      exact (after?_trimStart_masked_iff (hbehind hmore) (by decide)).2
        ⟨_, right, rfl, hthird, hright⟩

/-- Pieces that are no code start with a blank in the mask. -/
theorem exists_blank_of_masked {gap more : List Lexeme} (hne : gap ≠ [])
    (hgap : ∀ lexeme ∈ gap, NoCode lexeme) (hpieces : ∀ lexeme ∈ gap ++ more, lexeme.WellFormed) :
    ∃ c tail, masked (gap ++ more) = c :: tail ∧ isBlank c = true := by
  obtain ⟨lexeme, gap, rfl⟩ := List.exists_cons_of_ne_nil hne
  obtain ⟨hmasked, hblank⟩ :=
    (hpieces lexeme List.mem_cons_self).masked_of_noCode (hgap lexeme List.mem_cons_self)
  obtain ⟨c, blanks, hcons⟩ := List.exists_cons_of_ne_nil hmasked
  rw [hcons] at hblank
  exact ⟨c, blanks ++ masked
    (gap ++ more), by rw [List.cons_append, masked_cons, hcons]; rfl, hblank c List.mem_cons_self⟩

/-- **The search finds an export where the pieces start with its head and a brace.** -/
theorem afterExport?_masked_iff {pieces : List Lexeme}
    (hpieces : ∀ lexeme ∈ pieces, lexeme.WellFormed) {rest : List Char} :
    afterExport? (masked pieces) = some rest ↔
      ∃ head right, pieces = head ++ (codeOf ['{'] ++ right) ∧ ExportHead NoCode head ∧
        masked right = rest := by
  have hwords : isWord "export".toList = true ∧ isWord "default".toList = true := by decide
  rw [afterExport?_eq_some_iff]
  constructor
  · rintro ⟨c, tail, behind, hexport, hc, hdefault, hobject⟩
    obtain ⟨more, rfl, hmore⟩ := (after?_masked_iff hpieces hwords.1).1 hexport
    have hpieces := (List.forall_mem_append.1 hpieces).2
    rw [← hmore] at hdefault
    obtain ⟨between, more, rfl, hbetween, rfl⟩ :=
      (after?_trimStart_masked_iff hpieces hwords.2).1 hdefault
    -- The mask has a blank behind `export`, so a piece that is no code stands there.
    have hne : between ≠ [] := by
      rintro rfl
      obtain ⟨rfl, -⟩ := List.cons.inj hmore
      exact absurd hc (by decide)
    have hpieces := (List.forall_mem_append.1 (List.forall_mem_append.1 hpieces).2).2
    obtain ⟨object, right, rfl, hobject, hright⟩ := (afterObject?_masked_iff hpieces).1 hobject
    exact ⟨_, right, by simp only [List.append_assoc], .words hne hbetween hobject, hright⟩
  · rintro ⟨_, right, rfl, @⟨between, object, hne, hbetween, hobject⟩, hright⟩
    simp only [List.append_assoc] at hpieces ⊢
    have hbehind := (List.forall_mem_append.1 hpieces).2
    have hmore := (List.forall_mem_append.1 (List.forall_mem_append.1 hbehind).2).2
    obtain ⟨c, tail, hmasked, hc⟩ := exists_blank_of_masked hne hbetween hbehind
    refine ⟨c, tail, _, (after?_masked_iff hpieces hwords.1).2 ⟨_, rfl, hmasked⟩, hc, ?_,
      (afterObject?_masked_iff hmore).2 ⟨object, right, rfl, hobject, hright⟩⟩
    rw [← hmasked]
    exact (after?_trimStart_masked_iff hbehind hwords.2).2 ⟨between, _, rfl, hbetween, rfl⟩

/-! ### The script -/

/-- An export starts with its first letter. -/
theorem afterExport?_cons {text rest : List Char} (h : afterExport? text = some rest) :
    ∃ tail, text = 'e' :: tail := by
  obtain ⟨c, tail, _, hexport, -⟩ := afterExport?_eq_some_iff.1 h
  exact ⟨_, after?_eq_some_iff.1 hexport⟩

/-- Where an export is, the search finds one, there or before. -/
theorem findObject_isSome {found rest : List Char} (h : afterExport? found = some rest) (pos : Nat)
    (before : List Char) :
    (findObject pos (before ++ found)).isSome = true := by
  induction before generalizing pos with
  | nil =>
    obtain ⟨tail, rfl⟩ := afterExport?_cons h
    rw [List.nil_append, findObject, h]
    rfl
  | cons c before ih =>
    rw [List.cons_append, findObject]
    split
    · rfl
    · exact ih _

/-- The characters of pieces. -/
def written (pieces : List Lexeme) : List Char :=
  pieces.flatMap Lexeme.chars

theorem written_append (pieces more : List Lexeme) :
    written (pieces ++ more) = written pieces ++ written more :=
  List.flatMap_append

/-- Masking keeps all offsets. -/
theorem byteLength_masked_eq (pieces : List Lexeme) :
    byteLength (masked pieces) = byteLength (written pieces) := by
  have hsegments :=
    byteLength_flatMap_masked (pieces.map fun lexeme => ⟨lexeme.piece.isLiteral, lexeme.chars⟩)
  rwa [List.flatMap_map, List.flatMap_map] at hsegments

/-- Where an export starts in the mask a piece starts. -/
theorem exists_append_of_masked {pieces : List Lexeme}
    (hpieces : ∀ lexeme ∈ pieces, lexeme.WellFormed) {before found rest : List Char}
    (h : masked pieces = before ++ found) (hexport : afterExport? found = some rest) :
    ∃ left more, pieces = left ++ more ∧ masked left = before ∧ masked more = found := by
  -- A piece of code is one character, so a letter in the mask starts its piece.
  have hcode : ∀ segment ∈ pieces.map fun lexeme =>
    (⟨lexeme.piece.isLiteral, lexeme.chars⟩ : Segment),
      segment.isLiteral = false → ∃ c, segment.chars = [c] := by
    intro segment hsegment hliteral
    obtain ⟨⟨piece, chars⟩, hmem, rfl⟩ := List.mem_map.1 hsegment
    have hwell := hpieces _ hmem
    cases piece with
    | blank | plain =>
      obtain ⟨c, hc, -⟩ := hwell
      exact ⟨c, hc⟩
    | comment | regex | string | template => contradiction
  obtain ⟨tail, rfl⟩ := afterExport?_cons hexport
  obtain ⟨left', right', hsplit, hleft⟩ :=
    @exists_segment_of_mask _ hcode 'e' (by decide) before tail (by rw [List.flatMap_map]; exact h)
  obtain ⟨left, more, rfl, rfl, hmore⟩ := List.map_eq_append_iff.1 hsplit
  rw [List.flatMap_map] at hleft
  refine ⟨left, more, rfl, hleft, ?_⟩
  rw [masked_append] at h
  exact List.append_cancel_left (h.trans (congrArg (· ++ _) hleft.symm))

/-- The object that is found stands behind the head of an export, and the offset is that behind its
brace. -/
theorem exists_head_of_findObject {logic : List Char} (hcheck : check logic = .ok ()) {offset : Nat}
    (h : findObject 0 (mask logic) = some offset) :
    ∃ left head right, lexemes logic = left ++ head ++ codeOf ['{'] ++ right ∧
      ExportHead NoCode head ∧
      offset = byteLength (written (left ++ head ++ codeOf ['{'])) := by
  have hpieces : ∀ lexeme ∈ lexemes logic, lexeme.WellFormed :=
    fun _ => wellFormed_of_mem_lexemesFrom
  obtain ⟨before, found, rest, hmask, hexport, rfl⟩ := exists_export_of_findObject h
  rw [mask_eq_masked hcheck] at hmask
  obtain ⟨left, more, hlexemes, rfl, rfl⟩ := exists_append_of_masked hpieces hmask hexport
  rw [hlexemes] at hpieces ⊢
  obtain ⟨head, right, rfl, hhead, rfl⟩ :=
    (afterExport?_masked_iff (List.forall_mem_append.1 hpieces).2).1 hexport
  refine ⟨left, head, right, by simp only [List.append_assoc], hhead, ?_⟩
  simp only [byteLength_masked_eq, written_append, byteLength_append]
  omega

/-- **An object is found exactly if somewhere the head of an export stands before a brace.** -/
theorem isSome_findObject_iff {logic : List Char} (hcheck : check logic = .ok ()) :
    (findObject 0 (mask logic)).isSome = true ↔
      ∃ left head right, lexemes logic = left ++ head ++ codeOf ['{'] ++ right ∧
        ExportHead NoCode head := by
  constructor
  · intro hsome
    obtain ⟨offset, hoffset⟩ := Option.isSome_iff_exists.1 hsome
    obtain ⟨left, head, right, hlexemes, hhead, -⟩ := exists_head_of_findObject hcheck hoffset
    exact ⟨left, head, right, hlexemes, hhead⟩
  · rintro ⟨left, head, right, hlexemes, hhead⟩
    have hpieces : ∀ lexeme ∈ left ++ (head ++ (codeOf ['{'] ++ right)), lexeme.WellFormed := by
      rw [← List.append_assoc, ← List.append_assoc, ← hlexemes]
      exact fun _ => wellFormed_of_mem_lexemesFrom
    have hexport := (afterExport?_masked_iff (List.forall_mem_append.1 hpieces).2).2
      ⟨head, right, rfl, hhead, rfl⟩
    rw [mask_eq_masked hcheck, hlexemes, List.append_assoc, List.append_assoc, masked_append]
    exact findObject_isSome hexport 0 _

/-! ### Blanks and comments between the words -/

/-- True of blanks and comments. -/
def Piece.isSpacing : Piece → Bool
  | .blank | .comment _ => true
  | _ => false

/-- True of strings, regular expressions and templates, the literals that are values. -/
def Piece.isValue : Piece → Bool
  | .string _ | .regex _ | .template _ => true
  | _ => false

/-- A piece is spacing if it is neither code nor a value. -/
theorem Piece.isSpacing_iff {piece : Piece} :
    piece.isSpacing = true ↔ piece ≠ .plain ∧ piece.isValue = false := by
  cases piece <;> simp [isSpacing, isValue]

/-- A character of code is no value. -/
theorem isValue_of_mem_codeOf {word : List Char} {lexeme : Lexeme} (h : lexeme ∈ codeOf word) :
    lexeme.piece.isValue = false := by
  obtain ⟨c, -, rfl⟩ := List.mem_map.1 h
  rfl

section Heads

variable {gap gap' : Lexeme → Prop} {pieces : List Lexeme}

/-- The gaps may be described by what follows from their description. -/
theorem ObjectHead.imp (h : ObjectHead gap pieces)
    (himp : ∀ lexeme ∈ pieces, gap lexeme → gap' lexeme) :
    ObjectHead gap' pieces := by
  cases h with
  | bare hgap => exact .bare fun lexeme hmem => himp lexeme hmem (hgap lexeme hmem)
  | wrapped hfirst hsecond hthird =>
    simp only [List.forall_mem_append] at himp
    obtain ⟨hfirst', -, hsecond', -, hthird'⟩ := himp
    exact .wrapped (fun lexeme hmem => hfirst' lexeme hmem (hfirst lexeme hmem))
      (fun lexeme hmem => hsecond' lexeme hmem (hsecond lexeme hmem))
      fun lexeme hmem => hthird' lexeme hmem (hthird lexeme hmem)

theorem ExportHead.imp (h : ExportHead gap pieces)
    (himp : ∀ lexeme ∈ pieces, gap lexeme → gap' lexeme) :
    ExportHead gap' pieces := by
  obtain @⟨between, object, hne, hbetween, hobject⟩ := h
  simp only [List.forall_mem_append] at himp
  obtain ⟨-, hbetween', -, hobject'⟩ := himp
  exact .words hne (fun lexeme hmem => hbetween' lexeme hmem (hbetween lexeme hmem))
    (hobject.imp hobject')

/-- Where no value stands between the words, none stands in the head. -/
theorem ExportHead.isValue_eq_false (h : ExportHead gap pieces)
    (hgap : ∀ lexeme, gap lexeme → lexeme.piece.isValue = false) :
    ∀ lexeme ∈ pieces, lexeme.piece.isValue = false := by
  have hgaps {gaps : List Lexeme} (h : ∀ lexeme ∈ gaps, gap lexeme) :
      ∀ lexeme ∈ gaps, lexeme.piece.isValue = false :=
    fun lexeme hmem => hgap lexeme (h lexeme hmem)
  have hcode (word : List Char) : ∀ lexeme ∈ codeOf word, lexeme.piece.isValue = false :=
    fun _ => isValue_of_mem_codeOf
  obtain @⟨between, object, -, hbetween, hobject⟩ := h
  simp only [List.forall_mem_append]
  refine ⟨hcode _, hgaps hbetween, hcode _, ?_⟩
  cases hobject with
  | bare hobject => exact hgaps hobject
  | wrapped hfirst hsecond hthird =>
    simp only [List.forall_mem_append]
    exact ⟨hgaps hfirst, hcode _, hgaps hsecond, hcode _, hgaps hthird⟩

/-- **The words are apart by blanks and comments alone exactly if no value stands between them.** -/
theorem ExportHead.spacing_iff (h : ExportHead NoCode pieces) :
    ExportHead (·.piece.isSpacing = true) pieces ↔
      ∀ lexeme ∈ pieces, lexeme.piece.isValue = false :=
  ⟨fun hspacing => hspacing.isValue_eq_false fun _ hgap => (Piece.isSpacing_iff.1 hgap).2,
    fun hvalue => h.imp fun lexeme hmem hgap => Piece.isSpacing_iff.2 ⟨hgap, hvalue lexeme hmem⟩⟩

end Heads

/-- **Markup goes behind the words of a default export.** A script without a fault takes markup
exactly if somewhere in its code the words of a default export stand before a brace, with nothing
between them that is code. The markup goes in behind the brace of such an export, and nothing else
changes. The words are apart by blanks and comments alone exactly if no string, regular expression
or template stands between them, or between them and the brace. -/
theorem inject_behind_export {logic : List Char} (hcheck : check logic = .ok ())
    (markup : List Char) :
    ((inject? logic markup).isSome = true ↔ ∃ left head right,
      lexemes logic = left ++ head ++ codeOf ['{'] ++ right ∧ ExportHead NoCode head) ∧
    ∀ woven, inject? logic markup = some woven → ∃ left head right,
      lexemes logic = left ++ head ++ codeOf ['{'] ++ right ∧
      woven = written (left ++ head ++ codeOf ['{']) ++ templateProperty markup ++ written right ∧
      ExportHead NoCode head ∧
      (ExportHead (·.piece.isSpacing = true) head ↔ ∀ lexeme ∈ head,
        lexeme.piece.isValue = false) := by
  refine ⟨?_, fun woven h => ?_⟩
  · rw [inject?, Option.isSome_map]
    exact isSome_findObject_iff hcheck
  · obtain ⟨offset, hoffset, rfl⟩ := Option.map_eq_some_iff.1 h
    obtain ⟨left, head, right, hlexemes, hhead, rfl⟩ := exists_head_of_findObject hcheck hoffset
    have hlogic : logic = written (left ++ head ++ codeOf ['{']) ++ written right := by
      rw [← written_append, ← hlexemes]
      exact (flatMap_chars_lexemes hcheck).symm
    refine ⟨left, head, right, hlexemes, ?_, hhead, hhead.spacing_iff⟩
    rw [hlogic, takeBytes_append, dropBytes_append]

/-- A script with a comment between the words of its export. -/
def commentedExport : List Char :=
  ['e', 'x', 'p', 'o', 'r', 't', '/', '*', '*', '/', 'd', 'e', 'f', 'a', 'u', 'l', 't', '{', '}']

/-- A comment between the two words of the export is passed over. -/
theorem inject_behind_export_commented :
    check commentedExport = .ok () ∧ ∃ left head right,
      lexemes commentedExport = left ++ head ++ codeOf ['{'] ++ right ∧
      inject? commentedExport ['m'] =
        some (written (left ++ head ++ codeOf ['{']) ++ templateProperty ['m'] ++ written right) ∧
      ExportHead (·.piece.isSpacing = true) head := by
  have hcheck : check commentedExport = .ok () := by
    with_unfolding_all rfl
  -- The comment is a lexeme between the two words.
  have hlexemes : lexemes commentedExport =
    codeOf "export".toList ++ ([⟨.comment true, ['/', '*', '*', '/']⟩] ++
      (codeOf "default".toList ++ codeOf ['{', '}'])) := by
    with_unfolding_all rfl
  obtain ⟨hsome, hwoven⟩ := inject_behind_export hcheck ['m']
  obtain ⟨woven, h⟩ := Option.isSome_iff_exists.1 (hsome.2 ⟨[], codeOf "export".toList ++
    ([⟨.comment true, ['/', '*', '*', '/']⟩] ++ (codeOf "default".toList ++ [])), codeOf ['}'],
    hlexemes, .words (List.cons_ne_nil _ _) (by simp [NoCode]) (.bare (List.forall_mem_nil _))⟩)
  obtain ⟨left, head, right, hsplit, rfl, -, hspacing⟩ := hwoven woven h
  refine ⟨hcheck, left, head, right, hsplit, h, hspacing.2 fun lexeme hmem => ?_⟩
  have hmem : lexeme ∈ lexemes commentedExport := by
    rw [hsplit]
    simp [hmem]
  -- There is no literal at all in the script, so none is in the head of the export.
  have hall : ∀ lexeme ∈ lexemes commentedExport, lexeme.piece.isValue = false := by
    rw [hlexemes]
    simp [codeOf, Piece.isValue]
  exact hall lexeme hmem

/-- A script that exports a string, with a block in the next line. -/
def exportedString : List Char :=
  ['e', 'x', 'p', 'o', 'r', 't', ' ', 'd', 'e', 'f', 'a', 'u', 'l', 't', ' ', '\'', 'x', '\'', '\n',
    '{', '}']

/-- The pieces of that script up to the block. -/
def exportedStringHead : List Lexeme :=
  codeOf "export".toList ++ ([⟨.blank, [' ']⟩] ++ (codeOf "default".toList ++
    [⟨.blank, [' ']⟩, ⟨.string true, ['\'', 'x', '\'']⟩, ⟨.blank, ['\n']⟩]))

/-- Markup goes into a block behind an exported string, which is no exported object: between the
words and the brace stands a string. -/
theorem inject_behind_string :
    ¬ ∀ logic markup woven, check logic = .ok () → inject? logic markup = some woven →
      ∃ left head right,
      lexemes logic = left ++ head ++ codeOf ['{'] ++ right ∧
      woven = written (left ++ head ++ codeOf ['{']) ++ templateProperty markup ++ written right ∧
      ExportHead (·.piece.isSpacing = true) head := by
  intro hall
  have hcheck : check exportedString = .ok () := by
    with_unfolding_all rfl
  have hlexemes : lexemes exportedString = [] ++ exportedStringHead ++ codeOf ['{'] ++
      codeOf ['}'] := by
    with_unfolding_all rfl
  have hloose : ExportHead NoCode exportedStringHead :=
    .words (List.cons_ne_nil _ _) (by simp [NoCode]) (.bare (by simp [NoCode]))
  obtain ⟨offset, hoffset⟩ :=
    Option.isSome_iff_exists.1 ((isSome_findObject_iff hcheck).2 ⟨[], _, _, hlexemes, hloose⟩)
  obtain ⟨left, head, right, hsplit, -, hhead⟩ :=
    hall exportedString [] _ hcheck (by rw [inject?, hoffset]; rfl)
  -- There is one opening brace, so what stands before it is known, and the string is the last piece
  -- but one of that.
  have hbrace : (⟨.plain, ['{']⟩ : Lexeme) ∉ exportedStringHead ∧
      (⟨.plain, ['{']⟩ : Lexeme) ∉ codeOf ['}'] := by
    decide
  have hsame : exportedStringHead ++ ⟨.plain, ['{']⟩ :: codeOf ['}'] =
      left ++ head ++ ⟨.plain, ['{']⟩ :: right := by
    have htwo := hlexemes.symm.trans hsplit
    rwa [List.append_assoc, List.append_assoc (left ++ head)] at htwo
  obtain ⟨hbefore, -⟩ := (List.append_cons_inj_of_notMem hbrace.1 hbrace.2).1 hsame
  have hstring : [⟨.string true, ['\'', 'x', '\'']⟩, ⟨.blank, ['\n']⟩] <:+ left ++ head :=
    hbefore ▸ ⟨exportedStringHead.take 15, by decide⟩
  have hlong : 2 ≤ head.length := by
    obtain @⟨between, object⟩ := hhead
    simp [codeOf]
  have hmem := (List.suffix_of_suffix_length_le hstring (List.suffix_append left head) hlong).subset
    List.mem_cons_self
  cases hhead.isValue_eq_false (fun _ hgap => (Piece.isSpacing_iff.1 hgap).2) _ hmem

end Triptych.Script
