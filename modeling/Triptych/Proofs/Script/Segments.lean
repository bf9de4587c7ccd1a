import Triptych.Proofs.Script.Turns
import Triptych.Proofs.Text.Slice
import Triptych.Script.Inject

/-!
# Where the default exported object opens

The search for the default exported object goes through the mask of a script and returns an offset.
This module leads from the offset back to the script: the segments make up the script
(`flatMap_chars_segments`), a segment and its mask have the same number of bytes, and what is not a
literal is a single character. So a brace of the mask is a segment of the script
(`exists_segment_of_mask`), and markup is put right after such a segment (`inject?_segments`).
-/

namespace Triptych.Script

open Text Code

/-! ### Segments -/

/-- **The segments of a text make up the text.** -/
theorem flatMap_chars_segments (braces : List Bool) (previous : Option Char) (text : List Char) :
    (segments braces previous text).flatMap Segment.chars = text := by
  match text with
  | [] => rw [segments.eq_def]; rfl
  | c :: text =>
    have hshorter := readPiece_rest_le (braces.head? == some true) previous c text
    rw [segments_cons, List.flatMap_cons, flatMap_chars_segments]
    exact readPiece_append _ previous c text
termination_by text.length
decreasing_by simp only [List.length_cons]; omega

/-- What is no literal is read as a single character. -/
theorem chars_of_not_isLiteral {resumes : Bool} {previous : Option Char} {c : Char}
    {text : List Char} (h : (readPiece resumes previous c text).piece.isLiteral = false) :
    (readPiece resumes previous c text).chars = [c] := by
  unfold readPiece at h ⊢
  split at h
  -- A template that goes on behind a brace is a literal.
  next => contradiction
  next hresumes =>
    rw [if_neg hresumes]
    have hsteps := steps_step previous c text
    generalize step previous c text = s at *
    cases hsteps with
    | blank | plain => rfl
    | lineComment | blockComment | regex | string | template => contradiction

/-- What is not a literal is a single character. -/
theorem exists_chars_of_mem_segments {braces : List Bool} {previous : Option Char}
    {text : List Char} {segment : Segment} (h : segment ∈ segments braces previous text)
    (hcode : segment.isLiteral = false) :
    ∃ c, segment.chars = [c] := by
  match text with
  | [] =>
    rw [segments.eq_def] at h
    contradiction
  | c :: text =>
    have hshorter := readPiece_rest_le (braces.head? == some true) previous c text
    rw [segments_cons, List.mem_cons] at h
    rcases h with rfl | h
    · exact ⟨c, chars_of_not_isLiteral hcode⟩
    · exact exists_chars_of_mem_segments h hcode
termination_by text.length
decreasing_by simp only [List.length_cons]; omega

/-! ### Masks -/

/-- A segment and its mask have the same number of bytes. -/
theorem byteLength_masked (segment : Segment) :
    byteLength segment.masked = byteLength segment.chars := by
  have hspaces (n : Nat) : byteLength (List.replicate n ' ') = n := by
    induction n with
    | zero => rfl
    | succ n ih => rw [List.replicate_succ, byteLength_cons, ih, Nat.add_comm]; rfl
  unfold Segment.masked
  split
  · exact hspaces _
  · rfl

/-- Masking keeps the length of every segment. -/
theorem byteLength_flatMap_masked (segs : List Segment) :
    byteLength (segs.flatMap Segment.masked) = byteLength (segs.flatMap Segment.chars) := by
  induction segs with
  | nil => rfl
  | cons segment segs ih => simp only [List.flatMap_cons, byteLength_append, byteLength_masked, ih]

/-- **A visible character of a mask is a segment of its own.** -/
theorem exists_segment_of_mask {segs : List Segment}
    (hcode : ∀ segment ∈ segs, segment.isLiteral = false → ∃ c, segment.chars = [c]) {c : Char}
    (hc : c ≠ ' ') {before rest : List Char}
    (h : segs.flatMap Segment.masked = before ++ c :: rest) :
    ∃ left right, segs = left ++ ⟨false, [c]⟩ :: right ∧ left.flatMap Segment.masked = before := by
  induction segs generalizing before with
  | nil => simp at h
  | cons segment segs ih =>
    rw [List.forall_mem_cons] at hcode
    rw [List.flatMap_cons] at h
    obtain ⟨isLiteral, chars⟩ := segment
    cases isLiteral with
    | true =>
      -- `c` is not among the spaces of a literal, so it stands behind them
      rcases List.append_eq_append_iff.1 h with ⟨between, rfl, hrest⟩ | ⟨between, hspaces, hrest⟩
      · obtain ⟨left, right, rfl, rfl⟩ := ih hcode.2 hrest
        exact ⟨_ :: left, right, rfl, rfl⟩
      · have hspaces : List.replicate (byteLength chars) ' ' = before ++ between := hspaces
        have hbetween : between = [] := by
          refine List.eq_nil_iff_forall_not_mem.2 fun d hd => ?_
          have hspace : c ∈ List.replicate (byteLength chars) ' ' := by
            obtain ⟨d, tail, rfl⟩ := List.exists_cons_of_ne_nil (List.ne_nil_of_mem hd)
            obtain ⟨rfl, -⟩ := List.cons.inj hrest
            exact hspaces ▸ List.mem_append_right before List.mem_cons_self
          exact hc (List.eq_of_mem_replicate hspace)
        rw [hbetween, List.nil_append] at hrest
        rw [hbetween, List.append_nil] at hspaces
        obtain ⟨left, right, rfl, hleft⟩ := @ih hcode.2 [] hrest.symm
        refine ⟨_ :: left, right, rfl, ?_⟩
        rw [List.flatMap_cons, hleft, List.append_nil]
        exact hspaces
    | false =>
      -- Code is masked as itself, one character at a time.
      obtain ⟨d, hd⟩ := hcode.1 rfl
      obtain rfl : chars = [d] := hd
      rcases List.cons_eq_append_iff.1 h with ⟨rfl, hrest⟩ | ⟨before, rfl, hrest⟩
      · obtain ⟨rfl, -⟩ := List.cons.inj hrest
        exact ⟨[], segs, rfl, rfl⟩
      · obtain ⟨left, right, rfl, rfl⟩ := ih hcode.2 hrest
        exact ⟨_ :: left, right, rfl, rfl⟩

/-! ### The search for the object -/

/-- The text goes on up to a brace, behind which `rest` stands. -/
def LeadsToBrace (text rest : List Char) : Prop :=
  ∃ before, text = before ++ '{' :: rest

namespace LeadsToBrace

variable {text rest : List Char}

/-- A way to a brace may start earlier. -/
theorem append (before : List Char) (h : LeadsToBrace text rest) :
    LeadsToBrace (before ++ text) rest := by
  obtain ⟨between, rfl⟩ := h
  exact ⟨before ++ between, by rw [List.append_assoc]⟩

theorem of_trimStart (h : LeadsToBrace (trimStart text) rest) : LeadsToBrace text rest := by
  have happend := h.append (text.takeWhile isBlank)
  rwa [trimStart, List.takeWhile_append_dropWhile] at happend

theorem of_after? {word tail : List Char} (hword : after? word text = some tail)
    (h : LeadsToBrace tail rest) :
    LeadsToBrace text rest := by
  unfold after? at hword
  split at hword
  next hprefix =>
    obtain ⟨tail', rfl⟩ := List.isPrefixOf_iff_prefix.1 hprefix
    obtain rfl : tail' = tail := by simpa using hword
    exact h.append word
  next => contradiction

/-- **Each part of the search for an export leads to a brace.** -/
theorem of_afterBrace? (h : afterBrace? text = some rest) : LeadsToBrace text rest := by
  unfold afterBrace? at h
  split at h
  next tail =>
    obtain rfl : tail = rest := by simpa using h
    exact ⟨[], rfl⟩
  next => contradiction

theorem of_afterWrapper? (h : afterWrapper? text = some rest) : LeadsToBrace text rest := by
  obtain ⟨tail, hword, h⟩ := Option.bind_eq_some_iff.1 h
  refine of_after? hword (of_trimStart ?_)
  split at h
  -- A call of the wrapper: the object is its first argument.
  next inner hparen =>
    rw [hparen]
    exact (of_trimStart (of_afterBrace? h)).append ['(']
  next => contradiction

theorem of_afterExport? (h : afterExport? text = some rest) : LeadsToBrace text rest := by
  obtain ⟨tail, hword, h⟩ := Option.bind_eq_some_iff.1 h
  refine of_after? hword ?_
  split at h
  next c tail =>
    split at h
    next =>
      obtain ⟨object, hdefault, h⟩ := Option.bind_eq_some_iff.1 h
      refine (of_trimStart (of_after? hdefault (of_trimStart ?_))).append [c]
      -- The object stands bare or wrapped.
      dsimp only at h
      cases hbare : afterBrace? (trimStart object) with
      | some found =>
        rw [hbare] at h
        obtain rfl : found = rest := Option.some.inj h
        exact of_afterBrace? hbare
      | none =>
        rw [hbare] at h
        exact of_afterWrapper? h
    next => contradiction
  next => contradiction

end LeadsToBrace

/-- What is found is an export, and the offset is that of the text behind its brace. -/
theorem exists_export_of_findObject {pos offset : Nat} {text : List Char}
    (h : findObject pos text = some offset) :
    ∃ before found rest, text = before ++ found ∧ afterExport? found = some rest ∧
      offset = pos + byteLength before + (byteLength found - byteLength rest) := by
  induction text generalizing pos with
  | nil => contradiction
  | cons c text ih =>
    rw [findObject] at h
    split at h
    next rest hexport => exact ⟨[], c :: text, rest, rfl, hexport, (Option.some.inj h).symm⟩
    next =>
      obtain ⟨before, found, rest, rfl, hexport, rfl⟩ := ih h
      exact ⟨c :: before, found, rest, rfl, hexport, by rw [byteLength_cons, Nat.add_assoc pos]⟩

/-- The offset that is found is that of the text behind a brace. -/
theorem exists_brace_of_findObject {pos offset : Nat} {text : List Char}
    (h : findObject pos text = some offset) :
    ∃ before rest, text = before ++ '{' :: rest ∧ offset = pos + byteLength (before ++ ['{']) := by
  obtain ⟨before, found, rest, rfl, hexport, rfl⟩ := exists_export_of_findObject h
  obtain ⟨between, rfl⟩ := LeadsToBrace.of_afterExport? hexport
  refine ⟨before ++ between, rest, (List.append_assoc ..).symm, ?_⟩
  -- The offset is reckoned from the end, by what is left behind the brace.
  simp only [byteLength_append, byteLength_cons, byteLength_nil]
  omega

/-- **Markup is put right after an opening brace of the code**, one that is a segment of its own. -/
theorem inject?_segments {logic markup woven : List Char} (h : inject? logic markup = some woven) :
    ∃ left right, segments [] none logic = left ++ ⟨false, ['{']⟩ :: right ∧
      findObject 0 (mask logic) = some (byteLength (left.flatMap Segment.chars ++ ['{'])) ∧
      woven = left.flatMap Segment.chars ++
        '{' :: (templateProperty markup ++ right.flatMap Segment.chars) := by
  obtain ⟨offset, hoffset, rfl⟩ := Option.map_eq_some_iff.1 h
  obtain ⟨before, rest, hmask, rfl⟩ := exists_brace_of_findObject hoffset
  obtain ⟨left, right, hsegments, rfl⟩ :=
    exists_segment_of_mask (fun _ => exists_chars_of_mem_segments) (by decide) hmask
  -- The offset counts the same bytes in the script as in its mask.
  have hlogic := flatMap_chars_segments [] none logic
  rw [hsegments, List.flatMap_append, List.flatMap_cons, ← List.append_assoc] at hlogic
  have hsize : 0 + byteLength (left.flatMap Segment.masked ++ ['{']) =
      byteLength (left.flatMap Segment.chars ++ ['{']) := by
    rw [Nat.zero_add, byteLength_append, byteLength_append, byteLength_flatMap_masked]
  rw [hsize] at hoffset ⊢
  refine ⟨left, right, hsegments, hoffset, ?_⟩
  rw [← hlogic, takeBytes_append, dropBytes_append, List.append_assoc, List.append_assoc]
  rfl

end Triptych.Script
