import Triptych.Text.Position

/-!
# Slices of a text

Offsets count bytes, texts are lists of characters. The two meet in one notion: `Covers source span
chars` says that `span` cuts `chars` out of `source`. It holds only if both ends of the span are
boundaries between characters, and it determines the slice (`Covers.slice_eq`).

A reader of a source stands somewhere in it: `Advances 0 source pos text` says that `text` is what
is left of `source` at `pos`. `Covers.of_advances` is the step from where a reader stands to what a
span covers.
-/

namespace Triptych.Text

/-! ### Cutting at a known place -/

/-- The first bytes of a text are those of the part that is known to be as long. -/
theorem takeBytes_append (xs ys : List Char) : takeBytes (byteLength xs) (xs ++ ys) = xs := by
  induction xs with
  | nil => cases ys <;> rfl
  | cons c cs ih =>
    have hpos := c.utf8Size_pos
    rw [List.cons_append, byteLength_cons]
    obtain ⟨n, hn⟩ : ∃ n, c.utf8Size + byteLength cs = n + 1 :=
      ⟨c.utf8Size + byteLength cs - 1, by omega⟩
    rw [hn, takeBytes, ← hn, Nat.add_sub_cancel_left, ih]
    simp

/-- What follows the first bytes of a text is what follows the part that is known to be as long. -/
theorem dropBytes_append (xs ys : List Char) : dropBytes (byteLength xs) (xs ++ ys) = ys := by
  induction xs with
  | nil => cases ys <;> rfl
  | cons c cs ih =>
    have hpos := c.utf8Size_pos
    rw [List.cons_append, byteLength_cons]
    obtain ⟨n, hn⟩ : ∃ n, c.utf8Size + byteLength cs = n + 1 :=
      ⟨c.utf8Size + byteLength cs - 1, by omega⟩
    rw [hn, dropBytes, ← hn, Nat.add_sub_cancel_left, ih]
    simp

/-- A text that is not empty has at least one byte. -/
theorem byteLength_pos {xs : List Char} (h : xs ≠ []) : 0 < byteLength xs := by
  obtain ⟨c, cs, rfl⟩ := List.exists_cons_of_ne_nil h
  have hpos := c.utf8Size_pos
  rw [byteLength_cons]
  omega

/-- Every character has at least one byte. -/
theorem length_le_byteLength (cs : List Char) : cs.length ≤ byteLength cs := by
  induction cs with
  | nil => simp
  | cons c cs ih =>
    have hpos := c.utf8Size_pos
    simp only [List.length_cons, byteLength_cons]
    omega

/-- A text has as many bytes as characters if each character has one byte. -/
theorem length_eq_byteLength_iff {cs : List Char} :
    cs.length = byteLength cs ↔ ∀ c ∈ cs, c.utf8Size = 1 := by
  induction cs with
  | nil => simp
  | cons c cs ih =>
    have hpos := c.utf8Size_pos
    have hle := length_le_byteLength cs
    rw [List.length_cons, byteLength_cons, List.forall_mem_cons, ← ih]
    omega

/-! ### What a span covers -/

/-- **A span cuts a piece out of a source**: the piece stands there, and the two offsets are those
of its ends, so that both are boundaries between characters. -/
def Covers (source : List Char) (span : Span) (chars : List Char) : Prop :=
  ∃ before after, source = before ++ (chars ++ after) ∧ span.start = byteLength before ∧
    span.stop = byteLength before + byteLength chars

/-- **A boundary of a text**: an offset at which no character is cut, from the start of the text up
to its end. -/
def IsBoundary (text : List Char) (offset : Nat) : Prop :=
  ∃ before after, text = before ++ after ∧ byteLength before = offset

namespace Covers

variable {source chars : List Char} {span : Span}

/-- What a span covers is its slice. -/
theorem slice_eq (h : Covers source span chars) : slice source span = chars := by
  obtain ⟨before, after, rfl, hstart, hstop⟩ := h
  unfold slice
  rw [hstop, hstart, Nat.add_sub_cancel_left, dropBytes_append, takeBytes_append]

theorem start_le_stop (h : Covers source span chars) : span.start ≤ span.stop := by
  obtain ⟨before, after, -, hstart, hstop⟩ := h
  omega

theorem start_lt_stop (h : Covers source span chars) (hne : chars ≠ []) :
    span.start < span.stop := by
  obtain ⟨before, after, -, hstart, hstop⟩ := h
  have hpos := byteLength_pos hne
  omega

/-- A span that covers something lies in the source. -/
theorem stop_le (h : Covers source span chars) : span.stop ≤ byteLength source := by
  obtain ⟨before, after, rfl, hstart, hstop⟩ := h
  rw [byteLength_append, byteLength_append]
  omega

theorem isBoundary_start (h : Covers source span chars) : IsBoundary source span.start := by
  obtain ⟨before, after, rfl, hstart, hstop⟩ := h
  exact ⟨before, chars ++ after, rfl, hstart.symm⟩

theorem isBoundary_stop (h : Covers source span chars) : IsBoundary source span.stop := by
  obtain ⟨before, after, rfl, hstart, hstop⟩ := h
  exact ⟨before ++ chars, after, by simp, by rw [hstop, byteLength_append]⟩

/-- A span covers what a reader finds where the span starts. -/
theorem of_advances {pos : Nat} {rest : List Char} (h : Advances 0 source pos (chars ++ rest)) :
    Covers source ⟨pos, pos + byteLength chars⟩ chars := by
  obtain ⟨read, rfl, rfl⟩ := h
  exact ⟨read, rest, rfl, by simp, by simp⟩

/-- What a span covers goes on up to where a reader stands. -/
theorem extend {pos : Nat} {rest : List Char} (h : Covers source span chars)
    (hreader : Advances 0 source pos rest) (hle : span.stop ≤ pos) :
    ∃ more, Covers source ⟨span.start, pos⟩ (chars ++ more) := by
  obtain ⟨before, after, rfl, hstart, hstop⟩ := h
  obtain ⟨read, hread, rfl⟩ := hreader
  rw [← List.append_assoc] at hread
  -- Piece and reader cut the same source, so one of the two cuts is further on.
  rcases List.append_eq_append_iff.1 hread with ⟨more, rfl, rfl⟩ | ⟨more, hmore, rfl⟩
  · exact ⟨more, before, rest, by simp, hstart, by simp⟩
  · -- The reader cannot stand before the end of the piece, so it stands right there.
    have hlength := congrArg byteLength hmore
    simp only [byteLength_append] at hlength
    obtain rfl : more = [] := by
      refine Decidable.byContradiction fun hne => ?_
      have hpos := byteLength_pos hne
      omega
    refine ⟨[], before, after, by simp, hstart, ?_⟩
    simp only [byteLength_nil, List.append_nil] at hlength ⊢
    omega

end Covers

/-- What is left of a source where a reader stands. -/
theorem Advances.dropBytes_eq {source rest : List Char} {pos : Nat}
    (h : Advances 0 source pos rest) :
    dropBytes pos source = rest := by
  obtain ⟨read, rfl, rfl⟩ := h
  rw [Nat.zero_add, dropBytes_append]

theorem Advances.pos_le_stop {pos stop : Nat} {text rest : List Char}
    (h : Advances pos text stop rest) :
    pos ≤ stop := by
  obtain ⟨read, -, rfl⟩ := h
  exact Nat.le_add_right _ _

/-- Where a reader comes to when it reads a piece. -/
theorem Advances.read {source chars rest : List Char} {pos : Nat}
    (h : Advances 0 source pos (chars ++ rest)) :
    Advances 0 source (pos + byteLength chars) rest :=
  h.trans ⟨chars, rfl, rfl⟩

end Triptych.Text
