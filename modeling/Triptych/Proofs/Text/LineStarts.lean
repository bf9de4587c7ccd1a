import Mathlib.Data.List.Induction
import Triptych.Proofs.Text.Padding
import Triptych.Proofs.Text.Slice

/-!
# Where lines start

`Location.ofOffset` leads from an offset to a line and a column, `lineStart` from a line to an
offset. One reads characters and counts bytes, the other looks for line feeds; they meet at the
texts behind which a line starts (`EndsLine`). Such a text above a place is what `lineStart`
measures (`lineStart_append`), and a reader that has read it stands in the first column of the line
it counts (`Location.advanceAll_of_endsLine`).

Every text is such a text and a piece of a line behind it (`exists_lastLine`), and a text has one
for each of its line feeds (`exists_lines`). So the two functions are inverse to each other:

* from an offset to its location and back to the start of the line, what is left over is a piece of
  that line, as long as the column says;
* from a line to its start and back one comes to the line again, in its first column.

`ofOffset_lineStart` states both, and that locations are ordered as offsets are
(`Location.Precedes`).
-/

namespace Triptych

namespace Text

/-! ### Whole lines -/

/-- A line starts behind the text: it is empty, or it ends with a line feed. -/
def EndsLine (above : List Char) : Prop :=
  above = [] ∨ ∃ init, above = init ++ ['\n']

/-- A line of the source starts at the offset: it is the first one, or a line feed stands right
before it. -/
def StartsLine (source : List Char) (offset : Nat) : Prop :=
  offset = 0 ∨ ∃ before after, source = before ++ '\n' :: after ∧
    offset = byteLength (before ++ ['\n'])

theorem endsLine_nil : EndsLine [] := .inl rfl

theorem endsLine_newline (init : List Char) : EndsLine (init ++ ['\n']) := .inr ⟨init, rfl⟩

theorem EndsLine.newline_cons {above : List Char} (h : EndsLine above) :
    EndsLine ('\n' :: above) := by
  rcases h with rfl | ⟨init, rfl⟩
  · exact endsLine_newline []
  · exact endsLine_newline ('\n' :: init)

theorem EndsLine.cons {above : List Char} (h : EndsLine above) (hne : above ≠ []) (c : Char) :
    EndsLine (c :: above) := by
  obtain ⟨init, rfl⟩ := h.resolve_left hne
  exact endsLine_newline (c :: init)

/-- Behind its first character a text still ends a line, unless that character was all of it, and
then it is a line feed. -/
theorem EndsLine.of_cons {c : Char} {above : List Char} (h : EndsLine (c :: above)) :
    EndsLine above ∧ (above = [] → c = '\n') := by
  obtain ⟨init, hinit⟩ := h.resolve_left (List.cons_ne_nil c above)
  cases init with
  | nil =>
    obtain ⟨rfl, rfl⟩ := List.cons.inj hinit
    exact ⟨endsLine_nil, fun _ => rfl⟩
  | cons d init =>
    obtain ⟨rfl, rfl⟩ := List.cons.inj hinit
    exact ⟨endsLine_newline init, fun hnil => absurd hnil (by simp)⟩

/-- A text that is not empty and ends a line has a line feed. -/
theorem EndsLine.count_pos {above : List Char} (h : EndsLine above) (hne : above ≠ []) :
    0 < above.count '\n' := by
  obtain ⟨init, rfl⟩ := h.resolve_left hne
  rw [List.count_append, List.count_singleton_self]
  omega

/-- Behind a text that ends a line, a line starts. -/
theorem EndsLine.startsLine {above : List Char} (h : EndsLine above) (below : List Char) :
    StartsLine (above ++ below) (byteLength above) := by
  rcases h with rfl | ⟨init, rfl⟩
  · exact .inl rfl
  · exact .inr ⟨init, below, by simp, rfl⟩

/-- **Every text is whole lines and a piece of a line behind them.** -/
theorem exists_lastLine (text : List Char) :
    ∃ above within, text = above ++ within ∧ EndsLine above ∧ '\n' ∉ within := by
  -- From the end: a line feed that is put behind the text ends its last line, anything else makes
  -- it longer.
  induction text using List.reverseRecOn with
  | nil => exact ⟨[], [], rfl, endsLine_nil, List.not_mem_nil⟩
  | append_singleton text c ih =>
    by_cases hc : c = '\n'
    · exact ⟨text ++ [c], [], by simp, hc ▸ endsLine_newline text, List.not_mem_nil⟩
    · obtain ⟨above, within, rfl, habove, hwithin⟩ := ih
      refine ⟨above, within ++ [c], by simp, habove, ?_⟩
      rw [List.mem_append, List.mem_singleton]
      rintro (hmem | hmem)
      · exact hwithin hmem
      · exact hc hmem.symm

/-- A text has whole lines of any number up to that of its line feeds. -/
theorem exists_lines {text : List Char} {count : Nat} (h : count ≤ text.count '\n') :
    ∃ above below, text = above ++ below ∧ EndsLine above ∧ above.count '\n' = count := by
  induction text generalizing count with
  | nil =>
    obtain rfl : count = 0 := by simpa using h
    exact ⟨[], [], rfl, endsLine_nil, rfl⟩
  | cons c cs ih =>
    cases count with
    | zero => exact ⟨[], c :: cs, rfl, endsLine_nil, rfl⟩
    | succ count =>
      by_cases hc : c = '\n'
      · -- The line feed is one of those that are asked for.
        subst hc
        rw [List.count_cons_self] at h
        obtain ⟨above, below, rfl, habove, hcount⟩ := ih (Nat.le_of_succ_le_succ h)
        exact ⟨'\n' :: above, below, rfl, habove.newline_cons, by rw [List.count_cons_self, hcount]⟩
      · rw [List.count_cons_of_ne hc] at h
        obtain ⟨above, below, rfl, habove, hcount⟩ := ih h
        -- The line that is begun here goes on, since a line feed is still to come.
        have hne : above ≠ [] := by
          rintro rfl
          simp at hcount
        exact ⟨c :: above, below, rfl, habove.cons hne c, by rw [List.count_cons_of_ne hc, hcount]⟩

/-! ### The start of a line -/

theorem count_newline_cons (c : Char) (cs : List Char) :
    (c :: cs).count '\n' = [c].count '\n' + cs.count '\n' := by
  rw [← List.count_append, List.singleton_append]

/-- The first line starts where the text does. -/
theorem lineStart_one (source : List Char) : lineStart source 1 = 0 := by
  cases source with
  | nil => rfl
  | cons c cs => exact if_pos (Nat.le_refl 1)

/-- A line behind the first one starts further on: behind the character, and one line less far on if
that is a line feed. -/
theorem lineStart_cons {line : Nat} (hline : 1 < line) (c : Char) (cs : List Char) :
    lineStart (c :: cs) line = c.utf8Size + lineStart cs (line - [c].count '\n') := by
  rw [lineStart, if_neg (Nat.not_le.2 hline)]
  by_cases hc : c = '\n'
  · rw [if_pos hc, hc, List.count_singleton_self]
  · rw [if_neg hc, List.count_cons_of_ne hc, List.count_nil, Nat.sub_zero]

/-- **The line behind whole lines starts where they end.** -/
theorem lineStart_append {above : List Char} (h : EndsLine above) (below : List Char) :
    lineStart (above ++ below) (above.count '\n' + 1) = byteLength above := by
  induction above with
  | nil => exact lineStart_one below
  | cons c above ih =>
    have hpos := h.count_pos (List.cons_ne_nil c above)
    have hcount := count_newline_cons c above
    have hrest : (c :: above).count '\n' + 1 - [c].count '\n' = above.count '\n' + 1 := by omega
    rw [List.cons_append, lineStart_cons (by omega), hrest, ih h.of_cons.1, byteLength_cons]

/-- **A line beyond the last one starts at the end of the text.** -/
theorem lineStart_of_count_lt {source : List Char} {line : Nat} (h : source.count '\n' + 1 < line) :
    lineStart source line = byteLength source := by
  induction source generalizing line with
  | nil => rfl
  | cons c cs ih =>
    have hcount := count_newline_cons c cs
    rw [lineStart_cons (by omega), ih (by omega), byteLength_cons]

end Text

namespace Location

open Text

/-! ### The order of locations -/

/-- One location comes before another: on an earlier line, or on the same one further left. -/
def Precedes (loc later : Location) : Prop :=
  loc.line < later.line ∨ loc.line = later.line ∧ loc.column < later.column

theorem Precedes.trans {loc mid later : Location} (h₁ : loc.Precedes mid)
    (h₂ : mid.Precedes later) :
    loc.Precedes later := by
  unfold Precedes at *
  omega

/-- Every character leads on: a line feed to the next line, any other to the right. -/
theorem precedes_advance (loc : Location) (c : Char) : loc.Precedes (loc.advance c) := by
  unfold advance
  split
  · exact .inl (Nat.lt_succ_self _)
  · exact .inr ⟨rfl, Nat.lt_succ_self _⟩

/-- **Reading leads on.** -/
theorem precedes_advanceAll {read : List Char} (h : read ≠ []) (loc : Location) :
    loc.Precedes (loc.advanceAll read) := by
  induction read generalizing loc with
  | nil => contradiction
  | cons c cs ih =>
    by_cases hcs : cs = []
    · rw [hcs]
      exact precedes_advance loc c
    · exact (precedes_advance loc c).trans (ih hcs (loc.advance c))

/-- A place further on in the text has a later location. -/
theorem ofOffset_precedes {source : List Char} {offset later : Nat}
    (hoffset : IsBoundary source offset) (hlater : IsBoundary source later) (hlt : offset < later) :
    (ofOffset source offset).Precedes (ofOffset source later) := by
  obtain ⟨before, after, rfl, rfl⟩ := hoffset
  obtain ⟨before', after', hcut, rfl⟩ := hlater
  -- The longer beginning of the source goes on from the shorter one.
  rcases List.append_eq_append_iff.1 hcut with ⟨more, rfl, rfl⟩ | ⟨more, rfl, rfl⟩
  · have hmore : more ≠ [] := by
      rintro rfl
      simp at hlt
    rw [ofOffset_append, ← List.append_assoc, ofOffset_append, advanceAll_append]
    exact precedes_advanceAll hmore _
  · rw [byteLength_append] at hlt
    omega

/-! ### Back and forth -/

/-- A reader of whole lines stands at the start of a line. -/
theorem advanceAll_of_endsLine {above : List Char} (h : EndsLine above) :
    ({} : Location).advanceAll above = ⟨above.count '\n' + 1, 1⟩ := by
  rcases h with rfl | ⟨init, rfl⟩
  · rfl
  · rw [advanceAll_newline, moveDown, List.count_append, List.count_singleton_self, Nat.add_comm 1]

/-- The location of a place in a line: as many lines down as line feeds are above, and as far right
as the piece of the line before it is long. -/
theorem ofOffset_within {above within : List Char} (habove : EndsLine above)
    (hwithin : '\n' ∉ within) (after : List Char) :
    ofOffset (above ++ within ++ after) (byteLength (above ++ within)) =
      ⟨above.count '\n' + 1, within.length + 1⟩ := by
  rw [ofOffset_append, advanceAll_append, advanceAll_of_endsLine habove,
    advanceAll_of_notMem hwithin, Nat.add_comm 1]

end Location

open Text

/-- **Locations and the starts of lines are inverse to each other.** From the start of its line a
place is as many characters away, none of them a line feed, as its column says, and that start is
the start of the source or right behind a line feed. The start of each line that the source has is
located on that line, in the first column, and lines beyond the last one start at the end. So
locations are ordered as the places are. -/
theorem ofOffset_lineStart (source : List Char) :
    (∀ offset, IsBoundary source offset →
      lineStart source (Location.ofOffset source offset).line ≤ offset ∧
      StartsLine source (lineStart source (Location.ofOffset source offset).line) ∧
      ∃ within, Covers source ⟨lineStart source (Location.ofOffset source offset).line, offset⟩
        within ∧
        '\n' ∉ within ∧ within.length = (Location.ofOffset source offset).column - 1) ∧
    (∀ line, 1 ≤ line → line ≤ 1 + source.count '\n' →
      Location.ofOffset source (lineStart source line) = ⟨line, 1⟩) ∧
    (∀ line, 1 + source.count '\n' < line → lineStart source line = byteLength source) ∧
    ∀ offset later, IsBoundary source offset → IsBoundary source later → offset < later →
      (Location.ofOffset source offset).Precedes (Location.ofOffset source later) := by
  refine ⟨?_, ?_, fun line hline => lineStart_of_count_lt (by omega),
    fun offset later => Location.ofOffset_precedes⟩
  · rintro offset ⟨before, after, rfl, rfl⟩
    -- Above the line the text before the place is whole lines, and these are what `lineStart`
    -- measures.
    obtain ⟨above, within, rfl, habove, hwithin⟩ := exists_lastLine before
    have hstart : lineStart (above ++ within ++ after) (above.count '\n' + 1) =
        byteLength above := by
      rw [List.append_assoc, lineStart_append habove]
    have hlocation := Location.ofOffset_within habove hwithin after
    rw [hlocation, hstart]
    refine ⟨?_, ?_, within, ⟨above, after, by simp, rfl, by simp⟩, hwithin, rfl⟩
    · rw [byteLength_append]
      exact Nat.le_add_right _ _
    · rw [List.append_assoc]
      exact habove.startsLine (within ++ after)
  · intro line hone hline
    have hlines : line - 1 ≤ source.count '\n' := by omega
    obtain ⟨above, below, rfl, habove, hcount⟩ := exists_lines hlines
    obtain rfl : line = above.count '\n' + 1 := by omega
    rw [lineStart_append habove, Location.ofOffset_append, Location.advanceAll_of_endsLine habove]

/-- The accents take two bytes, and one column each. -/
theorem ofOffset_lineStart_accent :
    lineStart ['é', '\n', 'ü', 'b'] 2 = 3 ∧
    Location.ofOffset ['é', '\n', 'ü', 'b'] 5 = ⟨2, 2⟩ ∧
    Covers ['é', '\n', 'ü', 'b'] ⟨3, 5⟩ ['ü'] ∧
    Location.ofOffset ['é', '\n', 'ü', 'b'] 3 = ⟨2, 1⟩ ∧
    lineStart ['é', '\n', 'ü', 'b'] 3 = 6 ∧
    Location.Precedes ⟨2, 1⟩ ⟨2, 2⟩ := by
  obtain ⟨hback, hforth, hbeyond, horder⟩ := ofOffset_lineStart ['é', '\n', 'ü', 'b']
  have hplace : IsBoundary ['é', '\n', 'ü', 'b'] 5 := ⟨['é', '\n', 'ü'], ['b'], rfl, rfl⟩
  have hhead : IsBoundary ['é', '\n', 'ü', 'b'] 3 := ⟨['é', '\n'], ['ü', 'b'], rfl, rfl⟩
  obtain ⟨-, -, within, hcovers, -⟩ := hback 5 hplace
  have hwithin : slice ['é', '\n', 'ü', 'b'] ⟨3, 5⟩ = within := hcovers.slice_eq
  obtain rfl : ['ü'] = within := hwithin
  exact ⟨rfl, rfl, hcovers, hforth 2 (by decide) (by decide), hbeyond 3 (by decide),
    horder 3 5 hhead hplace (by decide)⟩

end Triptych
