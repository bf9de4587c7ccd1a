import Triptych.Text.Position

/-!
# Where reading leads

The location of an offset is the one that reading up to it leads to (`Location.ofOffset_append`), so
it depends on nothing that comes later. Reading can be interrupted anywhere (`advanceAll_append`),
and leads down by one line for each line feed (`line_advanceAll`), and along a line by one column
for each character (`advanceAll_of_notMem`). It never leads before the first column
(`one_le_column_advanceAll`).
-/

namespace Triptych.Location

open Text

theorem advanceAll_append (loc : Location) (xs ys : List Char) :
    loc.advanceAll (xs ++ ys) = (loc.advanceAll xs).advanceAll ys := by
  unfold advanceAll
  rw [List.foldl_append]

/-- Only a line feed leads to another line. -/
theorem line_advance (loc : Location) (c : Char) :
    (loc.advance c).line = loc.line + [c].count '\n' := by
  unfold advance
  split
  next hc => simp [hc]
  next hc => simp [hc]

/-- Reading a text leads as many lines down as it has line feeds. -/
theorem line_advanceAll (loc : Location) (text : List Char) :
    (loc.advanceAll text).line = loc.line + text.count '\n' := by
  induction text generalizing loc with
  | nil => rfl
  | cons c cs ih =>
    have hrest : ((loc.advance c).advanceAll cs).line = (loc.advance c).line + cs.count '\n' :=
      ih (loc.advance c)
    rw [← List.singleton_append, List.count_append, ← Nat.add_assoc, ← line_advance]
    exact hrest

/-- Without line feeds each character leads one column further on the same line. -/
theorem advanceAll_of_notMem {text : List Char} (h : '\n' ∉ text) (loc : Location) :
    loc.advanceAll text = ⟨loc.line, loc.column + text.length⟩ := by
  induction text generalizing loc with
  | nil => rfl
  | cons c cs ih =>
    obtain ⟨hc, hcs⟩ := not_or.1 (mt List.mem_cons.2 h)
    have hnext : loc.advance c = ⟨loc.line, loc.column + 1⟩ := if_neg (Ne.symm hc)
    have hrest : (loc.advance c).advanceAll cs = ⟨loc.line, loc.column + 1 + cs.length⟩ := by
      rw [ih hcs, hnext]
    rw [List.length_cons, Nat.add_comm cs.length, ← Nat.add_assoc]
    exact hrest

/-- Columns are counted from 1, and reading keeps to that. -/
theorem one_le_column_advanceAll {loc : Location} (h : 1 ≤ loc.column) (text : List Char) :
    1 ≤ (loc.advanceAll text).column := by
  induction text generalizing loc with
  | nil => exact h
  | cons c cs ih =>
    have hnext : 1 ≤ (loc.advance c).column := by
      unfold advance
      split
      · exact Nat.le_refl 1
      · exact Nat.le_add_left 1 _
    exact ih hnext

/-- Walking as far as the first part is long leads behind it. -/
theorem walk_append (loc : Location) (before after : List Char) :
    loc.walk (before ++ after) (byteLength before) = loc.advanceAll before := by
  induction before generalizing loc with
  | nil => cases after <;> rfl
  | cons c before ih =>
    have hpos := c.utf8Size_pos
    have hne : ¬ c.utf8Size + byteLength before = 0 := by omega
    rw [List.cons_append, byteLength_cons, walk, if_neg hne, Nat.add_sub_cancel_left, ih]
    rfl

/-- The location of an offset is where reading up to it leads. -/
theorem ofOffset_append (before after : List Char) :
    Location.ofOffset (before ++ after) (byteLength before) = ({} : Location).advanceAll before :=
  Location.walk_append {} before after

end Triptych.Location
