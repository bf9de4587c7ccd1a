import Triptych.Pipeline.Capability
import Triptych.Proofs.Script.Injection
import Triptych.Proofs.Stylesheet.Counting
import Triptych.Proofs.Text.Padding

/-!
# Empty lines above code

A checker that reads code after empty lines finds the same fault as without them, in the same column
and as many lines further down (`Script.check_padAbove`, `Stylesheet.check_padAbove`). Each checker
is followed from two locations, one below the other: what it does in a turn does not depend on where
it stands, so the places that it keeps stay as far apart.

The search for the exported object passes over empty lines too, so markup goes into a script at the
same place (`Script.inject?_padAbove`). All in all, the tools of this library see no difference but
the lines (`compileScript_padAbove`, `compileStylesheet_padAbove`).
-/

namespace Triptych

open Text Code

/-- The fault as many lines further down, in the same column. -/
def Code.Fault.moveDown (count : Nat) (fault : Fault) : Fault :=
  { fault with location := fault.location.moveDown count }

/-- The failure as many lines further down, in the same column. -/
def Failure.moveDown (count : Nat) (failure : Failure) : Failure :=
  { failure with line := failure.line.map (· + count) }

/-! ### Stylesheets -/

namespace Stylesheet

/-- Open brackets as many lines further down. -/
def lower (count : Nat) (stack : List (Char × Location)) : List (Char × Location) :=
  stack.map fun entry => (entry.1, entry.2.moveDown count)

/-- **From a lower location the checker reports the same fault, as much lower.** -/
theorem checkFrom_moveDown (count : Nat) (stack : List (Char × Location)) (loc : Location)
    (text : List Char) :
    checkFrom (lower count stack) (loc.moveDown count) text =
      (checkFrom stack loc text).mapError (Fault.moveDown count) := by
  -- Along the checker: moving the location down commutes with reading on, so each case takes the
  -- same branch below as above.
  fun_induction checkFrom stack loc text with
  | case1 | case2 =>
    rw [checkFrom.eq_def]
    rfl
  | case3 stack loc text scan _ hended ih =>
    rw [← Location.advanceAll_moveDown] at ih
    rw [checkFrom, if_pos hended]
    exact ih
  | case4 stack loc text scan _ hended =>
    rw [checkFrom, if_neg hended]
    rfl
  | case5 stack loc c text hcomment hquote scan _ hended ih =>
    rw [← Location.advanceAll_moveDown] at ih
    rw [checkFrom, if_pos hquote, if_pos hended]
    · exact ih
    · exact hcomment
  | case6 stack loc c text hcomment hquote scan _ hended =>
    rw [checkFrom, if_pos hquote, if_neg hended]
    · rfl
    · exact hcomment
  -- An opening bracket is remembered with its place, which is moved along with the stack.
  | case7 stack loc c text hcomment hquote hopener ih =>
    rw [← Location.advance_moveDown] at ih
    rw [checkFrom, if_neg hquote, if_pos hopener]
    · exact ih
    · exact hcomment
  | case8 stack loc c text hcomment hquote hopener hcloser ih =>
    rw [← Location.advance_moveDown] at ih
    rw [checkFrom, if_neg hquote, if_neg hopener, hcloser]
    · exact ih
    · exact hcomment
  -- A closing bracket is compared by its kind alone; the places play no part.
  | case9 loc c text hcomment hquote hopener opener place stack hcloser ih =>
    rw [← Location.advance_moveDown] at ih
    rw [checkFrom, if_neg hquote, if_neg hopener, hcloser]
    · exact (if_pos rfl).trans ih
    · exact hcomment
  | case10 loc c text hcomment hquote hopener opener hcloser top place stack hother =>
    rw [checkFrom, if_neg hquote, if_neg hopener, hcloser]
    · exact if_neg hother
    · exact hcomment
  | case11 loc c text hcomment hquote hopener opener hcloser =>
    rw [checkFrom, if_neg hquote, if_neg hopener, hcloser]
    · rfl
    · exact hcomment

/-- A line feed is passed over. -/
theorem checkFrom_newline (stack : List (Char × Location)) (loc : Location) (text : List Char) :
    checkFrom stack loc ('\n' :: text) = checkFrom stack (loc.advance '\n') text := by
  rw [checkFrom.eq_def]
  rfl

/-- Empty lines lead the checker as many lines down. -/
theorem checkFrom_padAbove (count : Nat) {loc : Location} (hloc : loc.column = 1)
    (text : List Char) :
    checkFrom [] loc (padAbove count text) = checkFrom [] (loc.moveDown count) text := by
  induction count generalizing loc with
  | zero => rfl
  | succ count ih =>
    have hbelow : (loc.moveDown 1).column = 1 := hloc
    rw [padAbove_succ, checkFrom_newline, Location.advance_newline hloc, ih hbelow,
      Location.moveDown_moveDown, Nat.add_comm 1]

/-- A stylesheet below empty lines has the same fault, as many lines down. -/
theorem check_padAbove (count : Nat) (text : List Char) :
    check (padAbove count text) = (check text).mapError (Fault.moveDown count) := by
  rw [check_eq_checkFrom, check_eq_checkFrom, checkFrom_padAbove count rfl]
  exact checkFrom_moveDown count [] {} text

end Stylesheet

/-! ### Scripts -/

namespace Script

theorem checkFrom_padAbove (count : Nat) {loc : Location} (hloc : loc.column = 1)
    (text : List Char) :
    checkFrom [] none loc (padAbove count text) = checkFrom [] none (loc.moveDown count) text := by
  induction count generalizing loc with
  | zero => rfl
  | succ count ih =>
    have hnext : loc.advanceAll ['\n'] = loc.moveDown 1 := Location.advance_newline hloc
    have hbelow : (loc.moveDown 1).column = 1 := hloc
    rw [padAbove_succ, checkFrom_blank (by decide), hnext, ih hbelow, Location.moveDown_moveDown,
      Nat.add_comm 1]

/-- A script below empty lines has the same fault, as many lines down. -/
theorem check_padAbove (count : Nat) (text : List Char) :
    check (padAbove count text) = (check text).mapError (Fault.moveDown count) := by
  have hmove (read : List Char) : (({} : Location).advanceAll read).moveDown count =
      (({} : Location).moveDown count).advanceAll read :=
    (Location.advanceAll_moveDown count {} read).symm
  rw [check, checkFrom_padAbove count rfl]
  exact checkFrom_relocate rfl hmove [] text

/-! ### The place for the markup -/

/-- A line feed of the code stays in the mask. -/
theorem mask_newline (text : List Char) : mask ('\n' :: text) = '\n' :: mask text := by
  unfold mask
  rw [segments_cons, readPiece_blank (by decide)]
  rfl

/-- The search for the exported object does not depend on where counting starts. -/
theorem findObject_add (pos more : Nat) (text : List Char) :
    findObject (pos + more) text = (findObject pos text).map (· + more) := by
  induction text generalizing pos with
  | nil => rfl
  | cons c text ih =>
    unfold findObject
    split
    next => rw [Option.map_some, Nat.add_right_comm]
    next => rw [Nat.add_right_comm, ih]

/-- An empty line above a script moves the place for the markup by its byte. -/
theorem inject?_newline (logic markup : List Char) :
    inject? ('\n' :: logic) markup = (inject? logic markup).map ('\n' :: ·) := by
  have hfind : findObject 0 ('\n' :: mask logic) = (findObject 0 (mask logic)).map (· + 1) :=
    findObject_add 0 1 _
  unfold inject?
  rw [mask_newline, hfind, Option.map_map, Option.map_map]
  rfl

/-- **The template goes to the same place below empty lines.** -/
theorem inject?_padAbove (count : Nat) (logic markup : List Char) :
    inject? (padAbove count logic) markup = (inject? logic markup).map (padAbove count) := by
  induction count with
  | zero => exact Option.map_id'.symm
  | succ count ih =>
    rw [padAbove_succ, inject?_newline, ih, Option.map_map]
    rfl

end Script

/-! ### The tools -/

/-- The stages that see padded text move their failures down, and change nothing else. -/
theorem compileStylesheet_padAbove (count : Nat) (text : List Char) :
    compileStylesheet (String.ofList (padAbove count text)) =
      (compileStylesheet (String.ofList text)).mapError (Failure.moveDown count) := by
  unfold compileStylesheet
  rw [String.toList_ofList, String.toList_ofList, Stylesheet.check_padAbove, trim_padAbove]
  cases Stylesheet.check text <;> rfl

theorem compileScript_padAbove (count : Nat) (check : Bool) (text : List Char) :
    compileScript check (String.ofList (padAbove count text)) =
      (compileScript check (String.ofList text)).mapError (Failure.moveDown count) := by
  unfold compileScript
  rw [String.toList_ofList, String.toList_ofList, Script.check_padAbove, trim_padAbove]
  cases check with
  | false => rfl
  | true => cases Script.check text <;> rfl

theorem injectTemplate_padAbove (count : Nat) (logic : List Char) (markup : String) :
    injectTemplate (String.ofList (padAbove count logic)) markup =
      (injectTemplate (String.ofList logic) markup).map fun woven =>
        String.ofList (padAbove count woven.toList) := by
  unfold injectTemplate
  rw [String.toList_ofList, String.toList_ofList, Script.inject?_padAbove]
  cases Script.inject? logic markup.toList with
  | none => rfl
  | some woven => simp [Except.map]

end Triptych
