import Triptych.Proofs.Script.Injection

/-!
# Where faults are reported

A fault of a script is reported at a character of the script, and at one that fits its cause: a
bracket, a quotation mark, the slash or the backtick with which a literal starts
(`standsIn_of_check`). The checker keeps the places of what is open, so the invariant of its run is
that each of them is the place of what was opened there.
-/

namespace Triptych

open Text Code

/-- A fault with this cause is reported at such a character. -/
def Code.Cause.isAt : Cause → Char → Bool
  | .unterminatedComment, c | .unterminatedRegex, c => c == '/'
  | .unterminatedString, c => c == '"' || c == '\''
  | .unterminatedTemplate, c => c == '`'
  | .unexpected closer, c => c == closer
  | .unclosed opener, c => c == opener

/-- The character `c` of a source stands at a location. -/
def StandsAt (source : List Char) (loc : Location) (c : Char) : Prop :=
  ∃ before after, source = before ++ c :: after ∧ loc = ({} : Location).advanceAll before

/-- A fault is at a character of a source that fits its cause. -/
def Code.Fault.StandsIn (source : List Char) (fault : Fault) : Prop :=
  ∃ c, fault.cause.isAt c = true ∧ StandsAt source fault.location c

namespace Script

variable {source : List Char}

/-- The character that opens something. -/
def Opener.mark : Opener → Char
  | .brace => '{'
  | .paren => '('
  | .bracket => '['
  | .substitution => '`'

/-- A bracket that opens is remembered with its own character. -/
theorem mark_of_openerOf? {c : Char} {opener : Opener} (h : openerOf? c = some opener) :
    opener.mark = c := by
  unfold openerOf? at h
  split at h
  · cases h; rfl
  · cases h; rfl
  · cases h; rfl
  · contradiction

/-- An opening bracket that stands at `place` may be reported there as not closed. -/
theorem standsIn_unclosed {opener : Opener} {place : Location}
    (h : StandsAt source place opener.mark) :
    (unclosed opener place).StandsIn source := by
  cases opener <;> exact ⟨_, rfl, h⟩

/-- Everything open was opened where its place says. -/
def StackStands (source : List Char) (stack : List (Opener × Location)) : Prop :=
  ∀ entry ∈ stack, StandsAt source entry.2 entry.1.mark

/-- A stack that stands in the source may get a bracket that does, too. -/
theorem StackStands.push {stack : List (Opener × Location)} {opener : Opener} {place : Location}
    (hstack : StackStands source stack) (hplace : StandsAt source place opener.mark) :
    StackStands source ((opener, place) :: stack) :=
  List.forall_mem_cons.2 ⟨hplace, hstack⟩

/-- A turn leads to a stack, or to a fault, with the right places. -/
def TurnStands (source : List Char) : Except Fault (List (Opener × Location)) → Prop
  | .ok stack => StackStands source stack
  | .error fault => fault.StandsIn source

section Turn

variable {stack : List (Opener × Location)} {loc : Location} {c : Char}

/-- Behind a piece of a template literal: the backtick is what is open, or what is reported. -/
theorem turnStands_afterTemplate (hstack : StackStands source stack) {place : Location}
    (hplace : StandsAt source place '`') (ending : TemplateEnd) :
    TurnStands source (afterTemplate stack place ending) := by
  cases ending with
  | closed => exact hstack
  | substitution => exact hstack.push hplace
  | missing => exact ⟨'`', rfl, hplace⟩

/-- Behind any other character: that character is opened, taken off or reported. -/
theorem turnStands_afterPlain (hstack : StackStands source stack) (hloc : StandsAt source loc c) :
    TurnStands source (afterPlain stack loc c) := by
  have hunexpected : (Fault.mk (.unexpected c) loc).StandsIn source := ⟨c, beq_self_eq_true c, hloc⟩
  unfold afterPlain
  split
  next opener hopener =>
    rw [← mark_of_openerOf? hopener] at hloc
    exact hstack.push hloc
  next =>
    split
    next =>
      cases stack with
      | nil => exact hunexpected
      | cons top stack =>
        rw [afterCloser]
        split
        · exact (List.forall_mem_cons.1 hstack).2
        · exact hunexpected
    next => exact hstack

/-- Whatever a step meets, what is then open or reported stands in the source. -/
theorem Steps.turnStands {previous : Option Char} {text : List Char} {s : Step}
    (h : Steps previous c text s) (hstack : StackStands source stack)
    (hloc : StandsAt source loc c) :
    TurnStands source (react stack loc c s.piece) := by
  -- What is whole leaves the stack as it is. What is not is reported at its first character.
  cases h with
  | blank | lineComment => exact hstack
  | blockComment =>
    cases (scanBlockComment _).ended with
    | true => exact hstack
    | false => exact ⟨'/', rfl, hloc⟩
  | regex =>
    cases (scanRegex false text).ended with
    | true => exact hstack
    | false => exact ⟨'/', rfl, hloc⟩
  | string hquote =>
    cases (scanString c text).ended with
    | true => exact hstack
    | false =>
      refine ⟨c, ?_, hloc⟩
      rcases hquote with rfl | rfl <;> rfl
  | template => exact turnStands_afterTemplate hstack hloc _
  | plain => exact turnStands_afterPlain hstack hloc

/-- The same of the step that the checker makes, which may lead back into a template literal. -/
theorem turnStands_react (hstack : StackStands source stack) (hloc : StandsAt source loc c)
    (previous : Option Char) (text : List Char) :
    TurnStands source
      (react stack loc c (readPiece (inSubstitution stack) previous c text).piece) := by
  unfold readPiece
  split
  next hresumes =>
    -- The literal that goes on behind the brace was opened at the top of the stack.
    obtain ⟨hinside, rfl⟩ : inSubstitution stack = true ∧ c = '}' := by simpa using hresumes
    obtain ⟨place, rest, rfl⟩ := exists_cons_of_inSubstitution hinside
    obtain ⟨hplace, hrest⟩ := List.forall_mem_cons.1 hstack
    exact turnStands_afterTemplate hrest hplace _
  next => exact (steps_step previous c text).turnStands hstack hloc

end Turn

/-- **From any place on, a fault is reported at the character that it is about.** The induction is
on the text that is left, and carries along that the open brackets stand in what was read. -/
theorem standsIn_of_checkFrom {stack : List (Opener × Location)} {previous : Option Char}
    {read text : List Char} {fault : Fault} (hsource : source = read ++ text)
    (hstack : StackStands source stack)
    (h : checkFrom stack previous (({} : Location).advanceAll read) text = .error fault) :
    fault.StandsIn source := by
  match text with
  | [] =>
    rw [checkFrom.eq_def] at h
    match stack with
    | [] => contradiction
    -- At the end the innermost bracket that is open is reported.
    | (opener, place) :: rest =>
      obtain rfl := Except.error.inj h
      exact standsIn_unclosed (List.forall_mem_cons.1 hstack).1
  | c :: text =>
    have hshorter := readPiece_rest_le (inSubstitution stack) previous c text
    have happend := readPiece_append (inSubstitution stack) previous c text
    -- The character that is read now stands where the source has it.
    have hturn := turnStands_react hstack ⟨read, text, hsource, rfl⟩ previous text
    rw [checkFrom_cons] at h
    cases hreact : react stack (({} : Location).advanceAll read) c
        (readPiece (inSubstitution stack) previous c text).piece with
    | error fault' =>
      rw [hreact] at h hturn
      obtain rfl := Except.error.inj h
      exact hturn
    | ok stack' =>
      rw [hreact] at h hturn
      rw [← Location.advanceAll_append] at h
      refine standsIn_of_checkFrom ?_ hturn h
      rw [List.append_assoc, happend, hsource]
termination_by text.length
decreasing_by simp only [List.length_cons]; omega

/-- **A fault is reported at a character of the script that fits its cause.** -/
theorem standsIn_of_check {fault : Fault} (h : check source = .error fault) :
    fault.StandsIn source :=
  standsIn_of_checkFrom (List.nil_append source).symm
    (fun _ hentry => absurd hentry List.not_mem_nil) h

end Script

end Triptych
