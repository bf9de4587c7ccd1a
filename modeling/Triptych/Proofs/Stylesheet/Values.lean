import Mathlib.Algebra.Field.Rat
import Mathlib.Tactic.NormNum
import Triptych.Json.Quoted
import Triptych.Proofs.Stylesheet.SecondRun
import Triptych.Proofs.Text.Slice

/-!
# What short values mean

The short form of a value is another text for the same thing. Two kinds of values have a meaning
here. A `Quantity` is a number in decimal digits with a unit behind it, and `Denotes word number
unit` says that a word is written so; a word is written so in one way only (`Quantity.written_inj`).
A `Colour` is read from three or from six hexadecimal digits, where each of three digits stands for
itself twice.

* A quantity is a zero that needs no unit, or it keeps its number and its unit
  (`shortenValue_written`): the zero that is dropped before the point has no weight
  (`Quantity.exists_dropLeadingZero`).
* A colour stays the colour that it is (`shortenValue_colour`).
* No word becomes longer, and none disappears (`byteLength_shortenValue_le`, `shortenValue_ne_nil`).

What makes the rules fit together is that a number ends where its unit starts: a unit holds neither
digits nor points, so the zeros and points before `em` are the number of the word, and not the `r`
of `rem` (`isZeroLength_written_iff`).
-/

namespace Triptych.Stylesheet

open Text

/-! ### Quantities -/

/-- **A quantity**: an optional minus sign, digits, an optional point with digits behind it, and a
unit, which may be empty. Without a point there is no fraction. A unit is any text without digits
and points, so it may have letters of any alphabet. -/
@[ext]
structure Quantity where
  negative : Bool
  whole : List Char
  fraction : List Char
  unit : List Char
  whole_digits : ∀ c ∈ whole, isAsciiDigit c = true
  fraction_digits : ∀ c ∈ fraction, isAsciiDigit c = true
  digits_ne_nil : whole ++ fraction ≠ []
  unit_plain : ∀ c ∈ unit, isAsciiDigit c = false ∧ c ≠ '.'

namespace Quantity

/-- The digits behind the point, with the point. -/
def pointed : List Char → List Char
  | [] => []
  | c :: fraction => '.' :: c :: fraction

/-- The quantity without its sign, as it is written. -/
def magnitude (q : Quantity) : List Char :=
  q.whole ++ (pointed q.fraction ++ q.unit)

/-- The quantity as it is written. -/
def written (q : Quantity) : List Char :=
  if q.negative then '-' :: q.magnitude else q.magnitude

/-- The number of a quantity. -/
def number (q : Quantity) : ℚ :=
  (if q.negative then -1 else 1) *
    (Nat.ofDigitChars 10 (q.whole ++ q.fraction) 0 / 10 ^ q.fraction.length)

/-- A zero, without a sign, of one of the units that it can do without. -/
def IsZeroLength (q : Quantity) : Prop :=
  q.negative = false ∧ q.number = 0 ∧ q.unit ∈ zeroUnits

end Quantity

/-- **The word is written as this number of this unit.** -/
def Denotes (word : List Char) (number : ℚ) (unit : List Char) : Prop :=
  ∃ q : Quantity, q.written = word ∧ q.number = number ∧ q.unit = unit

/-- A colour as a screen mixes it. -/
structure Colour where
  red : Nat
  green : Nat
  blue : Nat
deriving DecidableEq, Repr

/-- The share of one light, from its two hexadecimal digits. -/
def light? (high low : Char) : Option Nat := do
  return 16 * (← Json.hexValue? high) + (← Json.hexValue? low)

/-- The colour that a word writes in six hexadecimal digits, or in three that count twice each. -/
def colour? : List Char → Option Colour
  | ['#', r, g, b] => do return ⟨← light? r r, ← light? g g, ← light? b b⟩
  | ['#', r₁, r₂, g₁, g₂, b₁, b₂] => do return ⟨← light? r₁ r₂, ← light? g₁ g₂, ← light? b₁ b₂⟩
  | _ => none

/-! ### One reading -/

/-- Digits make zero if each of them is a zero. -/
theorem ofDigitChars_eq_zero_iff {digits : List Char} (h : ∀ c ∈ digits, isAsciiDigit c = true)
    (init : Nat) :
    Nat.ofDigitChars 10 digits init = 0 ↔ init = 0 ∧ ∀ c ∈ digits, c = '0' := by
  induction digits generalizing init with
  | nil => simp
  | cons c digits ih =>
    rw [List.forall_mem_cons] at h
    have hle : '0'.toNat ≤ c.toNat := by
      have hc := h.1
      rw [isAsciiDigit, Bool.and_eq_true, decide_eq_true_eq] at hc
      exact hc.1
    rw [Nat.ofDigitChars_cons, ih h.2, List.forall_mem_cons, ← Char.toNat_inj (c := c)]
    constructor
    · rintro ⟨hinit, hdigits⟩
      exact ⟨by omega, by omega, hdigits⟩
    · rintro ⟨hinit, hc, hdigits⟩
      exact ⟨by omega, hdigits⟩

namespace Quantity

theorem mem_pointed {fraction : List Char} {c : Char} (h : c ∈ pointed fraction) :
    c = '.' ∨ c ∈ fraction := by
  cases fraction with
  | nil => contradiction
  | cons d fraction => simpa [pointed] using h

/-- The whole digits end before the point or the unit. -/
theorem stops_pointed (q : Quantity) : Stops isAsciiDigit (pointed q.fraction ++ q.unit) := by
  cases hfraction : q.fraction with
  | nil =>
    intro c hc
    exact (q.unit_plain c (List.mem_of_mem_head? hc)).1
  | cons c fraction => exact stops_cons (by decide) _

theorem stops_unit (q : Quantity) : Stops isAsciiDigit q.unit :=
  fun c hc => (q.unit_plain c (List.mem_of_mem_head? hc)).1

/-- Behind the sign stands a digit or a point. -/
theorem exists_magnitude_eq (q : Quantity) :
    ∃ c rest, q.magnitude = c :: rest ∧ (isAsciiDigit c = true ∨ c = '.') := by
  unfold magnitude
  cases hwhole : q.whole with
  | cons c whole => exact ⟨c, _, rfl, .inl (q.whole_digits c (by simp [hwhole]))⟩
  | nil =>
    have hne := q.digits_ne_nil
    cases hfraction : q.fraction with
    | nil => simp [hwhole, hfraction] at hne
    | cons c fraction => exact ⟨'.', _, rfl, .inr rfl⟩

/-- No quantity without a sign starts like one with a sign. -/
theorem magnitude_ne_minus (q : Quantity) (rest : List Char) : q.magnitude ≠ '-' :: rest := by
  obtain ⟨c, rest', hmagnitude, hc⟩ := q.exists_magnitude_eq
  rw [hmagnitude]
  rintro h
  obtain rfl : c = '-' := (List.cons.inj h).1
  rcases hc with hc | hc <;> contradiction

/-- The digits before the point are those that the text starts with. -/
theorem whole_eq_takeWhile (q : Quantity) : q.magnitude.takeWhile isAsciiDigit = q.whole :=
  takeWhile_append_of_stops q.whole_digits q.stops_pointed

/-- No unit starts with a point. -/
theorem unit_ne_point (q : Quantity) (rest : List Char) : q.unit ≠ '.' :: rest := by
  intro hunit
  exact (q.unit_plain '.' (by simp [hunit])).2 rfl

/-- What stands behind the whole digits tells the fraction and the unit. -/
theorem pointed_append_inj {q q' : Quantity}
    (h : pointed q.fraction ++ q.unit = pointed q'.fraction ++ q'.unit) :
    q.fraction = q'.fraction ∧ q.unit = q'.unit := by
  -- A point comes next in both, or in none.
  cases hfraction : q.fraction with
  | nil =>
    cases hfraction' : q'.fraction with
    | nil =>
      rw [hfraction, hfraction'] at h
      exact ⟨rfl, h⟩
    | cons c fraction =>
      rw [hfraction, hfraction'] at h
      exact absurd h (q.unit_ne_point _)
  | cons c fraction =>
    cases hfraction' : q'.fraction with
    | nil =>
      rw [hfraction, hfraction'] at h
      exact absurd h.symm (q'.unit_ne_point _)
    | cons c' fraction' =>
      rw [hfraction, hfraction'] at h
      have hbehind : c :: fraction ++ q.unit = c' :: fraction' ++ q'.unit := (List.cons.inj h).2
      -- The fraction is the digits that come next, since the unit does not start with one.
      have hrun := takeWhile_append_of_stops (hfraction ▸ q.fraction_digits) q.stops_unit
      have hrun' := takeWhile_append_of_stops (hfraction' ▸ q'.fraction_digits) q'.stops_unit
      rw [hbehind, hrun'] at hrun
      rw [hrun] at hbehind
      exact ⟨hrun.symm, List.append_cancel_left hbehind⟩

theorem magnitude_inj {q q' : Quantity} (h : q.magnitude = q'.magnitude) :
    q.whole = q'.whole ∧ q.fraction = q'.fraction ∧ q.unit = q'.unit := by
  have hwhole : q.whole = q'.whole := by rw [← q.whole_eq_takeWhile, h, q'.whole_eq_takeWhile]
  unfold magnitude at h
  rw [hwhole] at h
  exact ⟨hwhole, pointed_append_inj (List.append_cancel_left h)⟩

/-- **A quantity is written in one way, and no two in the same way.** -/
theorem written_inj {q q' : Quantity} (h : q.written = q'.written) : q = q' := by
  have hsign : q.negative = q'.negative ∧ q.magnitude = q'.magnitude := by
    -- The first character is a minus sign in both, or in none.
    unfold written at h
    cases hneg : q.negative with
    | true =>
      cases hneg' : q'.negative with
      | true => exact ⟨rfl, by simpa [hneg, hneg'] using h⟩
      | false =>
        exact absurd (by simpa [hneg, hneg'] using h.symm) (q'.magnitude_ne_minus q.magnitude)
    | false =>
      cases hneg' : q'.negative with
      | true => exact absurd (by simpa [hneg, hneg'] using h) (q.magnitude_ne_minus q'.magnitude)
      | false => exact ⟨rfl, by simpa [hneg, hneg'] using h⟩
  obtain ⟨hwhole, hfraction, hunit⟩ := magnitude_inj hsign.2
  exact Quantity.ext hsign.1 hwhole hfraction hunit

end Quantity

/-- The number and the unit that a quantity is written as are its own. -/
theorem denotes_written_iff (q : Quantity) (number : ℚ) (unit : List Char) :
    Denotes q.written number unit ↔ number = q.number ∧ unit = q.unit := by
  constructor
  · rintro ⟨q', hwritten, rfl, rfl⟩
    rw [Quantity.written_inj hwritten]
    exact ⟨rfl, rfl⟩
  · rintro ⟨rfl, rfl⟩
    exact ⟨q, rfl, rfl, rfl⟩

/-! ### Zeros -/

/-- The characters of a number without a sign. -/
def isNumberChar (c : Char) : Bool :=
  isAsciiDigit c || c == '.'

theorem isNumberChar_of_isZero {number : List Char} (h : isZero number = true) :
    ∀ c ∈ number, (c = '0' ∨ c = '.') ∧ isNumberChar c = true := by
  rw [isZero, Bool.and_eq_true, List.all_eq_true] at h
  intro c hc
  obtain rfl | rfl : c = '0' ∨ c = '.' := by simpa using h.1 c hc
  · exact ⟨.inl rfl, rfl⟩
  · exact ⟨.inr rfl, rfl⟩

theorem stops_zeroUnit {unit : List Char} (h : unit ∈ zeroUnits) : Stops isNumberChar unit := by
  have hunits : zeroUnits.all (fun unit => !unit.head?.any isNumberChar) = true := by decide
  have hhead := List.all_eq_true.1 hunits unit h
  intro c hc
  rw [hc] at hhead
  simpa using hhead

namespace Quantity

/-- The digits of a quantity with the point between them. -/
def digits (q : Quantity) : List Char :=
  q.whole ++ pointed q.fraction

theorem digits_append_unit (q : Quantity) : q.digits ++ q.unit = q.magnitude :=
  List.append_assoc _ _ _

theorem isNumberChar_of_mem_digits (q : Quantity) : ∀ c ∈ q.digits, isNumberChar c = true := by
  intro c hc
  rw [isNumberChar, Bool.or_eq_true, beq_iff_eq]
  rcases List.mem_append.1 hc with hc | hc
  · exact .inl (q.whole_digits c hc)
  · exact (mem_pointed hc).symm.imp_left (q.fraction_digits c)

theorem stops_isNumberChar (q : Quantity) : Stops isNumberChar q.unit := by
  intro c hc
  have hplain := q.unit_plain c (List.mem_of_mem_head? hc)
  simp [isNumberChar, hplain.1, hplain.2]

theorem mem_digits {q : Quantity} {c : Char} (h : c ∈ q.whole ++ q.fraction) : c ∈ q.digits := by
  refine List.mem_append.2 ((List.mem_append.1 h).imp_right fun hc => ?_)
  cases hfraction : q.fraction with
  | nil => simp [hfraction] at hc
  | cons d fraction => exact List.mem_cons_of_mem _ (hfraction ▸ hc)

theorem isAsciiDigit_of_mem (q : Quantity) : ∀ c ∈ q.whole ++ q.fraction, isAsciiDigit c = true :=
  List.forall_mem_append.2 ⟨q.whole_digits, q.fraction_digits⟩

theorem number_eq_zero_iff (q : Quantity) :
    q.number = 0 ↔ ∀ c ∈ q.whole ++ q.fraction, c = '0' := by
  have hsign : (if q.negative then (-1 : ℚ) else 1) ≠ 0 := by cases q.negative <;> simp
  unfold number
  rw [mul_eq_zero_iff_left hsign, div_eq_zero_iff, or_iff_left (pow_ne_zero _ (by simp)),
    Nat.cast_eq_zero, ofDigitChars_eq_zero_iff q.isAsciiDigit_of_mem]
  simp

/-- A quantity is zero if its digits with their point are what a zero is made of. -/
theorem isZero_digits_iff (q : Quantity) : isZero q.digits = true ↔ q.number = 0 := by
  rw [number_eq_zero_iff]
  constructor
  · intro hzero c hc
    -- A digit that is a zero or a point is a zero.
    refine (isNumberChar_of_isZero hzero c (mem_digits hc)).1.resolve_right ?_
    rintro rfl
    have hdigit := q.isAsciiDigit_of_mem '.' hc
    contradiction
  · intro hzero
    rw [isZero, Bool.and_eq_true, List.all_eq_true]
    constructor
    · intro c hc
      rw [Bool.or_eq_true, beq_iff_eq, beq_iff_eq]
      rcases List.mem_append.1 hc with hc | hc
      · exact .inl (hzero c (List.mem_append_left _ hc))
      · exact (mem_pointed hc).symm.imp_left fun hc => hzero c (List.mem_append_right _ hc)
    · -- There is a digit, and it is a zero.
      obtain ⟨c, rest, hdigits⟩ := List.exists_cons_of_ne_nil q.digits_ne_nil
      have hc : c ∈ q.whole ++ q.fraction := by simp [hdigits]
      rw [List.contains_iff_mem]
      exact hzero c hc ▸ mem_digits hc

/-- **A quantity counts as a zero length if it is one.** -/
theorem isZeroLength_written_iff (q : Quantity) :
    Stylesheet.isZeroLength q.written = true ↔ q.IsZeroLength := by
  constructor
  · intro h
    have hneg : q.negative = false := by
      rw [← Bool.not_eq_true]
      intro hneg
      rw [written, if_pos hneg] at h
      rcases head_of_isZeroLength h with hhead | hhead <;> contradiction
    rw [written, hneg, ← digits_append_unit] at h
    obtain ⟨ending, hending, number, hword, hzero⟩ := isZeroLength_iff.1 h
    have hword : q.digits ++ q.unit = number ++ ending := hword
    -- Digits and points are the number in both cuts, for neither unit starts with one.
    have hnumber : q.digits = number := by
      have hrun := takeWhile_append_of_stops q.isNumberChar_of_mem_digits q.stops_isNumberChar
      have hrun' := takeWhile_append_of_stops (fun c hc => (isNumberChar_of_isZero hzero c hc).2)
        (stops_zeroUnit hending)
      rw [← hrun, hword, hrun']
    rw [← hnumber] at hzero hword
    rw [← List.append_cancel_left hword] at hending
    exact ⟨hneg, q.isZero_digits_iff.1 hzero, hending⟩
  · rintro ⟨hneg, hnumber, hunit⟩
    rw [written, hneg, ← digits_append_unit]
    exact isZeroLength_iff.2 ⟨q.unit, hunit, q.digits, rfl, q.isZero_digits_iff.2 hnumber⟩

/-- Before a point stands a single zero if the text starts with one and the point. -/
theorem whole_eq_zero {q : Quantity} {rest : List Char} (h : q.magnitude = '0' :: '.' :: rest) :
    q.whole = ['0'] ∧ q.fraction ≠ [] := by
  have hwhole : q.whole = ['0'] := by
    rw [← q.whole_eq_takeWhile, h]
    rfl
  refine ⟨hwhole, fun hfraction => ?_⟩
  unfold magnitude at h
  rw [hwhole, hfraction] at h
  exact q.unit_ne_point rest (List.cons.inj h).2

/-- **The zero before the point has no weight**: without it the same quantity is written. -/
theorem exists_dropLeadingZero (q : Quantity) :
    ∃ q' : Quantity, dropLeadingZero q.written = q'.written ∧ q'.number = q.number ∧
      q'.unit = q.unit := by
  by_cases h : q.whole = ['0'] ∧ q.fraction ≠ []
  · obtain ⟨negative, whole, fraction, unit, hwhole, hfraction, hne, hunit⟩ := q
    obtain ⟨rfl, hpoint⟩ : whole = ['0'] ∧ fraction ≠ [] := h
    refine ⟨⟨negative, [], fraction, unit, by simp, hfraction, hpoint, hunit⟩, ?_, rfl, rfl⟩
    obtain ⟨c, fraction, rfl⟩ := List.exists_cons_of_ne_nil hpoint
    cases negative <;> rfl
  · refine ⟨q, ?_, rfl, rfl⟩
    -- Only a single zero before a point would be dropped.
    obtain ⟨rest, hword, -⟩ | ⟨rest, hword, -⟩ | hsame := dropLeadingZero_cases q.written
    · unfold written at hword
      split at hword
      · simp at hword
      · exact absurd (whole_eq_zero hword) h
    · unfold written at hword
      split at hword
      · exact absurd (whole_eq_zero (List.cons.inj hword).2) h
      · exact absurd hword (q.magnitude_ne_minus _)
    · exact hsame

end Quantity

/-- A colour starts with `#`. -/
theorem shortColour?_of_ne {c : Char} (h : c ≠ '#') (rest : List Char) :
    shortColour? (c :: rest) = none := by
  unfold shortColour?
  split
  next hword => exact absurd (List.cons.inj hword).1 h
  next => rfl

/-- A quantity is no colour. -/
theorem shortColour?_written (q : Quantity) : shortColour? q.written = none := by
  unfold Quantity.written
  split
  · exact shortColour?_of_ne (by decide) _
  · obtain ⟨c, rest, hmagnitude, hc⟩ := q.exists_magnitude_eq
    rw [hmagnitude]
    refine shortColour?_of_ne ?_ rest
    rintro rfl
    rcases hc with hc | hc <;> contradiction

/-- **A quantity keeps its number and its unit**, unless it is a zero that can do without its
unit. -/
theorem shortenValue_written (q : Quantity) :
    (q.IsZeroLength → shortenValue q.written = ['0']) ∧
    (¬ q.IsZeroLength → ∀ number unit,
      Denotes (shortenValue q.written) number unit ↔ number = q.number ∧ unit = q.unit) := by
  rw [← q.isZeroLength_written_iff]
  refine ⟨fun hzero => if_pos hzero, fun hzero number unit => ?_⟩
  rw [Bool.not_eq_true] at hzero
  obtain ⟨q', hwritten, hnumber, hunit⟩ := q.exists_dropLeadingZero
  rw [shortenValue_of_not_zero hzero (shortColour?_written q), hwritten, denotes_written_iff,
    hnumber, hunit]

/-! ### Colours -/

/-- Capitals have the value of the small letters, and every digit has one. -/
theorem hexValue?_toLower {c : Char} (h : isHexDigit c = true) :
    Json.hexValue? c.toLower = Json.hexValue? c ∧ (Json.hexValue? c).isSome = true := by
  have hall :
      hexDigits.all (fun c => Json.hexValue? c.toLower == Json.hexValue? c &&
      (Json.hexValue? c).isSome) = true := by
    decide
  simpa using List.all_eq_true.1 hall c (mem_hexDigits h)

/-- Two digits that differ in case only are one digit twice. -/
theorem light?_toLower {high low : Char} (hhigh : isHexDigit high = true)
    (hlow : isHexDigit low = true) (h : high.toLower = low.toLower) :
    light? high.toLower high.toLower = light? high low := by
  unfold light?
  rw [(hexValue?_toLower hhigh).1, ← (hexValue?_toLower hlow).1, ← h, (hexValue?_toLower hhigh).1]

section Colours

variable {r₁ r₂ g₁ g₂ b₁ b₂ : Char} (hdigits : ∀ c ∈ [r₁, r₂, g₁, g₂, b₁, b₂], isHexDigit c = true)
include hdigits

/-- Six digits write a colour. -/
theorem exists_colour : ∃ colour, colour? ['#', r₁, r₂, g₁, g₂, b₁, b₂] = some colour := by
  have hvalue (c : Char) (hc : c ∈ [r₁, r₂, g₁, g₂, b₁, b₂]) :
      ∃ value, Json.hexValue? c = some value :=
    Option.isSome_iff_exists.1 (hexValue?_toLower (hdigits c hc)).2
  obtain ⟨_, hr₁⟩ := hvalue r₁ (by simp)
  obtain ⟨_, hr₂⟩ := hvalue r₂ (by simp)
  obtain ⟨_, hg₁⟩ := hvalue g₁ (by simp)
  obtain ⟨_, hg₂⟩ := hvalue g₂ (by simp)
  obtain ⟨_, hb₁⟩ := hvalue b₁ (by simp)
  obtain ⟨_, hb₂⟩ := hvalue b₂ (by simp)
  simp [colour?, light?, hr₁, hr₂, hg₁, hg₂, hb₁, hb₂]

/-- Six digits have a short form if they are three pairs of one digit each, and the short form is
the same colour. -/
theorem shortenValue_pairs (hr : r₁.toLower = r₂.toLower) (hg : g₁.toLower = g₂.toLower)
    (hb : b₁.toLower = b₂.toLower) :
    shortenValue ['#', r₁, r₂, g₁, g₂, b₁, b₂] = ['#', r₁.toLower, g₁.toLower, b₁.toLower] ∧
      colour? ['#', r₁.toLower, g₁.toLower, b₁.toLower] =
        colour? ['#', r₁, r₂, g₁, g₂, b₁, b₂] := by
  simp only [List.forall_mem_cons] at hdigits
  obtain ⟨hr₁, hr₂, hg₁, hg₂, hb₁, hb₂, -⟩ := hdigits
  constructor
  · exact shortenValue_of_colour (by simp [shortColour?, hr₁, hr₂, hg₁, hg₂, hb₁, hb₂, hr, hg, hb])
  · rw [colour?, colour?, light?_toLower hr₁ hr₂ hr, light?_toLower hg₁ hg₂ hg,
      light?_toLower hb₁ hb₂ hb]

end Colours

/-- **A colour stays the colour that it is.** Three digits are left of it if they stand for the six,
and otherwise all. -/
theorem shortenValue_colour {digits : List Char} (hlength : digits.length = 6)
    (hdigits : ∀ c ∈ digits, isHexDigit c = true) :
    (∃ colour, colour? ('#' :: digits) = some colour ∧
      colour? (shortenValue ('#' :: digits)) = some colour) ∧
    ((∃ r g b, shortenValue ('#' :: digits) = ['#', r, g, b] ∧
      equalsIgnoringCase [r, r, g, g, b, b] digits = true) ∨
      shortenValue ('#' :: digits) = '#' :: digits ∧
        ∀ r g b, equalsIgnoringCase [r, r, g, g, b, b] digits = false) := by
  match digits, hlength with
  | [r₁, r₂, g₁, g₂, b₁, b₂], _ =>
    obtain ⟨colour, hcolour⟩ := exists_colour hdigits
    by_cases hpairs : r₁.toLower = r₂.toLower ∧ g₁.toLower = g₂.toLower ∧ b₁.toLower = b₂.toLower
    · obtain ⟨hr, hg, hb⟩ := hpairs
      obtain ⟨hshort, hsame⟩ := shortenValue_pairs hdigits hr hg hb
      rw [hshort, hsame]
      refine ⟨⟨colour, hcolour, hcolour⟩, .inl ⟨_, _, _, rfl, ?_⟩⟩
      rw [equalsIgnoringCase, beq_iff_eq]
      simp only [Text.lower, List.map_cons, List.map_nil, toLower_toLower, ← hr, ← hg, ← hb]
    · have hnone : shortColour? ['#', r₁, r₂, g₁, g₂, b₁, b₂] = none := by
        rw [shortColour?, if_neg]
        simp only [Bool.and_eq_true, beq_iff_eq, and_assoc]
        exact fun h => hpairs h.2
      have hsame : shortenValue ['#', r₁, r₂, g₁, g₂, b₁, b₂] = ['#', r₁, r₂, g₁, g₂, b₁, b₂] :=
        shortenValue_of_not_zero (isZeroLength_of_ne (by decide) (by decide) _) hnone
      rw [hsame]
      refine ⟨⟨colour, hcolour, hcolour⟩, .inr ⟨rfl, fun r g b => ?_⟩⟩
      -- What three digits stand for is made of pairs.
      rw [Bool.eq_false_iff]
      intro hequal
      simp only [equalsIgnoringCase, Text.lower, List.map_cons, List.map_nil, beq_iff_eq,
        List.cons.injEq] at hequal
      obtain ⟨h₁, h₂, h₃, h₄, h₅, h₆, -⟩ := hequal
      exact hpairs ⟨h₁.symm.trans h₂, h₃.symm.trans h₄, h₅.symm.trans h₆⟩

/-! ### Size -/

theorem shortenValue_ne_nil {word : List Char} (h : word ≠ []) : shortenValue word ≠ [] := by
  rcases shortenValue_forms word with ⟨-, hshort⟩ | hcolour | ⟨sign, rest, -, -, hshort⟩ | hsame
  · simp [hshort]
  · exact (shortColour?_eq_some hcolour).2.1
  · simp [hshort]
  · rwa [hsame]

/-- **A short form is not longer.** -/
theorem byteLength_shortenValue_le (word : List Char) :
    byteLength (shortenValue word) ≤ byteLength word := by
  rcases shortenValue_forms word with
    ⟨hzero, hshort⟩ | hcolour | ⟨sign, rest, -, hword, hshort⟩ | hsame
  · -- The word is not empty, since it has a unit.
    rw [hshort]
    refine byteLength_pos ?_
    rintro rfl
    contradiction
  · -- Four characters of one byte each stand for seven characters.
    have hbytes : shortChars.length = byteLength shortChars := by decide
    have hshort : (shortenValue word).length = byteLength (shortenValue word) :=
      length_eq_byteLength_iff.2 fun c hc =>
        length_eq_byteLength_iff.1 hbytes c ((shortColour?_eq_some hcolour).2.2 c hc)
    have hword := length_le_byteLength word
    obtain ⟨r₁, r₂, g₁, g₂, b₁, b₂, rfl, -, -, hfour⟩ := exists_of_shortColour? hcolour
    have hlength := congrArg List.length hfour
    simp only [List.length_cons, List.length_nil] at hlength hword
    omega
  · rw [hshort, hword]
    simp
  · rw [hsame]

/-! ### The statement -/

/-- **Short forms mean the same.**

* A quantity keeps its number and its unit, and no other reading of its short form is possible; only
  a zero of a unit that it can do without becomes a plain zero.
* Six hexadecimal digits keep their colour. Three digits are left if each of them twice gives the
  six, up to case, and all six are left if no three digits do.
* A short form has no shorter one. It is empty only if the word is, and it is not longer. -/
theorem shortenValue_keeps_values :
    (∀ q : Quantity,
      (q.IsZeroLength → shortenValue q.written = ['0']) ∧
      (¬ q.IsZeroLength → ∀ number unit,
        Denotes (shortenValue q.written) number unit ↔ number = q.number ∧ unit = q.unit)) ∧
    (∀ digits : List Char, digits.length = 6 → (∀ c ∈ digits, isHexDigit c = true) →
      (∃ colour, colour? ('#' :: digits) = some colour ∧ colour? (shortenValue ('#' :: digits)) =
      some colour) ∧
      ((∃ r g b, shortenValue ('#' :: digits) = ['#', r, g, b] ∧
          equalsIgnoringCase [r, r, g, g, b, b] digits = true) ∨
        shortenValue ('#' :: digits) = '#' :: digits ∧
          ∀ r g b, equalsIgnoringCase [r, r, g, g, b, b] digits = false)) ∧
    ∀ word : List Char,
      shortenValue (shortenValue word) = shortenValue word ∧ (word ≠ [] → shortenValue word ≠ []) ∧
        byteLength (shortenValue word) ≤ byteLength word := by
  refine ⟨shortenValue_written, fun digits hlength hdigits => shortenValue_colour hlength hdigits,
    fun word => ?_⟩
  exact ⟨shortenValue_shortenValue word, shortenValue_ne_nil, byteLength_shortenValue_le word⟩

/-- Half an em, with a zero before the point and one behind. -/
def halfEm : Quantity where
  negative := false
  whole := ['0']
  fraction := ['5', '0']
  unit := ['e', 'm']
  whole_digits := List.all_eq_true.1 (by decide)
  fraction_digits := List.all_eq_true.1 (by decide)
  digits_ne_nil := by decide
  unit_plain := by simp [isAsciiDigit]

/-- Half an em stays half an em without its leading zero, and six hexadecimal digits of mixed case
lose every second one. -/
theorem shortenValue_keeps_values_halfEm :
    ¬ halfEm.IsZeroLength ∧ Denotes ".50em".toList (1 / 2) "em".toList ∧
    "aAbBcC".toList.length = 6 ∧ (∀ c ∈ "aAbBcC".toList, isHexDigit c = true) ∧
    colour? "#abc".toList = some ⟨0xaa, 0xbb, 0xcc⟩ ∧ ".50em".toList ≠ [] := by
  have hzero : ¬ halfEm.IsZeroLength := by
    rw [← halfEm.isZeroLength_written_iff]
    decide
  have hnumber : halfEm.number = 1 / 2 := by
    have hdigits : Nat.ofDigitChars 10 (halfEm.whole ++ halfEm.fraction) 0 = 50 := by decide
    rw [Quantity.number, hdigits]
    norm_num [halfEm]
  have hhex : ∀ c ∈ "aAbBcC".toList, isHexDigit c = true := List.all_eq_true.1 (by decide)
  have hem := ((shortenValue_keeps_values.1 halfEm).2 hzero (1 / 2) ['e', 'm']).2
    ⟨hnumber.symm, rfl⟩
  obtain ⟨⟨colour, hcolour, hshort⟩, -⟩ :=
    shortenValue_keeps_values.2.1 "aAbBcC".toList (by decide) hhex
  refine ⟨hzero,
    hem, by decide, hhex, ?_, (shortenValue_keeps_values.2.2 halfEm.written).2.1 (by decide)⟩
  have hlong : colour? ('#' :: "aAbBcC".toList) = some ⟨0xaa, 0xbb, 0xcc⟩ := by decide
  rw [hcolour] at hlong
  exact hshort.trans hlong

end Triptych.Stylesheet
