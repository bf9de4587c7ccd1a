import Triptych.Lint.Linter
import Triptych.Proofs.Markup.Elements
import Triptych.Proofs.Text.Indentation

/-!
# What rules point at

A rule is free to give a finding any span. The rules of this library point at what they were given:
an element or one of its attributes, or a part of the text (`Rule.PointsInside`). That is one lemma
for each rule, and `pointsInside_of_mem_default` for all of them.

Most rules have the element itself in view. `Repetition` points at attributes, and `Indentation`
looks at text and points at a line; the offset of a line is the sum of the bytes before it, line
feeds included (`firstMixed_within`).
-/

namespace Triptych.Lint

open Text Markup

/-- **A rule points inside** what it looks at. -/
structure Rule.PointsInside (rule : Rule) : Prop where
  element : ∀ {element : Element}, ∀ d ∈ rule.checkElement element,
    d.span = element.span ∨ ∃ attr ∈ element.tag.attributes, d.span = attr.span
  text : ∀ {text : List Char} {offset : Nat}, ∀ d ∈ rule.checkText text offset,
    d.span.Within ⟨offset, offset + byteLength text⟩

/-- A rule that looks at elements only, and points at the element. -/
theorem Rule.PointsInside.ofElement {rule : Rule}
    (helement : ∀ {element : Element}, ∀ d ∈ rule.checkElement element, d.span = element.span)
    (htext : rule.checkText = fun _ _ => []) : rule.PointsInside := by
  refine ⟨fun d hd => .inl (helement d hd), ?_⟩
  intro text offset d hd
  rw [htext] at hd
  contradiction

/-! ### Rules for elements -/

/-- **What a rule finds lies inside of the section** that it looks at, rule by rule. -/
theorem Accessibility.pointsInside : Accessibility.rule.PointsInside := by
  refine .ofElement ?_ rfl
  intro element d hd
  simp only [rule, List.mem_append] at hd
  rcases hd with ((hd | hd) | hd) | hd
  · rw [List.mem_singleton.1 (List.mem_ite_nil_right.1 hd).2]
    rfl
  · rw [List.mem_singleton.1 (List.mem_ite_nil_right.1 hd).2]
    rfl
  · rw [List.mem_singleton.1 (List.mem_ite_nil_right.1 hd).2]
    rfl
  · unfold checkRole at hd
    split at hd
    · contradiction
    · split at hd
      · contradiction
      · rw [List.mem_singleton.1 hd]
        rfl

theorem Obsolete.pointsInside : Obsolete.rule.PointsInside := by
  refine .ofElement ?_ rfl
  intro element d hd
  simp only [rule] at hd
  split at hd
  · contradiction
  · rw [List.mem_singleton.1 hd]
    rfl

theorem Important.pointsInside : Important.rule.PointsInside := by
  refine .ofElement ?_ rfl
  intro element d hd
  simp only [rule] at hd
  split at hd
  · contradiction
  · obtain ⟨name, -, rfl⟩ := List.mem_map.1 hd
    rfl

/-- The attributes that come again are some of the attributes. -/
theorem Repetition.repeated_sublist (seen : List (List Char)) (attributes : List Attribute) :
    (repeated seen attributes).Sublist attributes := by
  induction attributes generalizing seen with
  | nil => exact .slnil
  | cons attr attributes ih =>
    rw [repeated]
    split
    · exact (ih seen).cons_cons attr
    · exact (ih _).cons attr

theorem Repetition.pointsInside : Repetition.rule.PointsInside := by
  constructor
  · intro element d hd
    obtain ⟨attr, hattr, rfl⟩ := List.mem_map.1 hd
    exact .inr ⟨attr, (repeated_sublist [] element.tag.attributes).mem hattr, rfl⟩
  · intro text offset d hd
    contradiction

/-! ### Rules for text -/

/-- The line that disagrees is one of the lines, where it stands. -/
theorem Indentation.firstMixed_within {used : Option Char} {pos : Nat} {lines : List (List Char)}
    {c : Char} {span : Span} (h : firstMixed used pos lines = some (c, span)) :
    span.Within ⟨pos, pos + byteLength (joinLines lines)⟩ := by
  induction lines generalizing used pos with
  | nil => contradiction
  | cons line lines ih =>
    have hline : byteLength line ≤ byteLength (joinLines (line :: lines)) := by
      by_cases hlines : lines = []
      · rw [hlines, joinLines_singleton]
      · rw [joinLines_cons line hlines, byteLength_append]
        exact Nat.le_add_right _ _
    rw [firstMixed] at h
    split at h
    next =>
      obtain ⟨-, rfl⟩ := Prod.mk.inj (Option.some.inj h)
      exact ⟨le_rfl, Nat.le_add_right _ _, Nat.add_le_add_left hline pos⟩
    next =>
      -- A later line exists, so a line feed ends this one.
      have hlines : lines ≠ [] := by
        rintro rfl
        contradiction
      have hjoined : byteLength (joinLines (line :: lines)) =
          byteLength line + 1 + byteLength (joinLines lines) := by
        rw [joinLines_cons line hlines, byteLength_append, byteLength_cons, ← Nat.add_assoc]
        rfl
      have hwithin := ih h
      refine hwithin.trans ⟨?_, ?_, ?_⟩
      · show pos ≤ pos + byteLength line + 1
        omega
      · exact Nat.le_add_right _ _
      · show pos + byteLength line + 1 + byteLength (joinLines lines) ≤
          pos + byteLength (joinLines (line :: lines))
        omega

theorem Indentation.pointsInside : Indentation.rule.PointsInside := by
  constructor
  · intro element d hd
    contradiction
  · intro text offset d hd
    simp only [rule] at hd
    split at hd
    · contradiction
    next c span hmixed =>
      have hwithin := firstMixed_within hmixed
      rw [joinLines_splitLines] at hwithin
      rw [List.mem_singleton.1 hd]
      exact hwithin

/-- **All rules of this library point inside what they look at.** -/
theorem pointsInside_of_mem_default : ∀ rule ∈ RuleSet.default, rule.PointsInside := by
  intro rule hrule
  simp only [RuleSet.default, List.mem_cons, List.not_mem_nil, or_false] at hrule
  rcases hrule with rfl | rfl | rfl | rfl | rfl
  · exact Accessibility.pointsInside
  · exact Repetition.pointsInside
  · exact Obsolete.pointsInside
  · exact Important.pointsInside
  · exact Indentation.pointsInside

end Triptych.Lint
