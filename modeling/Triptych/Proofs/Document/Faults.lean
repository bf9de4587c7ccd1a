import Triptych.Proofs.Document.Fragment
import Triptych.Proofs.Document.Places
import Triptych.Proofs.Markup.Faults

/-!
# What the parse errors of a source point at

A section is read by the same readers as markup, so its errors point at what they are about
(`placed_of_readSection`). Two things are added here. The name of a section is made small, so that
the opening tag of a section without an end is its opening tag up to letter case; and between
sections any closing tag is one too many (`placed_of_readSections`).

`parse_error_pointsAt` is the result, for documents and for markup alike.
-/

namespace Triptych

open Text Markup

namespace Document

variable {source text : List Char} {pos : Nat}

/-- An error in a section points at what it is about. -/
theorem placed_of_readSection {lexeme : Lexeme ContentFault ContentPart} {openedAs : String}
    {error : ParseError} (hlex : lexContent text = some lexeme)
    (htoken : lexeme.token = .ok (.openTag openedAs))
    (h : readSection source openedAs pos (pos + byteLength lexeme.chars) lexeme.rest = .error error)
    (hsource : Advances 0 source pos text) : error.Placed source := by
  have hname := hsource.trans (lexContent_advances pos hlex)
  unfold readSection at h
  split at h
  next tagError htag =>
    obtain rfl := Except.error.inj h
    exact placed_of_readTag htag hname
  next tag htag =>
    have hbehind := hname.trans (readAttributes_advances htag)
    dsimp only at h
    split at h
    · contradiction
    next hself =>
      -- The section is called by its tag name in small letters, and so is the tag when nothing
      -- closes it.
      have hopening : OpenedBy source ⟨pos, tag.stop⟩ (String.ofList (lower openedAs.toList)) := by
        refine openedBy_of_opensWith (opensWith_of_lexContent hlex htoken htag)
          (by simpa using hself) ?_ hsource
        simp [equalsIgnoringCase, lower_lower]
      split at h
      · split at h
        next bodyError hbody =>
          obtain rfl := Except.error.inj h
          exact placed_of_parseNodes hbody (by simpa using hopening) (by simp) hbehind
        next => contradiction
      · split at h
        next bodyError hbody =>
          obtain rfl := Except.error.inj h
          exact placed_of_readRawText hbody hopening hbehind
        next => contradiction

/-- **An error in the sections of a source** points at what it is about. -/
theorem placed_of_readSections {error : ParseError}
    (h : readSections source pos text = .error error) (hsource : Advances 0 source pos text) :
    error.Placed source := by
  fun_induction readSections source pos text with
  | case1 => contradiction
  | case2 pos text lexeme hlex _ fault hfault =>
    obtain rfl := Except.error.inj h
    exact placed_of_contentFault hlex hfault hsource
  -- The error is that of a section, or comes from the sections behind it.
  | case3 pos text lexeme hlex _ stop name htoken sectionError hsection =>
    obtain rfl := Except.error.inj h
    exact placed_of_readSection hlex htoken hsection hsource
  | case4 pos text lexeme hlex _ stop name htoken result hsection _ restError hrest ih =>
    obtain rfl := Except.error.inj h
    exact ih hrest ((hsource.trans (lexContent_advances pos hlex)).trans
      (readSection_advances hsection))
  | case5 => contradiction
  | case6 pos text lexeme hlex _ stop name htoken =>
    obtain rfl := Except.error.inj h
    exact ⟨rfl, covers_closeTag hlex htoken hsource⟩
  | case7 pos text lexeme hlex _ stop _ _ _ _ ih =>
    exact ih h (hsource.trans (lexContent_advances pos hlex))

theorem placed_of_parse {source : String} {error : ParseError}
    (h : Document.parse source = .error error) :
    error.Placed source.toList :=
  placed_of_readSections (readSections_of_parse_error h) (.refl _ _)

end Document

theorem Markup.placed_of_parse {source : String} {error : ParseError}
    (h : Markup.parse source = .error error) :
    error.Placed source.toList :=
  placed_of_parseNodes (run_of_parse_error h) (by simp) (by simp) (.refl _ _)

/-- **Parse errors point at what they are about**, in documents and in markup. The span starts at
the offset of the error and lies in the source, with both ends between characters. It is empty only
where the source ends inside a tag, and then it stands at the end of the source. What it covers is
said by `ParseError.PointsAt`. -/
theorem parse_error_pointsAt {source : String} {error : ParseError}
    (h : Document.parse source = .error error ∨ Markup.parse source = .error error) :
    error.offset = error.span.start ∧
      error.span.start ≤ error.span.stop ∧ error.span.stop ≤ byteLength source.toList ∧
      IsBoundary source.toList error.span.start ∧ IsBoundary source.toList error.span.stop ∧
      (error.span.start = error.span.stop ↔
        ∃ expected, error = .unexpectedEnd (byteLength source.toList) expected) ∧
      error.PointsAt source.toList := by
  obtain ⟨hoffset, hpoints⟩ := h.elim Document.placed_of_parse Markup.placed_of_parse
  refine ⟨hoffset, ?_⟩
  rcases hpoints.covers with ⟨chars, hne, hcovers⟩ | ⟨expected, rfl⟩
  · have hlt := hcovers.start_lt_stop hne
    refine ⟨Nat.le_of_lt hlt, hcovers.stop_le, hcovers.isBoundary_start, hcovers.isBoundary_stop,
      ?_, hpoints⟩
    constructor
    · intro hempty
      exact absurd hempty (Nat.ne_of_lt hlt)
    · rintro ⟨expected, rfl⟩
      rfl
  · have hend : IsBoundary source.toList (byteLength source.toList) :=
      ⟨source.toList, [], by simp, rfl⟩
    exact ⟨Nat.le_refl _, Nat.le_refl _, hend, hend, ⟨fun _ => ⟨expected, rfl⟩, fun _ => rfl⟩,
      hpoints⟩

/-- A section that does not end is reported where its tag stands, with the name in lower case. The
character before it takes two bytes. -/
theorem parse_error_pointsAt_template :
    Document.parse "é<Template>" = .error (.unclosedElement ⟨2, 12⟩ "template") ∧
      OpenedBy "é<Template>".toList ⟨2, 12⟩ "template" := by
  have htext : lexContent "é<Template>".toList =
      some { chars := ['é'], token := .ok (.text "é"), rest := "<Template>".toList } := by
    rfl
  have hopen : lexContent "<Template>".toList =
      some ⟨[], "<Template".toList, .ok (.openTag "Template"), ['>']⟩ := rfl
  have hparse : Document.parse "é<Template>" = .error (.unclosedElement ⟨2, 12⟩ "template") := by
    rw [Document.parse, Document.readSections_step htext]
    dsimp only
    rw [Document.readSections_openTag hopen rfl]
    with_unfolding_all rfl
  exact ⟨hparse, (parse_error_pointsAt (.inl hparse)).2.2.2.2.2.2⟩

end Triptych
