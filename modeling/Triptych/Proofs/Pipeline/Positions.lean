import Triptych.Pipeline.Compile
import Triptych.Proofs.Document.Places
import Triptych.Proofs.Script.Relocation
import Triptych.Proofs.Text.Padding

/-!
# Positions in the text that a tool gets

A tool gets the text of a section behind as many empty lines as there are lines above it in the
document. What it says about a position in that text can be read as a position in the document: the
line is the same, and so is the column, except on the first line, where the document has something
before the text, at least the end of an opening tag.

All of it follows from one equation, `ofOffset_document`. Reading the text leads from the start of a
line in one case, and from where the text starts in the other; the second place is the first, pushed
to the right (`Location.pushRight`), and reading on respects that move.

* `Section.lineHead`: the start of the line that the text of a section starts in;
* `ofOffset_paddedText`, `ofOffset_document`: an offset of the text in what a tool gets, and in the
  document;
* `paddedText_positions`: what that means for lines and columns.
-/

namespace Triptych

open Text

namespace Location

/-- On a line that a reader has started, everything is pushed to the right. -/
theorem pushRight_of_line_eq {place loc : Location} {count : Nat} (hline : loc.line = place.line)
    (hcolumn : place.column ≤ loc.column) :
    place.pushRight count loc = ⟨loc.line, loc.column + count⟩ :=
  if_pos ⟨hline, hcolumn⟩

/-- On other lines nothing is. -/
theorem pushRight_of_line_ne {place loc : Location} {count : Nat} (hline : loc.line ≠ place.line) :
    place.pushRight count loc = loc := by
  refine if_neg ?_
  rintro ⟨hsame, -⟩
  exact hline hsame

end Location

/-- The start of the line that the text of a section starts in. -/
def Section.lineHead (s : Section) : Location :=
  ⟨s.location.line, 1⟩

namespace Pipeline

variable {source : List Char} {s : Section} {before after : List Char}

/-- **In the text that a tool gets** a reader starts at the head of the line. -/
theorem ofOffset_paddedText (hagrees : s.AgreesWith source) (hread : s.ReadFrom source)
    (hraw : s.raw.toList = before ++ after) :
    Location.ofOffset (paddedText s).toList (s.location.linesAbove + byteLength before) =
      s.lineHead.advanceAll before := by
  obtain ⟨above, below, -, -, hlocation⟩ := hagrees.exists_location hread
  have hline : 1 ≤ s.location.line := by
    rw [hlocation, Location.line_advanceAll]
    exact Nat.le_add_right 1 _
  -- As many lines are put above the text as are above it in the document, so it starts in the same
  -- line.
  have hhead : ({} : Location).moveDown s.location.linesAbove = s.lineHead := by
    show (⟨1 + (s.location.line - 1), 1⟩ : Location) = ⟨s.location.line, 1⟩
    rw [Nat.add_sub_cancel' hline]
  unfold paddedText
  rw [String.toList_ofList, hraw, Location.ofOffset_padAbove, hhead]

/-- **In the document** a reader is pushed to the right by what is before the text in its first
line. -/
theorem ofOffset_document (hagrees : s.AgreesWith source) (hread : s.ReadFrom source)
    (hraw : s.raw.toList = before ++ after) :
    Location.ofOffset source (s.contentSpan.start + byteLength before) =
      s.lineHead.pushRight (s.location.column - 1) (s.lineHead.advanceAll before) := by
  obtain ⟨above, below, hsource, hstart, hlocation⟩ := hagrees.exists_location hread
  have hcolumn : 1 ≤ s.location.column := by
    rw [hlocation]
    exact Location.one_le_column_advanceAll (Nat.le_refl 1) above
  -- The text starts where the head of its line is pushed to.
  have hpushed : s.lineHead.pushRight (s.location.column - 1) s.lineHead = s.location := by
    rw [Location.pushRight_of_line_eq rfl (Nat.le_refl 1)]
    show (⟨s.location.line, 1 + (s.location.column - 1)⟩ : Location) = s.location
    rw [Nat.add_sub_cancel' hcolumn]
  have hcut : source = (above ++ before) ++ (after ++ below) := by
    rw [hsource, hraw]
    simp only [List.append_assoc]
  calc Location.ofOffset source (s.contentSpan.start + byteLength before)
      = Location.ofOffset ((above ++ before) ++ (after ++ below))
          (byteLength (above ++ before)) := by
        rw [hstart, byteLength_append, ← hcut]
    _ = (({} : Location).advanceAll above).advanceAll before := by
        rw [Location.ofOffset_append, Location.advanceAll_append]
    _ = s.location.advanceAll before := by rw [hlocation]
    _ = s.lineHead.pushRight (s.location.column - 1) (s.lineHead.advanceAll before) := by
        rw [Location.pushRight_advanceAll, hpushed]

/-- **Positions in the text that a tool gets are positions in the document.** An offset of the text
of a section, counted behind the empty lines, is in the line that it has in the document, and that
is the line where the text starts or one below it. Below it the column is the same too; in the line
where the text starts, the document has the column further right, by as much as the text itself
starts further right than the line. -/
theorem paddedText_positions {text : String} {document : Document}
    (h : Document.parse text = .ok document) {s : Section} (hs : s ∈ document.sections)
    {offset : Nat} (hoffset : IsBoundary s.raw.toList offset) :
    let padded := Location.ofOffset (paddedText s).toList (s.location.linesAbove + offset)
    let original := Location.ofOffset text.toList (s.contentSpan.start + offset)
    padded.line = original.line ∧ s.location.line ≤ padded.line ∧
      (s.location.line < padded.line → padded.column = original.column) ∧
      (padded.line = s.location.line → original.column =
          padded.column + (s.location.column - 1)) := by
  obtain ⟨before, after, hraw, rfl⟩ := hoffset
  have hagrees :=
    Document.agreesWith_of_readSections (.refl _ _) _ (Document.readSections_of_parse h) s hs
  have hread := Document.readFrom_of_parse h s hs
  intro padded original
  -- Both positions come from the place where the text starts: in the padded text that place is the
  -- head of its line, in the document it is further right.
  have hpadded : padded = s.lineHead.advanceAll before := ofOffset_paddedText hagrees hread hraw
  have horiginal : original = s.lineHead.pushRight (s.location.column - 1) padded := by
    rw [hpadded]
    exact ofOffset_document hagrees hread hraw
  refine ⟨?_, ?_, ?_, ?_⟩
  · rw [horiginal, Location.line_pushRight]
  · rw [hpadded, Location.line_advanceAll]
    exact Nat.le_add_right _ _
  · intro hbelow
    have hline : padded.line ≠ s.lineHead.line := Nat.ne_of_gt hbelow
    rw [horiginal, Location.pushRight_of_line_ne hline]
  · intro hfirst
    have hline : padded.line = s.lineHead.line := hfirst
    have hcolumn : s.lineHead.column ≤ padded.column := by
      rw [hpadded]
      exact Location.one_le_column_advanceAll (Nat.le_refl 1) before
    rw [horiginal, Location.pushRight_of_line_eq hline hcolumn]

/-- A script whose opening tag ends in the second line, with a letter of two bytes before a line
feed. -/
def accentDocument : String :=
  "<script\n>é\nx</script>"

/-- The section of this document. -/
def accentScript : Section :=
  ⟨"script", [], "é\nx", .text "é\nx", ⟨0, 22⟩, ⟨9, 13⟩, ⟨2, 2⟩⟩

/-- Behind the letter, in the line where the text starts, the two columns are one apart. -/
theorem paddedText_positions_accent :
    Document.parse accentDocument = .ok ⟨[accentScript]⟩ ∧ IsBoundary accentScript.raw.toList 2 ∧
      Location.ofOffset (paddedText accentScript).toList (1 + 2) = ⟨2, 2⟩ ∧
      (Location.ofOffset accentDocument.toList (9 + 2)).line = 2 ∧
      (Location.ofOffset accentDocument.toList (9 + 2)).column = 3 := by
  have hlex : Markup.lexContent accentDocument.toList =
      some ⟨[], "<script".toList, .ok (.openTag "script"), "\n>é\nx</script>".toList⟩ := by
    rfl
  have hparse : Document.parse accentDocument = .ok ⟨[accentScript]⟩ := by
    apply Document.parse_of_single hlex rfl
    with_unfolding_all rfl
  have hboundary : IsBoundary accentScript.raw.toList 2 :=
    ⟨['é'], ['\n', 'x'], by decide, by decide⟩
  have hpadded : Location.ofOffset (paddedText accentScript).toList (1 + 2) = ⟨2, 2⟩ := by
    rfl
  obtain ⟨hline, -, -, hcolumn⟩ := paddedText_positions hparse (List.mem_singleton.2 rfl) hboundary
  refine ⟨hparse, hboundary, hpadded, ?_, ?_⟩
  · exact hline.symm.trans (congrArg Location.line hpadded)
  · exact (hcolumn (congrArg Location.line hpadded)).trans (congrArg (·.column + 1) hpadded)

end Pipeline

end Triptych
