import Triptych.Proofs.Document.Faults
import Triptych.Proofs.Report.Places

/-!
# The header of a report

Below the message a report has a header, with the file and the line and column of the error:
`HeadedBy` says which place it names. The text of a report tells that place (`HeadedBy.unique`): the
margin is made of spaces, the numbers are made of digits, and neither goes on into what follows it.

A report of a parse error has a header if its last marked place lies in the source, and the header
names `place` (`headedBy_render_iff`). So it names the location of the error exactly under three
conditions (`header_location_iff`): the span, read as a range of characters, does not leave the
source, and before it bytes are characters and lines end at line feeds.
-/

namespace Triptych.Report

open Text Markup

/-! ### What a header says -/

/-- **The report names a place**: after the message and behind a margin stand the file and, between
brackets with it, the line and the column. -/
def HeadedBy (file : String) (error : ParseError) (place : Location) (report : String) : Prop :=
  ∃ margin below : String, (∀ c ∈ margin.toList, c = ' ') ∧
    report = "Error: " ++ error.message ++ "\n" ++
      (margin ++ "╭─[" ++ file ++ ":" ++ place.display ++ "]\n" ++ below)

/-- Two runs of a class that do not go on are the same run before the same text. -/
theorem run_inj {p : Char → Bool} {xs ys rest rest' : List Char} (hxs : ∀ c ∈ xs, p c = true)
    (hys : ∀ c ∈ ys, p c = true) (hrest : Stops p rest) (hrest' : Stops p rest')
    (h : xs ++ rest = ys ++ rest') :
    xs = ys ∧ rest = rest' := by
  have htake := congrArg (List.takeWhile p) h
  have hdrop := congrArg (List.dropWhile p) h
  rw [takeWhile_append_of_stops hxs hrest, takeWhile_append_of_stops hys hrest'] at htake
  rw [dropWhile_append_of_stops hxs hrest, dropWhile_append_of_stops hys hrest'] at hdrop
  exact ⟨htake, hdrop⟩

/-- A number in front of something else than a digit can be read back. -/
theorem toString_inj_of_stops {m n : Nat} {rest rest' : List Char} (hrest : Stops Char.isDigit rest)
    (hrest' : Stops Char.isDigit rest')
    (h : (toString m).toList ++ rest = (toString n).toList ++ rest') : m = n ∧ rest = rest' := by
  have hdigits (k : Nat) : ∀ c ∈ (toString k).toList, c.isDigit = true := by
    intro c hc
    rw [Nat.toString_eq_repr, Nat.toList_repr] at hc
    exact Nat.isDigit_of_mem_toDigits (by decide) (by decide) hc
  obtain ⟨hnumber, htail⟩ := run_inj (hdigits m) (hdigits n) hrest hrest' h
  rw [Nat.toString_eq_repr, Nat.toString_eq_repr, Nat.toList_repr, Nat.toList_repr] at hnumber
  refine ⟨?_, htail⟩
  rw [← @Nat.ofDigitChars_ten_toDigits m, hnumber, Nat.ofDigitChars_ten_toDigits]

/-- **The text of a report tells the place that it names.** -/
theorem HeadedBy.unique {file report : String} {error : ParseError} {place place' : Location}
    (h : HeadedBy file error place report) (h' : HeadedBy file error place' report) :
    place = place' := by
  obtain ⟨margin, below, hmargin, rfl⟩ := h
  obtain ⟨margin', below', hmargin', heq⟩ := h'
  have hchars := congrArg String.toList heq
  have hfile : "╭─[".toList = '╭' :: ['─', '['] := rfl
  have hcolon : ":".toList = [':'] := rfl
  have hclose : "]\n".toList = [']', '\n'] := rfl
  have hsep : (toString ":").toList = [':'] := rfl
  simp only [String.toList_append, Location.display, List.append_assoc, List.append_cancel_left_eq,
    hfile, hcolon, hclose, hsep, List.cons_append, List.nil_append] at hchars
  -- The margin ends at the bracket, the line at the colon and the column at the bracket.
  obtain ⟨-, hhead⟩ := run_inj (p := (· == ' ')) (by simpa using hmargin) (by simpa using hmargin')
    (stops_cons rfl _) (stops_cons rfl _) hchars
  have hplace := List.append_cancel_left (List.cons.inj (List.cons.inj (List.cons.inj hhead).2).2).2
  obtain ⟨hline, hrest⟩ :=
    toString_inj_of_stops (stops_cons rfl _) (stops_cons rfl _) (List.cons.inj hplace).2
  obtain ⟨hcolumn, -⟩ :=
    toString_inj_of_stops (stops_cons rfl _) (stops_cons rfl _) (List.cons.inj hrest).2
  calc place = ⟨place.line, place.column⟩ := rfl
    _ = ⟨place'.line, place'.column⟩ := by rw [hline, hcolumn]
    _ = place' := rfl

/-- The first line of a drawing is the header. -/
theorem exists_drawing_eq (file label : String) (source : List Char) (range : Marked) :
    ∃ margin, (∀ c ∈ String.toList margin, c = ' ') ∧
      drawing file label source range =
        (margin ++ "╭─[" ++ file ++ ":" ++ (place source range.start).display ++ "]") ::
          (drawing file label source range).tail := by
  let number := (lineOf range.start 1 0 (sourceLines source)).number
  refine ⟨String.ofList (List.replicate ((toString number).length + 2) ' '), by simp, ?_⟩
  unfold drawing
  rw [List.tail_cons, List.cons.injEq]
  simp only [place, placeIn, Location.display, String.append_assoc, and_true]
  rfl

/-- Lines of which the first one is a header make a report that names its place. -/
theorem headedBy_join {margin : String} (hmargin : ∀ c ∈ margin.toList, c = ' ') (file : String)
    (error : ParseError) (loc : Location) (lines : List String) :
    HeadedBy file error loc (String.join
      ((("Error: " ++ error.message) :: (margin ++ "╭─[" ++ file ++ ":" ++ loc.display ++ "]") ::
      lines).map
        (· ++ "\n"))) := by
  have hbreak : "]\n" = "]" ++ "\n" := rfl
  refine ⟨margin, String.join (lines.map (· ++ "\n")), hmargin, ?_⟩
  rw [List.map_cons, List.map_cons, String.join_cons, String.join_cons, hbreak]
  simp only [String.append_assoc]

/-- The message alone names no place. -/
theorem not_headedBy_message {file : String} {error : ParseError} {loc : Location} :
    ¬ HeadedBy file error loc (String.join ([("Error: " ++ error.message)].map (· ++ "\n"))) := by
  rintro ⟨margin, below, -, heq⟩
  rw [List.map_singleton, String.join_cons, String.join_nil] at heq
  have hlength := congrArg String.length heq
  simp only [String.length_append] at hlength
  have hbracket : "╭─[".length = 3 := rfl
  have hempty : "".length = 0 := rfl
  omega

/-! ### What the header of a parse error says -/

/-- **The place that the report of an error names**, if it names one: the report has a header as
long as the last place that it marks lies in the source. -/
theorem headedBy_render_iff {source : String} {error : ParseError}
    (hspan : error.span.start < error.span.stop)
    (hstop : error.span.stop ≤ byteLength source.toList) (file : String) (loc : Location) :
    HeadedBy file error loc (render file source error) ↔
      error.span.stop ≤ source.toList.length + 1 ∧ loc = place source.toList error.span.start := by
  -- The error has a span within the source, so that span is what is marked.
  have hrange : markedRange (byteLength source.toList) error.span =
      ⟨error.span.start, error.span.stop⟩ := by
    unfold markedRange
    rw [Marked.mk.injEq]
    omega
  unfold render
  simp only [hrange, if_pos hspan]
  split
  next hlast => exact iff_of_false not_headedBy_message (by omega)
  -- The drawing has a header with the place of the span, and a report has only one header.
  next hlast =>
    obtain ⟨margin, hmargin, hdrawing⟩ := exists_drawing_eq file error.label source.toList
      ⟨error.span.start, error.span.stop⟩
    rw [hdrawing]
    have hheaded := headedBy_join hmargin file error (place source.toList error.span.start)
      (drawing file error.label source.toList ⟨error.span.start, error.span.stop⟩).tail
    constructor
    · intro h
      exact ⟨by omega, h.unique hheaded⟩
    · rintro ⟨-, rfl⟩
      exact hheaded

/-- **A report shows where the error is** exactly if its marks do not leave the source, and before
the error bytes are characters and only line feeds end lines. The error is one of a document, and it
is not at the end. -/
theorem header_location_iff {source : String} {error : ParseError} (file : String)
    (h : Document.parse source = .error error)
    (hstart : error.span.start < byteLength source.toList) :
    HeadedBy file error (Location.ofOffset source.toList error.span.start)
      (render file source error) ↔
      error.span.stop ≤ source.toList.length + 1 ∧
        (∀ c ∈ takeBytes error.span.start source.toList, c.utf8Size = 1) ∧
        LineFeedsOnly error.span.start source.toList := by
  -- The span is not empty, because the error is not at the end, and it starts between characters.
  obtain ⟨chars, hne, hcovers⟩ := (Document.placed_of_parse h).pointsAt.covers.resolve_right (by
    rintro ⟨expected, rfl⟩
    exact Nat.lt_irrefl _ hstart)
  rw [headedBy_render_iff (hcovers.start_lt_stop hne) hcovers.stop_le file]
  obtain ⟨before, after, hsource, hbefore, -⟩ := hcovers
  have hbehind : chars ++ after ≠ [] := by simp [hne]
  rw [hsource, hbefore, takeBytes_append, ofOffset_eq_place_iff hbehind]

/-- Behind a carriage return and a line feed the columns start anew. -/
theorem header_location_iff_second_line :
    Document.parse "a\r\n</x>" = .error (.invalidSyntax ⟨3, 6⟩ (.closingTagAtTopLevel "x")) ∧
      3 < byteLength "a\r\n</x>".toList ∧
      HeadedBy "App.weave" (.invalidSyntax ⟨3, 6⟩ (.closingTagAtTopLevel "x")) ⟨2, 1⟩
        (render "App.weave" "a\r\n</x>" (.invalidSyntax ⟨3, 6⟩ (.closingTagAtTopLevel "x"))) := by
  have hparse : Document.parse "a\r\n</x>" =
    .error (.invalidSyntax ⟨3, 6⟩ (.closingTagAtTopLevel "x")) := by with_unfolding_all rfl
  have hsmall : ∀ c ∈ takeBytes 3 "a\r\n</x>".toList, c.utf8Size = 1 := by
    have hbefore : takeBytes 3 "a\r\n</x>".toList = ['a', '\r', '\n'] := rfl
    simp only [hbefore, List.forall_mem_cons]
    exact ⟨rfl, rfl, rfl, List.forall_mem_nil _⟩
  have hfeeds : LineFeedsOnly 3 "a\r\n</x>".toList := by
    show LineFeedsOnly 3 ['a', '\r', '\n', '<', '/', 'x', '>']
    simp [LineFeedsOnly, endsLine]
  exact ⟨hparse, by decide,
    (header_location_iff "App.weave" hparse (by decide)).2 ⟨by decide, hsmall, hfeeds⟩⟩

/-- Behind a character of two bytes the report shows the place one column further right. -/
theorem header_misses_column :
    Document.parse "é</x>" = .error (.invalidSyntax ⟨2, 5⟩ (.closingTagAtTopLevel "x")) ∧
      Location.ofOffset "é</x>".toList 2 = ⟨1, 2⟩ ∧
      HeadedBy "App.weave" (.invalidSyntax ⟨2, 5⟩ (.closingTagAtTopLevel "x")) ⟨1, 3⟩
        (render "App.weave" "é</x>" (.invalidSyntax ⟨2, 5⟩ (.closingTagAtTopLevel "x"))) ∧
      ¬ HeadedBy "App.weave" (.invalidSyntax ⟨2, 5⟩ (.closingTagAtTopLevel "x")) ⟨1, 2⟩
        (render "App.weave" "é</x>" (.invalidSyntax ⟨2, 5⟩ (.closingTagAtTopLevel "x"))) := by
  have hparse : Document.parse "é</x>" =
    .error (.invalidSyntax ⟨2, 5⟩ (.closingTagAtTopLevel "x")) := by with_unfolding_all rfl
  let error : ParseError := .invalidSyntax ⟨2, 5⟩ (.closingTagAtTopLevel "x")
  have hspan : error.span.start < error.span.stop := by decide
  have hstop : error.span.stop ≤ byteLength "é</x>".toList := by decide
  have hheaded := headedBy_render_iff hspan hstop "App.weave"
  refine ⟨hparse, by decide, (hheaded _).2 ⟨by decide, by decide⟩, fun h => ?_⟩
  exact absurd ((hheaded _).1 h).2 (by decide)

end Triptych.Report
