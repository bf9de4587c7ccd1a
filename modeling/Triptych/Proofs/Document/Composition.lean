import Triptych.Proofs.Document.Places
import Triptych.Proofs.Text.Padding

/-!
# Documents one below the other

A document can be continued on a new line, and the continuation is read as a document of its own.
Two things make that true:

* **What has been read stays read** (`readSection_append`): a section ends with its closing tag, and
  nothing behind that has a say in it. Between sections a text may be cut anywhere
  (`readSections_run`), and a line feed makes no name longer and lets no `<` open anything, so a
  document may end in a `<` of any kind (`readSections_append`).
* **A document further down reads the same** (`readSections_shift`): offsets are counted and never
  looked at, so they move by the bytes above, and locations by the lines above. Columns stay because
  the document starts on a new line.

`parse_append_newline` puts the two together. It covers failure as well: the second document fails
as it does alone, at an offset that is moved.
-/

namespace Triptych

open Text Markup

/-! ### Further down -/

/-- The content `base` bytes further on. -/
def SectionBody.shift (base : Nat) : SectionBody → SectionBody
  | .text value => .text value
  | .markup nodes => .markup (Node.shiftAll base nodes)

/-- The section with `base` more bytes and `lines` more lines above it. -/
def Section.shift (base lines : Nat) (s : Section) : Section :=
  { s with
    attributes := s.attributes.map (·.shift base)
    content := s.content.shift base
    span := s.span.shift base
    contentSpan := s.contentSpan.shift base
    location := s.location.moveDown lines }

namespace Location

variable {source text : List Char} {pos : Nat}

/-- The location of an offset does not depend on what comes after it. -/
theorem ofOffset_of_advances (h : Advances 0 source pos text) (more : List Char) :
    ofOffset (source ++ more) pos = ofOffset source pos := by
  obtain ⟨read, rfl, rfl⟩ := h
  rw [Nat.zero_add, List.append_assoc, ofOffset_append, ofOffset_append]

/-- Whole lines above a text move its locations down. -/
theorem ofOffset_below {above : List Char} {lines : Nat}
    (habove : ({} : Location).advanceAll above = ({} : Location).moveDown lines)
    (h : Advances 0 source pos text) :
    ofOffset (above ++ source) (pos + byteLength above) = (ofOffset source pos).moveDown lines := by
  obtain ⟨read, rfl, rfl⟩ := h
  calc ofOffset (above ++ (read ++ text)) (0 + byteLength read + byteLength above)
      = ofOffset ((above ++ read) ++ text) (byteLength (above ++ read)) := by
        rw [List.append_assoc, byteLength_append, Nat.zero_add, Nat.add_comm]
    _ = ({} : Location).advanceAll (above ++ read) := ofOffset_append _ _
    _ = (({} : Location).moveDown lines).advanceAll read := by rw [advanceAll_append, habove]
    _ = (ofOffset (read ++ text) (0 + byteLength read)).moveDown lines := by
        rw [advanceAll_moveDown, Nat.zero_add, ofOffset_append]

end Location

namespace Markup

/-! ### What has been read stays read -/

variable {pos : Nat} {text : List Char}

theorem readTag_append {found : ReadTag} (h : readTag pos text = .ok found) (more : List Char) :
    readTag pos (text ++ more) = .ok { found with rest := found.rest ++ more } := by
  obtain ⟨body, htext, -, hbody⟩ := (tagReads_of_readAttributes h).exists_body
  rw [htext, List.append_assoc]
  exact readAttributes_of_tagReads (hbody (found.rest ++ more))

theorem readRawText_append {name : String} {opening : Span} {found : ReadRawText}
    (hname : IsTagName name.toList) (h : readRawText name opening pos text = .ok found)
    (more : List Char) :
    readRawText name opening pos (text ++ more) =
      .ok { found with rest := found.rest ++ more } := by
  obtain ⟨closing, htext, hcontent, hstop, hclose⟩ := closesWith_of_readRawText hname h
  obtain ⟨closed, hclosing, -, hcut⟩ := hclose.cut
  -- The closing tag is complete, so it closes the raw text whatever comes behind it.
  have hlonger := hcut (found.rest ++ more)
  rw [hstop] at hlonger
  rw [htext, hclosing, List.append_assoc, List.append_assoc,
    readRawText_of_closesWith opening hname.ne_angle hcontent hlonger, ← hstop]

/-- What the grammar reads up to a closing tag is what a run inside the enclosing tag finds. -/
theorem parseNodes_enclosed {outer : Enclosing} {mid stop : Nat} {closing after : List Char}
    {nodes : List Node} (hreads : Reads pos text nodes mid closing)
    (hclose : ClosesWith outer.name.toList mid closing stop after) :
    parseNodes (some outer) [] [] pos text = .ok ⟨nodes, mid, stop, after⟩ := by
  obtain ⟨written, body, hlex, hwritten, hend⟩ := hclose.lexContent
  rw [parseNodes_of_reads hreads (some outer) [] [] (.inr (by simp [NoTextFirst])),
    parseNodes_step hlex]
  simp only [String.toList_ofList, List.append_nil, List.reverse_reverse]
  rw [if_pos hwritten]
  simp only [hend]

theorem parseNodes_append {outer : Enclosing} {found : ReadNodes}
    (h : parseNodes (some outer) [] [] pos text = .ok found) (more : List Char) :
    parseNodes (some outer) [] [] pos (text ++ more) =
      .ok { found with rest := found.rest ++ more } := by
  obtain ⟨closing, hreads, hclose⟩ := reads_of_parseNodes_enclosed h
  obtain ⟨closed, rfl, -, hcut⟩ := hclose.cut
  have hlonger := hcut (found.rest ++ more)
  -- The nodes end at a closing tag with either rest behind it.
  obtain ⟨read, rfl, -, hreads'⟩ := hreads.cut hclose.atEdge hlonger.atEdge
  rw [List.append_assoc, List.append_assoc]
  exact parseNodes_enclosed hreads' hlonger

end Markup

namespace Document

/-- A tag name stays one in small letters. -/
theorem isTagName_lower {name : String} (h : IsTagName name.toList) :
    IsTagName (String.ofList (lower name.toList)).toList := by
  refine h.of_equalsIgnoringCase ?_
  simp [equalsIgnoringCase, lower_lower]

section Append

variable {source text : List Char} {pos : Nat}

/-- **What follows a section has no say in it.** -/
theorem readSection_append {openedAs : String} {start : Nat} {result : ReadSection}
    (hname : IsTagName openedAs.toList) (hsource : Advances 0 source pos text)
    (h : readSection source openedAs start pos text = .ok result) (more : List Char) :
    readSection (source ++ more) openedAs start pos (text ++ more) =
      .ok { result with rest := result.rest ++ more } := by
  unfold readSection at h ⊢
  split at h
  · contradiction
  next tag htag =>
    have hlocation :=
      Location.ofOffset_of_advances (hsource.trans (readAttributes_advances htag)) more
    rw [readTag_append htag more]
    dsimp only at h ⊢
    rw [hlocation]
    split at h
    next hself =>
      obtain rfl := Except.ok.inj h
      exact if_pos hself
    next hself =>
      rw [if_neg hself]
      split at h
      next hmarkup =>
        rw [if_pos hmarkup]
        split at h
        · contradiction
        next body hbody =>
          obtain rfl := Except.ok.inj h
          -- The text of the section is cut out of what was read, in which nothing changed.
          obtain ⟨read, closing, -, hrest, hstop, -⟩ := parse_of_enclosed hbody
          rw [parseNodes_append hbody more]
          dsimp only
          rw [hstop, Nat.add_sub_cancel_left, hrest, List.append_assoc, takeBytes_append,
            takeBytes_append]
      next hmarkup =>
        rw [if_neg hmarkup]
        split at h
        · contradiction
        next body hbody =>
          obtain rfl := Except.ok.inj h
          rw [readRawText_append (isTagName_lower hname) hbody more]

/-- Between sections a text may be cut anywhere. -/
theorem readSections_run {run : List Char} (hrun : ∀ c ∈ run, (c != '<') = true)
    (rest : List Char) :
    readSections source pos (run ++ rest) = readSections source (pos + byteLength run) rest := by
  by_cases hne : run = []
  · subst hne
    rfl
  -- The text goes on up to the next `<`, whether it starts with the run or behind it.
  have hlex (before : List Char) (hbefore : ∀ c ∈ before, (c != '<') = true)
      (hsome : before ++ rest.takeWhile (· != '<') ≠ []) (pos : Nat) :
      readSections source pos (before ++ rest) =
        readSections source (pos + byteLength before + byteLength (rest.takeWhile (· != '<')))
          (rest.dropWhile (· != '<')) := by
    have hclass : ∀ c ∈ before ++ rest.takeWhile (· != '<'), (c != '<') = true := by
      intro c hc
      rcases List.mem_append.1 hc with hc | hc
      · exact hbefore c hc
      · exact of_mem_takeWhile (p := (· != '<')) hc
    have htoken := lexContent_of_lexes (.text hsome hclass (stops_dropWhile rest))
    rw [List.append_assoc, List.takeWhile_append_dropWhile] at htoken
    rw [readSections_step htoken]
    simp only [byteLength_append, Nat.add_assoc]
  rw [hlex run hrun (by simp [hne])]
  by_cases hstop : rest.takeWhile (· != '<') = []
  · -- No text follows the run.
    have hrest := List.takeWhile_append_dropWhile (p := (· != '<')) (l := rest)
    rw [hstop, List.nil_append] at hrest
    rw [hstop, hrest]
    rfl
  · have hbehind := hlex [] (by simp) (by simpa using hstop) (pos + byteLength run)
    simpa using hbehind.symm

/-- What is neither text nor a tag is passed over. -/
theorem readSections_pass {chars rest : List Char} {token : ContentPart}
    (h : Lexes chars token rest) (hopen : ∀ name, token ≠ .openTag name)
    (hclose : ∀ name, token ≠ .closeTag name) :
    readSections source pos (chars ++ rest) =
      readSections source (pos + byteLength chars) rest := by
  rw [readSections_step (lexContent_of_lexes h)]
  cases token with
  | openTag name => exact absurd rfl (hopen name)
  | closeTag name => exact absurd rfl (hclose name)
  | comment | declaration | text | lessThan => rfl

/-- **A document goes on below**: the sections of a source are read as before when a line feed and
more follow it, and then what comes below is read. -/
theorem readSections_append (hsource : Advances 0 source pos text) (below : List Char) :
    ∀ sections, readSections source pos text = .ok sections →
      readSections (source ++ '\n' :: below) pos (text ++ '\n' :: below) =
        (readSections (source ++ '\n' :: below) (byteLength source + 1) below).map
          (sections ++ ·) := by
  have hstops : Stops continuesAngle ('\n' :: below) := stops_cons (by decide) below
  fun_induction readSections source pos text with
  | case1 pos text hlex =>
    intro sections h
    obtain rfl := Except.ok.inj h
    -- At the end of the source the line feed is text.
    obtain rfl := eq_nil_of_lexContent hlex
    obtain ⟨read, hread, rfl⟩ := hsource
    rw [List.append_nil] at hread
    subst hread
    have hbreak : ∀ c ∈ ['\n'], (c != '<') = true := by simp
    have hfeed : readSections (source ++ '\n' :: below) (0 + byteLength source) ('\n' :: below) =
        readSections (source ++ '\n' :: below) (0 + byteLength source + 1) below :=
      readSections_run hbreak below
    rw [List.nil_append, hfeed, Nat.zero_add]
    cases readSections (source ++ '\n' :: below) (byteLength source + 1) below <;> rfl
  | case2 | case3 | case4 | case6 =>
    intro sections h
    contradiction
  | case5 pos text lexeme hlex _ stop name htoken result hsection _ sections hsections ih =>
    intro _ h
    obtain rfl := Except.ok.inj h
    have hlexes := lexes_of_lexContent hlex htoken
    have hlonger := lexContent_of_lexes (hlexes.append (by simp) hstops)
    have hname : IsTagName name.toList := by
      generalize lexeme.chars = chars, lexeme.rest = rest at hlexes
      cases hlexes with
      | openTag hname => rwa [String.toList_ofList]
    have hreader := hsource.trans (lexContent_advances pos hlex)
    have hbehind := hreader.trans (readSection_advances hsection)
    rw [← lexContent_append hlex, List.append_assoc, readSections_openTag hlonger rfl]
    dsimp only
    rw [readSection_append hname hreader hsection]
    dsimp only
    rw [ih hbehind _ hsections]
    cases readSections (source ++ '\n' :: below) (byteLength source + 1) below <;> rfl
  | case7 pos text lexeme hlex _ stop token hopen hclose htoken ih =>
    intro sections h
    have hlexes := lexes_of_lexContent hlex htoken
    rw [← ih (hsource.trans (lexContent_advances pos hlex)) sections h, ← lexContent_append hlex,
      List.append_assoc]
    by_cases htext : ∃ value, token = .text value
    · -- Text goes on into what follows, and may be cut where it ended before.
      obtain ⟨value, rfl⟩ := htext
      refine readSections_run ?_ _
      generalize lexeme.chars = chars, lexeme.rest = rest at hlexes
      cases hlexes with
      | text _ hrun => exact hrun
    · exact readSections_pass (hlexes.append (fun value heq => htext ⟨value, heq⟩) hstops) hopen
        hclose

end Append

/-! ### Reading further down -/

/-- What was read, with `base` more bytes and `lines` more lines above it. -/
def ReadSection.shift (base lines : Nat) (result : ReadSection) : ReadSection :=
  { result with found := result.found.shift base lines, stop := result.stop + base }

theorem declaresLanguage_shift (base : Nat) (attributes : List Attribute) :
    declaresLanguage (attributes.map (·.shift base)) = declaresLanguage attributes := by
  unfold declaresLanguage
  rw [List.any_map]
  rfl

section Below

variable {above source text : List Char} {lines pos : Nat}

/-- A section further down. -/
theorem readSection_shift
    (habove : ({} : Location).advanceAll above = ({} : Location).moveDown lines) (openedAs : String)
    (start : Nat) (hsource : Advances 0 source pos text) :
    readSection (above ++ source) openedAs (start + byteLength above)
      (pos + byteLength above) text =
      moved (byteLength above) (ReadSection.shift (byteLength above) lines)
        (readSection source openedAs start pos text) := by
  unfold readSection
  rw [readTag_shift]
  cases htag : readTag pos text with
  | error error => rfl
  | ok tag =>
    have hlocation := Location.ofOffset_below habove (hsource.trans (readAttributes_advances htag))
    simp only [moved_ok, ReadTag.shift, declaresLanguage_shift, hlocation]
    generalize String.ofList (lower openedAs.toList) = name
    split
    next => rfl
    split
    next =>
      have hbody :
          parseNodes (some ⟨name, ⟨start + byteLength above, tag.stop + byteLength above⟩⟩) [] []
            (tag.stop + byteLength above) tag.rest =
              moved (byteLength above) (ReadNodes.shift (byteLength above)) _ :=
        parseNodes_shift (byteLength above) (some ⟨name, ⟨start, tag.stop⟩⟩) [] [] tag.stop tag.rest
      rw [hbody]
      cases parseNodes (some ⟨name, ⟨start, tag.stop⟩⟩) [] [] tag.stop tag.rest with
      | error error => rfl
      | ok body =>
        -- The length of the text is a difference of offsets, which is the same further down.
        simp only [moved_ok, ReadNodes.shift, Nat.add_sub_add_right]
        rfl
    next =>
      have hbody : readRawText name ⟨start + byteLength above, tag.stop + byteLength above⟩
          (tag.stop + byteLength above) tag.rest =
              moved (byteLength above) (ReadRawText.shift (byteLength above)) _ :=
        readRawText_shift (byteLength above) name ⟨start, tag.stop⟩ tag.stop tag.rest
      rw [hbody]
      cases readRawText name ⟨start, tag.stop⟩ tag.stop tag.rest with
      | error error => rfl
      | ok body => rfl

/-- **A document further down reads the same**, with everything in it moved. -/
theorem readSections_shift
    (habove : ({} : Location).advanceAll above = ({} : Location).moveDown lines)
    (hsource : Advances 0 source pos text) :
    readSections (above ++ source) (pos + byteLength above) text =
      moved (byteLength above) (List.map (Section.shift (byteLength above) lines))
        (readSections source pos text) := by
  -- The tokens do not depend on offsets, so both runs take the same branch at every step.
  fun_induction readSections source pos text with
  | case1 pos text hlex => exact readSections_end hlex
  | case2 pos text lexeme hlex _ fault htoken =>
    rw [readSections_step hlex]
    simp only [htoken]
    rw [refusedContent_shift, moved_error]
  | case3 pos text lexeme hlex _ stop name htoken error hsection =>
    have hreader := hsource.trans (lexContent_advances pos hlex)
    rw [readSections_step hlex]
    simp only [htoken, Nat.add_right_comm _ (byteLength above),
      readSection_shift habove name pos hreader]
    rw [hsection]
    rfl
  | case4 pos text lexeme hlex _ stop name htoken result hsection _ error hsections ih =>
    have hreader := hsource.trans (lexContent_advances pos hlex)
    have hbehind := hreader.trans (readSection_advances hsection)
    rw [readSections_step hlex]
    simp only [htoken, Nat.add_right_comm _ (byteLength above),
      readSection_shift habove name pos hreader]
    rw [hsection]
    rw [hsections] at ih
    exact congrArg (Except.map _) (ih hbehind)
  | case5 pos text lexeme hlex _ stop name htoken result hsection _ sections hsections ih =>
    have hreader := hsource.trans (lexContent_advances pos hlex)
    have hbehind := hreader.trans (readSection_advances hsection)
    rw [readSections_step hlex]
    simp only [htoken, Nat.add_right_comm _ (byteLength above),
      readSection_shift habove name pos hreader]
    rw [hsection]
    rw [hsections] at ih
    exact congrArg (Except.map _) (ih hbehind)
  | case6 pos text lexeme hlex _ stop name htoken =>
    rw [readSections_step hlex]
    simp only [htoken]
    rw [span_shift]
    rfl
  | case7 pos text lexeme hlex _ stop token hopen hclose htoken ih =>
    rw [readSections_step hlex]
    simp only [htoken, Nat.add_right_comm _ (byteLength above)]
    exact ih (hsource.trans (lexContent_advances pos hlex))

end Below

/-- **Documents compose line by line.** Below a document that parses another text is read as it is
alone: its sections come after those of the document, moved by the bytes and the lines above them,
and its error is the error of the whole, moved by the bytes above it. -/
theorem parse_append_newline {first second : String} {document : Document}
    (h : Document.parse first = .ok document) :
    Document.parse (first ++ "\n" ++ second) =
      match Document.parse second with
      | .error error => .error (error.shift (byteLength first.toList + 1))
      | .ok more =>
        .ok ⟨document.sections ++
          more.sections.map (Section.shift (byteLength first.toList + 1)
            (first.toList.count '\n' + 1))⟩ := by
  have htext : (first ++ "\n" ++ second).toList = first.toList ++ '\n' :: second.toList := by
    simp [String.toList_append]
  have happend := readSections_append (.refl 0 first.toList) second.toList _
    (readSections_of_parse h)
  -- The document and the line feed are what stands above the second text.
  have hbelow := readSections_shift (Location.advanceAll_newline first.toList)
    (.refl 0 second.toList)
  have hbytes : byteLength (first.toList ++ ['\n']) = byteLength first.toList + 1 := by
    rw [byteLength_append]
    rfl
  rw [hbytes, Nat.zero_add, List.append_assoc, List.singleton_append] at hbelow
  unfold Document.parse
  rw [htext, happend, hbelow]
  cases readSections second.toList 0 second.toList with
  | error error => rfl
  | ok sections => rfl

/-- Below a document that ends in a lone `<` a second one is read from its own start. -/
theorem parse_append_newline_angle :
    Document.parse "<style>é</style><" =
      .ok ⟨[⟨"style", [], "é", .text "é", ⟨0, 17⟩, ⟨7, 9⟩, ⟨1, 8⟩⟩]⟩ ∧
      Document.parse ("<style>é</style><" ++ "\n" ++ "<script a/>") =
        .ok ⟨[⟨"style", [], "é", .text "é", ⟨0, 17⟩, ⟨7, 9⟩, ⟨1, 8⟩⟩,
          ⟨"script", [.bare "a" ⟨27, 28⟩], "", .text "", ⟨19, 30⟩, ⟨30, 30⟩, ⟨2, 12⟩⟩]⟩ := by
  have hfirst : Document.parse "<style>é</style><" =
      .ok ⟨[⟨"style", [], "é", .text "é", ⟨0, 17⟩, ⟨7, 9⟩, ⟨1, 8⟩⟩]⟩ := by
    have hlex : lexContent "<style>é</style><".toList =
        some ⟨[], "<style".toList, .ok (.openTag "style"), ">é</style><".toList⟩ := rfl
    rw [Document.parse, readSections_openTag hlex rfl]
    with_unfolding_all rfl
  have hsecond : Document.parse "<script a/>" =
      .ok ⟨[⟨"script", [.bare "a" ⟨8, 9⟩], "", .text "", ⟨0, 11⟩, ⟨11, 11⟩, ⟨1, 12⟩⟩]⟩ := by
    have hlex : lexContent "<script a/>".toList =
        some ⟨[], "<script".toList, .ok (.openTag "script"), " a/>".toList⟩ := rfl
    rw [Document.parse, readSections_openTag hlex rfl]
    with_unfolding_all rfl
  -- The two documents are read apart; put together, the second one is the same, moved.
  refine ⟨hfirst, (parse_append_newline hfirst).trans ?_⟩
  rw [hsecond]
  rfl

end Document

end Triptych
