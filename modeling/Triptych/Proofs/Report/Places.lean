import Triptych.Report
import Triptych.Proofs.Text.Location
import Triptych.Proofs.Text.Slice

/-!
# Two ways to count lines and columns

A report numbers the lines that a terminal shows: they end at line feeds, but also at carriage
returns, form feeds and a few more characters. A `Location` counts line feeds only. And a report
takes the offset that it gets for a number of characters, while offsets are numbers of bytes. So a
place has two addresses: `place` is the one that a report names, and `Location.advanceAll` leads to
the other.

Along the text the report's line number is never behind (`count_le_number`), since each line feed
ends a line. It is ahead as soon as a line has ended at anything else, and then the addresses differ
for good; and on the same line the columns tell two places apart. Hence the addresses of two places
agree only if it is one place, and only line feeds end the lines before it
(`advanceAll_eq_placeIn_iff`). For one offset that is read both as bytes and as characters this is
`ofOffset_eq_place_iff`.
-/

namespace Triptych.Report

open Text

/-! ### Places -/

/-- The line and the column, both counted from 1, of a character offset in some lines, of which the
first one has a number and a start. -/
def placeIn (offset number start : Nat) (lines : List (List Char)) : Location :=
  ⟨(lineOf offset number start lines).number, offset - (lineOf offset number start lines).start + 1⟩

/-- The place that a report names for a character offset of a source. -/
def place (source : List Char) (offset : Nat) : Location :=
  placeIn offset 1 0 (sourceLines source)

/-- **Only line feeds end lines** among the first characters of a text: whatever ends a line there
is a line feed, or a carriage return right before one. -/
def LineFeedsOnly : Nat → List Char → Prop
  | 0, _ => True
  | _ + 1, [] => True
  | count + 1, c :: cs => (endsLine c = true → c = '\n' ∨ c = '\r' ∧ cs.head? = some '\n') ∧
      LineFeedsOnly count cs

/-- In the last line the place is found, wherever it is. -/
theorem placeIn_last (number start count : Nat) (line : List Char) :
    placeIn (start + count) number start [line] = ⟨number, count + 1⟩ := by
  simp [placeIn, lineOf]

/-- In any other line it is found if the line is long enough. -/
theorem placeIn_here {count : Nat} {line : List Char} (h : count < line.length) (number start : Nat)
    (next : List Char) (lines : List (List Char)) :
    placeIn (start + count) number start (line :: next :: lines) = ⟨number, count + 1⟩ := by
  rw [placeIn, lineOf, if_pos (Nat.add_lt_add_left h start), Nat.add_sub_cancel_left]

/-- Otherwise the search goes on in the next line. -/
theorem placeIn_further (number start count : Nat) (line next : List Char)
    (lines : List (List Char)) :
    placeIn (start + (line.length + count)) number start (line :: next :: lines) =
      placeIn (start + line.length + count) (number + 1) (start + line.length) (next :: lines) := by
  rw [placeIn, lineOf, if_neg (by omega), ← Nat.add_assoc]
  rfl

/-! ### The first line -/

/-- The line is the first one of the text that it makes up with `rest`: nothing in it ends a line
before its own end. -/
inductive FirstLine : List Char → List Char → Prop
  | last {line : List Char} (hbody : ∀ c ∈ line, endsLine c = false) : FirstLine line []
  | pair {body rest : List Char} (hbody : ∀ c ∈ body, endsLine c = false) :
      FirstLine (body ++ ['\r', '\n']) rest
  | single {body rest : List Char} {c : Char} (hbody : ∀ c ∈ body, endsLine c = false)
      (hc : endsLine c = true)
    (hpair : ¬ (c = '\r' ∧ rest.head? = some '\n')) : FirstLine (body ++ [c]) rest

theorem FirstLine.cons {c : Char} {line rest : List Char} (hc : endsLine c = false)
    (h : FirstLine line rest) :
    FirstLine (c :: line) rest := by
  cases h with
  | last hbody => exact .last (List.forall_mem_cons.2 ⟨hc, hbody⟩)
  | pair hbody => exact .pair (List.forall_mem_cons.2 ⟨hc, hbody⟩)
  | single hbody hend hpair => exact .single (List.forall_mem_cons.2 ⟨hc, hbody⟩) hend hpair

/-- Only the empty text has no lines. -/
theorem eq_nil_of_sourceLines {text : List Char} (h : sourceLines text = []) : text = [] := by
  fun_cases sourceLines text with
  | case1 => rfl
  | case2 | case3 | case4 | case5 => simp_all [sourceLines]

theorem ne_nil_of_sourceLines {text line : List Char} {lines : List (List Char)}
    (h : sourceLines text = line :: lines) : text ≠ [] := by
  rintro rfl
  cases h

/-- **The lines of a text are its first line and the lines of the rest.** -/
theorem firstLine_of_sourceLines {text line : List Char} {lines : List (List Char)}
    (h : sourceLines text = line :: lines) :
    ∃ rest, text = line ++ rest ∧ FirstLine line rest ∧ sourceLines rest = lines := by
  have hnil : ∀ c ∈ ([] : List Char), endsLine c = false := nofun
  fun_induction sourceLines text generalizing line lines with
  | case1 => cases h
  | case2 cs =>
    obtain ⟨rfl, rfl⟩ := List.cons.inj h
    exact ⟨cs, rfl, .pair hnil, rfl⟩
  | case3 c cs hpair hc =>
    obtain ⟨rfl, rfl⟩ := List.cons.inj h
    refine ⟨cs, rfl, .single hnil hc ?_, rfl⟩
    rintro ⟨rfl, hhead⟩
    obtain ⟨cs', rfl⟩ := List.head?_eq_some_iff.1 hhead
    exact hpair cs' rfl rfl
  | case4 c cs _ hc hcs ih =>
    obtain ⟨rfl, rfl⟩ := List.cons.inj h
    -- Without lines behind it the character is all there is.
    obtain rfl := eq_nil_of_sourceLines hcs
    exact ⟨[], rfl, .last (by simpa using hc), rfl⟩
  | case5 c cs _ hc first others hcs ih =>
    obtain ⟨rfl, rfl⟩ := List.cons.inj h
    obtain ⟨rest, rfl, hfirst, hrest⟩ := ih hcs
    exact ⟨rest, rfl, hfirst.cons (by simpa using hc), hrest⟩

theorem endsLine_newline : endsLine '\n' = true := rfl

/-- A line feed ends a line. -/
theorem notMem_of_endsLine {text : List Char} (h : ∀ c ∈ text, endsLine c = false) :
    '\n' ∉ text := by
  intro hmem
  have hnewline := h '\n' hmem
  rw [endsLine_newline] at hnewline
  contradiction

/-- What holds of more lines holds of fewer. -/
theorem LineFeedsOnly.mono {count count' : Nat} {text : List Char} (h : LineFeedsOnly count text)
    (hle : count' ≤ count) : LineFeedsOnly count' text := by
  induction count' generalizing count text with
  | zero => trivial
  | succ count' ih =>
    obtain ⟨count, rfl⟩ : ∃ n, count = n + 1 := ⟨count - 1, by omega⟩
    cases text with
    | nil => trivial
    | cons c cs => exact ⟨h.1, ih h.2 (Nat.le_of_succ_le_succ hle)⟩

/-- Characters that end no line have no say. -/
theorem lineFeedsOnly_body {body : List Char} (h : ∀ c ∈ body, endsLine c = false) (count : Nat)
    (text : List Char) :
    LineFeedsOnly (body.length + count) (body ++ text) ↔ LineFeedsOnly count text := by
  induction body with
  | nil => rw [List.length_nil, Nat.zero_add, List.nil_append]
  | cons c body ih =>
    rw [List.forall_mem_cons] at h
    rw [List.length_cons, Nat.add_right_comm, List.cons_append, LineFeedsOnly, ih h.2]
    simp [h.1]

namespace FirstLine

variable {line rest : List Char} {count : Nat}

/-- Before the end of the line there is no line feed. -/
theorem notMem_take (h : FirstLine line rest) (hcount : count < line.length) :
    '\n' ∉ line.take count := by
  cases h with
  -- The line feed of a line is its last character, alone or behind a carriage return.
  | last hbody => exact fun hmem => notMem_of_endsLine hbody (List.mem_of_mem_take hmem)
  | @pair body _ hbody =>
    have hlength : count ≤ (body ++ ['\r']).length := by
      rw [List.length_append] at hcount ⊢
      exact Nat.le_of_lt_succ hcount
    rw [show body ++ ['\r', '\n'] = (body ++ ['\r']) ++
      ['\n'] by simp, List.take_append_of_le_length hlength]
    intro hmem
    rcases List.mem_append.1 (List.mem_of_mem_take hmem) with hmem | hmem
    · exact notMem_of_endsLine hbody hmem
    · simp at hmem
  | @single body _ c hbody =>
    have hlength : count ≤ body.length := by
      rw [List.length_append] at hcount
      exact Nat.le_of_lt_succ hcount
    rw [List.take_append_of_le_length hlength]
    exact fun hmem => notMem_of_endsLine hbody (List.mem_of_mem_take hmem)

/-- Before the end of the line nothing ends a line, except a carriage return that belongs to that
end. -/
theorem lineFeedsOnly (h : FirstLine line rest) (hcount : count < line.length) :
    LineFeedsOnly count (line ++ rest) := by
  cases h with
  | last hbody =>
    have hline := (lineFeedsOnly_body hbody 0 []).2 trivial
    exact hline.mono (Nat.le_of_lt hcount)
  -- The carriage return of a pair stands before its line feed, so it ends no line.
  | @pair body _ hbody =>
    have hline := (lineFeedsOnly_body hbody 1 ('\r' :: '\n' :: rest)).2
      ⟨fun _ => .inr ⟨rfl, rfl⟩, trivial⟩
    rw [List.append_assoc]
    refine hline.mono ?_
    rw [List.length_append] at hcount
    exact Nat.le_of_lt_succ hcount
  | @single body _ c hbody =>
    have hline := (lineFeedsOnly_body hbody 0 (c :: rest)).2 trivial
    rw [List.append_assoc]
    refine hline.mono ?_
    rw [List.length_append] at hcount
    exact Nat.le_of_lt_succ hcount

/-- **A line that is not the last one** ends with a line feed, and then what is behind it decides
whether only line feeds end lines; or it has none, and then something else has ended a line. -/
theorem ends (h : FirstLine line rest) (hrest : rest ≠ []) :
    (∃ init, line = init ++ ['\n'] ∧ '\n' ∉ init ∧
      ∀ count, LineFeedsOnly (line.length + count) (line ++ rest) ↔ LineFeedsOnly count rest) ∨
    '\n' ∉ line ∧ ∀ count, ¬ LineFeedsOnly (line.length + count) (line ++ rest) := by
  cases h with
  | last => contradiction
  -- The pair ends with a line feed, so it counts as one.
  | @pair body _ hbody =>
    refine .inl ⟨body ++ ['\r'], by simp, by simpa using notMem_of_endsLine hbody, fun count => ?_⟩
    rw [List.length_append, List.append_assoc, Nat.add_assoc, lineFeedsOnly_body hbody,
      Nat.add_comm]
    simp [LineFeedsOnly]
  | @single body _ c hbody hc hpair =>
    -- A single character ends the line; the line is ended by a line feed if it is that character.
    have hfeeds : ∀ count, LineFeedsOnly ((body ++ [c]).length + count) (body ++ [c] ++ rest) ↔
        c = '\n' ∧ LineFeedsOnly count rest := by
      intro count
      rw [List.length_append, List.append_assoc, Nat.add_assoc, lineFeedsOnly_body hbody,
        Nat.add_comm]
      simp only [List.length_singleton, List.singleton_append, LineFeedsOnly, hc, hpair, or_false,
        forall_const]
    by_cases hnewline : c = '\n'
    · exact .inl ⟨body, by rw [hnewline], notMem_of_endsLine hbody,
        fun count => (hfeeds count).trans (and_iff_right hnewline)⟩
    · refine .inr ⟨?_, fun count hcount => hnewline ((hfeeds count).1 hcount).1⟩
      rw [List.mem_append, List.mem_singleton]
      rintro (hmem | hmem)
      · exact notMem_of_endsLine hbody hmem
      · exact hnewline hmem.symm

/-- A line has at most one line feed. -/
theorem count_le (h : FirstLine line rest) : line.count '\n' ≤ 1 := by
  cases h with
  | last hbody => rw [List.count_eq_zero.2 (notMem_of_endsLine hbody)]; exact Nat.zero_le 1
  | pair hbody => rw [List.count_append, List.count_eq_zero.2 (notMem_of_endsLine hbody)]; decide
  | single hbody =>
    rw [List.count_append, List.count_eq_zero.2 (notMem_of_endsLine hbody), Nat.zero_add]
    exact List.count_le_length

/-- On the first line both count characters: the addresses of two places agree if it is one
place. -/
theorem advanceAll_eq_iff (h : FirstLine line rest) {offset : Nat} (hcount : count < line.length)
    (hle : count ≤ offset) (number : Nat) :
    (⟨number, 1⟩ : Location).advanceAll ((line ++ rest).take count) = ⟨number, offset + 1⟩ ↔
      count = offset ∧ LineFeedsOnly offset (line ++ rest) := by
  rw [List.take_append_of_le_length (Nat.le_of_lt hcount), Location.advanceAll_of_notMem
    (h.notMem_take hcount), List.length_take_of_le (Nat.le_of_lt hcount), Location.mk.injEq]
  constructor
  · rintro ⟨-, hcolumn⟩
    obtain rfl : count = offset := by
      dsimp only at hcolumn
      omega
    exact ⟨rfl, h.lineFeedsOnly hcount⟩
  · rintro ⟨rfl, -⟩
    exact ⟨rfl, Nat.add_comm 1 count⟩

end FirstLine

/-! ### All lines -/

/-- **The line number of a report is never behind**: up to a place it counts at least the line feeds
that stand before it. -/
theorem count_le_number {text : List Char} {lines : List (List Char)} (h : sourceLines text = lines)
    {count offset : Nat} (hcount : count < text.length) (hle : count ≤ offset)
    (number start : Nat) :
    number + (text.take count).count '\n' ≤ (placeIn (start + offset) number start lines).line := by
  induction lines generalizing text count offset number start with
  | nil =>
    rw [eq_nil_of_sourceLines h] at hcount
    contradiction
  | cons line lines ih =>
    obtain ⟨rest, rfl, hfirst, hrest⟩ := firstLine_of_sourceLines h
    -- Before the end of the first line there is nothing to count.
    have hhere (hshort : count < line.length) : ((line ++ rest).take count).count '\n' = 0 := by
      rw [List.take_append_of_le_length (Nat.le_of_lt hshort), List.count_eq_zero]
      exact hfirst.notMem_take hshort
    cases lines with
    | nil =>
      obtain rfl := eq_nil_of_sourceLines hrest
      rw [List.append_nil] at hcount
      rw [placeIn_last, hhere hcount]
      exact Nat.le_refl number
    | cons next lines =>
      by_cases hoffset : offset < line.length
      · rw [placeIn_here hoffset, hhere (by omega)]
        exact Nat.le_refl number
      · obtain ⟨further, rfl⟩ := Nat.exists_eq_add_of_le (Nat.not_lt.1 hoffset)
        rw [placeIn_further]
        by_cases hshort : count < line.length
        · have hnext : 0 < rest.length := List.length_pos_iff.2 (ne_nil_of_sourceLines hrest)
          have hrec := ih hrest hnext (Nat.zero_le further) (number + 1) (start + line.length)
          rw [hhere hshort]
          omega
        · obtain ⟨count, rfl⟩ := Nat.exists_eq_add_of_le (Nat.not_lt.1 hshort)
          have hcount' : count < rest.length := by
            rw [List.length_append] at hcount
            omega
          have hrec := ih hrest hcount' (Nat.le_of_add_le_add_left hle) (number + 1)
            (start + line.length)
          have honce := hfirst.count_le
          rw [List.take_length_add_append, List.count_append]
          omega

/-- **The two addresses agree for one place behind line feeds only.** -/
theorem advanceAll_eq_placeIn_iff {text : List Char} {lines : List (List Char)}
    (h : sourceLines text = lines) {count offset : Nat} (hcount : count < text.length)
    (hle : count ≤ offset) (number start : Nat) :
    (⟨number, 1⟩ : Location).advanceAll (text.take count) =
    placeIn (start + offset) number start lines ↔
      count = offset ∧ LineFeedsOnly offset text := by
  induction lines generalizing text count offset number start with
  | nil =>
    rw [eq_nil_of_sourceLines h] at hcount
    contradiction
  | cons line lines ih =>
    obtain ⟨rest, rfl, hfirst, hrest⟩ := firstLine_of_sourceLines h
    cases lines with
    | nil =>
      obtain rfl := eq_nil_of_sourceLines hrest
      rw [List.append_nil] at hcount
      rw [placeIn_last]
      exact hfirst.advanceAll_eq_iff hcount hle number
    | cons next lines =>
      by_cases hoffset : offset < line.length
      · rw [placeIn_here hoffset]
        exact hfirst.advanceAll_eq_iff (by omega) hle number
      obtain ⟨further, rfl⟩ := Nat.exists_eq_add_of_le (Nat.not_lt.1 hoffset)
      have hne := ne_nil_of_sourceLines hrest
      rw [placeIn_further]
      -- If the line numbers differ the addresses do, and it is not one place behind line feeds
      -- only.
      have hahead (hnumber : number + ((line ++ rest).take count).count '\n' <
          (placeIn (start + line.length + further) (number + 1) (start + line.length)
            (next :: lines)).line) :
          ¬ (⟨number, 1⟩ : Location).advanceAll ((line ++ rest).take count) =
            placeIn (start + line.length + further) (number + 1) (start + line.length)
                (next :: lines) := by
        intro heq
        have hline := congrArg Location.line heq
        rw [Location.line_advanceAll] at hline
        exact Nat.ne_of_lt hnumber hline
      by_cases hshort : count < line.length
      · have hnumber := count_le_number hrest (List.length_pos_iff.2 hne) (Nat.zero_le further)
          (number + 1)
          (start + line.length)
        refine iff_of_false (hahead ?_) (by omega)
        rw [List.take_append_of_le_length (Nat.le_of_lt hshort),
          List.count_eq_zero.2 (hfirst.notMem_take hshort)]
        omega
      · obtain ⟨count, rfl⟩ := Nat.exists_eq_add_of_le (Nat.not_lt.1 hshort)
        have hcount' : count < rest.length := by
          rw [List.length_append] at hcount
          omega
        have hle' : count ≤ further := Nat.le_of_add_le_add_left hle
        rcases hfirst.ends hne with ⟨init, hinit, hnone, hfeeds⟩ | ⟨hnone, hfeeds⟩
        · -- Both have come to the start of the next line.
          have hnext : (⟨number, 1⟩ : Location).advanceAll line = ⟨number + 1, 1⟩ := by
            rw [hinit, Location.advanceAll_append, Location.advanceAll_of_notMem hnone]
            rfl
          rw [List.take_length_add_append, Location.advanceAll_append, hnext, hfeeds,
            Nat.add_right_inj]
          exact ih hrest hcount' hle' (number + 1) (start + line.length)
        · have hnumber := count_le_number hrest hcount' hle' (number + 1) (start + line.length)
          refine iff_of_false (hahead ?_) fun hplain => hfeeds further hplain.2
          rw [List.take_length_add_append, List.count_append, List.count_eq_zero.2 hnone]
          omega

/-- **The place that a report names for a byte offset is the location of that offset** if bytes and
characters are the same before it, and only line feeds end lines there. -/
theorem ofOffset_eq_place_iff {before after : List Char} (hafter : after ≠ []) :
    Location.ofOffset (before ++ after) (byteLength before) =
      place (before ++ after) (byteLength before) ↔
      (∀ c ∈ before, c.utf8Size = 1) ∧ LineFeedsOnly (byteLength before) (before ++ after) := by
  have hcount : before.length < (before ++ after).length := by
    rw [List.length_append]
    exact Nat.lt_add_of_pos_right (List.length_pos_iff.2 hafter)
  have hlines : sourceLines (before ++ after) = sourceLines (before ++ after) := rfl
  have haddresses := advanceAll_eq_placeIn_iff hlines hcount (length_le_byteLength before) 1 0
  rw [List.take_left, Nat.zero_add, length_eq_byteLength_iff] at haddresses
  rw [Location.ofOffset_append]
  exact haddresses

end Triptych.Report
