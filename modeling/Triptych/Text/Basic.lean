/-!
# Texts as lists of characters

Every scanner of this library reads a `List Char`, so that it can recurse on the data; the public
functions take and return `String` and convert at the border. This module holds what all of them
share: the size of a text in UTF-8 bytes (all offsets are byte offsets), the two blank classes,
ASCII letter case, trimming, searching, and splitting into lines.

Two classes of blank characters occur and must not be mixed up. `isBlank` is the Unicode property
`White_Space` and governs trimming and collapsing; `isAsciiBlank` is the five characters that
separate the parts of a tag.
-/

namespace Triptych.Text

/-! ### Size in bytes -/

/-- The number of bytes a text takes in UTF-8. -/
def byteLength : List Char → Nat
  | [] => 0
  | c :: cs => c.utf8Size + byteLength cs

@[simp] theorem byteLength_nil : byteLength [] = 0 := rfl

@[simp] theorem byteLength_cons (c : Char) (cs : List Char) :
    byteLength (c :: cs) = c.utf8Size + byteLength cs := rfl

@[simp] theorem byteLength_append (xs ys : List Char) :
    byteLength (xs ++ ys) = byteLength xs + byteLength ys := by
  induction xs with
  | nil => simp
  | cons c cs ih => simp [ih, Nat.add_assoc]

/-! ### Blank characters -/

/-- The Unicode property `White_Space`. It holds neither for the zero-width space U+200B nor for the
separators U+001C to U+001F. -/
def isBlank (c : Char) : Bool :=
  let n := c.toNat
  (0x09 ≤ n && n ≤ 0x0D) || n == 0x20 || n == 0x85 || n == 0xA0 || n == 0x1680 ||
    (0x2000 ≤ n && n ≤ 0x200A) || n == 0x2028 || n == 0x2029 || n == 0x202F || n == 0x205F ||
    n == 0x3000

/-- The blanks that separate the parts of a tag: space, tab, line feed, carriage return and form
feed. The vertical tab is not among them. -/
def isAsciiBlank (c : Char) : Bool :=
  c == ' ' || c == '\t' || c == '\n' || c == '\r' || c == '\x0c'

/-- A blank that separates the parts of a tag has the property `White_Space`. -/
theorem isBlank_of_isAsciiBlank {c : Char} (h : isAsciiBlank c = true) : isBlank c = true := by
  simp only [isAsciiBlank, Bool.or_eq_true, beq_iff_eq] at h
  rcases h with (((rfl | rfl) | rfl) | rfl) | rfl <;> decide

/-- True of a text of blanks only, the empty text included. -/
def isBlankText (cs : List Char) : Bool :=
  cs.all isBlank

/-! ### Letters and their case -/

/-- An ASCII letter. -/
def isAsciiLetter (c : Char) : Bool :=
  ('a' ≤ c && c ≤ 'z') || ('A' ≤ c && c ≤ 'Z')

/-- An ASCII digit. -/
def isAsciiDigit (c : Char) : Bool :=
  '0' ≤ c && c ≤ '9'

/-- An ASCII hexadecimal digit, in either case. -/
def isHexDigit (c : Char) : Bool :=
  isAsciiDigit c || ('a' ≤ c && c ≤ 'f') || ('A' ≤ c && c ≤ 'F')

/-- The text with its ASCII capitals made small; every other character stays. -/
def lower (cs : List Char) : List Char :=
  cs.map Char.toLower

/-- A small letter is no capital. -/
theorem toLower_toLower (c : Char) : c.toLower.toLower = c.toLower := by
  by_cases hcapital : c.val ≥ 'A'.val ∧ c.val ≤ 'Z'.val
  · have hval : c.toLower.val = c.val + ('a'.val - 'A'.val) := congrArg Char.val (dif_pos hcapital)
    have hsmall : ¬ (c.toLower.val ≥ 'A'.val ∧ c.toLower.val ≤ 'Z'.val) := by
      rw [hval]
      grind [UInt32.toNat_add, UInt32.le_iff_toNat_le]
    exact dif_neg hsmall
  · have hsame : c.toLower = c := dif_neg hcapital
    rw [hsame, hsame]

theorem lower_lower (cs : List Char) : lower (lower cs) = lower cs := by
  unfold lower
  rw [List.map_map]
  exact List.map_congr_left fun c _ => toLower_toLower c

/-- Equality up to the case of ASCII letters. -/
def equalsIgnoringCase (xs ys : List Char) : Bool :=
  lower xs == lower ys

/-! ### Trimming -/

/-- The text without the longest end on which `p` holds. -/
def dropEndWhile (p : Char → Bool) (cs : List Char) : List Char :=
  (cs.reverse.dropWhile p).reverse

/-- The text without its leading blanks. -/
def trimStart (cs : List Char) : List Char :=
  cs.dropWhile isBlank

/-- Trimming does not make a text longer. -/
theorem length_trimStart_le (cs : List Char) : (trimStart cs).length ≤ cs.length :=
  (List.dropWhile_sublist isBlank).length_le

/-- The text without its trailing blanks. -/
def trimEnd (cs : List Char) : List Char :=
  dropEndWhile isBlank cs

/-- The text without its leading and trailing blanks. -/
def trim (cs : List Char) : List Char :=
  trimEnd (trimStart cs)

/-- A line break character: line feed or carriage return. -/
def isLineBreak (c : Char) : Bool :=
  c == '\n' || c == '\r'

/-! ### Searching -/

/-- Splits a text before the first occurrence of `pattern`, which the second part then starts
with. -/
def breakOn (pattern : List Char) : List Char → Option (List Char × List Char)
  | [] => if pattern.isEmpty then some ([], []) else none
  | c :: cs =>
    if pattern.isPrefixOf (c :: cs) then some ([], c :: cs)
    else (breakOn pattern cs).map fun (before, found) => (c :: before, found)

/-- The two parts that `breakOn` returns make up the text, and the second starts with the
pattern. -/
theorem breakOn_spec {pattern cs before found : List Char}
    (h : breakOn pattern cs = some (before, found)) : before ++ found = cs ∧ pattern <+: found := by
  induction cs generalizing before with
  | nil =>
    simp only [breakOn] at h
    split at h <;> simp_all
  | cons c cs ih =>
    simp only [breakOn] at h
    split at h
    next hstarts =>
      obtain ⟨rfl, rfl⟩ : [] = before ∧ c :: cs = found := by simpa using h
      exact ⟨rfl, List.isPrefixOf_iff_prefix.1 hstarts⟩
    next =>
      simp only [Option.map_eq_some_iff, Prod.mk.injEq, Prod.exists] at h
      obtain ⟨before', found', hrec, rfl, rfl⟩ := h
      obtain ⟨happend, hstarts⟩ := ih hrec
      exact ⟨congrArg (c :: ·) happend, hstarts⟩

/-- True when `pattern` occurs somewhere in the text. -/
def contains (pattern cs : List Char) : Bool :=
  (breakOn pattern cs).isSome

/-! ### Lines -/

/-- The pieces between line feeds. There is always at least one, and a final line feed is followed
by an empty piece. -/
def splitLines (cs : List Char) : List (List Char) :=
  cs.splitOn '\n'

/-- Puts a line feed between each two lines. -/
def joinLines (lines : List (List Char)) : List Char :=
  ['\n'].intercalate lines

/-- The lines of a text as an editor shows them: each without its line feed and without a carriage
return before it, and no empty line after a final line feed. -/
def displayLines (cs : List Char) : List (List Char) :=
  let pieces := splitLines cs
  let terminated := pieces.dropLast.map fun line =>
    if line.getLast? == some '\r' then line.dropLast else line
  match pieces.getLast? with
  | none | some [] => terminated
  | some last => terminated ++ [last]

end Triptych.Text
