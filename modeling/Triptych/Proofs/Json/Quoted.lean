import Triptych.Json.Parser

/-!
# Quoted texts are read back

A text that is written as a JSON string is the same text when the string is read (`parse_quote`),
and the string holds no character below U+0020 (`le_toNat_of_mem_quote`), so it never breaks a line.

Both rest on `escape_cases`, which says what can stand for a character.
-/

namespace Triptych.Json

/-! ### Digits -/

theorem hexValue?_hexDigit : ∀ n < 16, hexValue? (hexDigit n) = some n := by decide

theorem le_toNat_hexDigit : ∀ n < 16, 0x20 ≤ (hexDigit n).toNat := by decide

/-! ### Escapes -/

/-- What stands for a character: a letter that names it, its number, or the character itself. -/
theorem escape_cases (c : Char) :
    (∃ letter, escape c = ['\\', letter] ∧ letterEscape? letter = some c ∧ letter ≠ 'u' ∧
      0x20 ≤ letter.toNat) ∨
    (escape c = ['\\', 'u', '0', '0', hexDigit (c.toNat / 16), hexDigit (c.toNat % 16)] ∧
      c.toNat < 0x20) ∨
    (escape c = [c] ∧ c ≠ '"' ∧ c ≠ '\\' ∧ 0x20 ≤ c.toNat) := by
  by_cases hquote : c = '"'
  · exact .inl ⟨'"', by simp [escape, hquote], by rw [hquote]; rfl, by decide, by decide⟩
  by_cases hslash : c = '\\'
  · exact .inl ⟨'\\', by simp [escape, hslash], by rw [hslash]; rfl, by decide, by decide⟩
  by_cases hb : c = '\x08'
  · exact .inl ⟨'b', by simp [escape, hb], by rw [hb]; rfl, by decide, by decide⟩
  by_cases hf : c = '\x0c'
  · exact .inl ⟨'f', by simp [escape, hf], by rw [hf]; rfl, by decide, by decide⟩
  by_cases hn : c = '\n'
  · exact .inl ⟨'n', by simp [escape, hn], by rw [hn]; rfl, by decide, by decide⟩
  by_cases hr : c = '\r'
  · exact .inl ⟨'r', by simp [escape, hr], by rw [hr]; rfl, by decide, by decide⟩
  by_cases ht : c = '\t'
  · exact .inl ⟨'t', by simp [escape, ht], by rw [ht]; rfl, by decide, by decide⟩
  -- What has no letter is written by its number, if it is a control character.
  by_cases hlow : c.toNat < 0x20
  · exact .inr (.inl ⟨by simp [escape, hquote, hslash, hb, hf, hn, hr, ht, hlow], hlow⟩)
  · exact .inr
      (.inr ⟨by simp [escape, hquote, hslash, hb, hf, hn, hr, ht, hlow], hquote, hslash, by omega⟩)

/-- Nothing below U+0020 stands for a character. -/
theorem le_toNat_of_mem_escape {c d : Char} (h : d ∈ escape c) : 0x20 ≤ d.toNat := by
  -- By the three ways to write a character: behind a backslash, by its number, or as it is.
  obtain ⟨letter, heq, -, -, hletter⟩ | ⟨heq, hlow⟩ | ⟨heq, -, -, hc⟩ := escape_cases c
  · rw [heq] at h
    simp only [List.mem_cons, List.not_mem_nil, or_false] at h
    rcases h with rfl | rfl
    · decide
    · exact hletter
  · have hhigh := le_toNat_hexDigit (c.toNat / 16) (by omega)
    have hdigit := le_toNat_hexDigit (c.toNat % 16) (by omega)
    rw [heq] at h
    simp only [List.mem_cons, List.not_mem_nil, or_false] at h
    rcases h with rfl | rfl | rfl | rfl | rfl | rfl
    · decide
    · decide
    · decide
    · decide
    · exact hhigh
    · exact hdigit
  · rw [heq] at h
    obtain rfl := List.mem_singleton.1 h
    exact hc

/-- **A quoted text holds no control character.** -/
theorem le_toNat_of_mem_quote {text : List Char} {c : Char} (h : c ∈ quote text) :
    0x20 ≤ c.toNat := by
  rcases List.mem_cons.1 h with rfl | h
  · decide
  rcases List.mem_append.1 h with h | h
  · obtain ⟨d, -, hd⟩ := List.mem_flatMap.1 h
    exact le_toNat_of_mem_escape hd
  · obtain rfl := List.mem_singleton.1 h
    decide

/-! ### Reading back -/

theorem unquote_letter {letter c : Char} (h : letterEscape? letter = some c) (hne : letter ≠ 'u')
    (done rest : List Char) : unquote done ('\\' :: letter :: rest) = unquote (c :: done) rest := by
  rw [unquote]
  · rw [h]
  · rintro a b c d rest' heq
    simp_all

/-- What stands for a character is read as the character. -/
theorem unquote_escape (c : Char) (done rest : List Char) :
    unquote done (escape c ++ rest) = unquote (c :: done) rest := by
  obtain ⟨letter, heq, hletter, hne, -⟩ | ⟨heq, hlow⟩ | ⟨heq, hquote, hslash, hc⟩ := escape_cases c
  · rw [heq]
    exact unquote_letter hletter hne done rest
  -- A number below U+0020 has two zeros before it and is no surrogate, so no second number is
  -- looked for.
  · have hhigh := hexValue?_hexDigit (c.toNat / 16) (by omega)
    have hdigit := hexValue?_hexDigit (c.toNat % 16) (by omega)
    have hzero : hexValue? '0' = some 0 := rfl
    have hnumber : hex4? '0' '0' (hexDigit (c.toNat / 16)) (hexDigit (c.toNat % 16)) =
        some c.toNat := by
      simp only [hex4?, hzero, hhigh, hdigit, Option.bind_eq_bind, Option.bind_some,
        Option.pure_def, Option.some.injEq]
      omega
    have htrailing : ¬ isTrailingSurrogate c.toNat = true := by
      simp only [isTrailingSurrogate, Bool.and_eq_true, decide_eq_true_eq]
      omega
    have hleading : ¬ isLeadingSurrogate c.toNat = true := by
      simp only [isLeadingSurrogate, Bool.and_eq_true, decide_eq_true_eq]
      omega
    rw [heq]
    simp only [List.cons_append, List.nil_append]
    rw [unquote.eq_def]
    simp only [hnumber]
    rw [if_neg htrailing, if_neg hleading, Char.ofNat_toNat]
  -- The character stands for itself: it is none of those that `unquote` treats apart.
  · rw [heq, List.singleton_append, unquote.eq_def]
    split
    · contradiction
    next heq' => exact absurd (List.cons.inj heq').1 hquote
    next heq' => exact absurd (List.cons.inj heq').1 hslash
    next heq' => exact absurd (List.cons.inj heq').1 hslash
    next heq' =>
      obtain ⟨rfl, rfl⟩ := List.cons.inj heq'
      rw [if_neg hslash, if_neg (by omega)]

/-- A quoted text is read as the text. -/
theorem unquote_flatMap_escape (text done rest : List Char) :
    unquote done (text.flatMap escape ++ '"' :: rest) = .ok (done.reverse ++ text, rest) := by
  induction text generalizing done with
  | nil => rw [List.flatMap_nil, List.nil_append, unquote, List.append_nil]
  | cons c cs ih =>
    rw [List.flatMap_cons, List.append_assoc, unquote_escape, ih]
    simp

/-- **A quoted text is JSON for the text.** -/
theorem parse_quote (text : List Char) :
    parse (quote text) = .ok (.string (String.ofList text)) := by
  have hread := unquote_flatMap_escape text [] []
  rw [List.reverse_nil, List.nil_append] at hread
  -- The whole text is one token.
  have hlex (offset : Nat) : lex offset '"' (text.flatMap escape ++ ['"']) =
      (.string (String.ofList text), []) := by
    simp only [lex, hread]
  have htokens : tokens (quote text).length 0 (quote text) =
      [(0, .string (String.ofList text)), (Text.byteLength (quote text), .finish)] := by
    simp [quote, tokens, isSpace, hlex]
  rw [parse, htokens]
  rfl

end Triptych.Json
