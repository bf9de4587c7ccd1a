import Triptych.Markup.Node
import Triptych.Markup.Error

/-!
# Reading the inside of a tag

After the name of an opening tag come attributes, up to `>` or `/>`. A name is *pending* until it is
known whether a value follows it; slashes in between mean nothing. A value is quoted, or it runs to
the next blank or angle bracket and may hold slashes and equals signs, except that a final slash
before `>` belongs to the end of the tag.

After the name of a closing tag nothing but blanks and `>` may come.
-/

namespace Triptych.Markup

open Text

/-! ### Values -/

/-- An attribute value, where it ends and the text after it. -/
structure ReadValue where
  value : String
  quote : Quote
  stop : Nat
  rest : List Char

/-- True of the characters of a value without quotes. -/
def isUnquotedChar (c : Char) : Bool :=
  !(isAsciiBlank c || c == '>' || c == '<')

/-- The part of a run of unquoted characters that is the value, when `rest` follows the run: a slash
that stands last before `>` is not, unless it is all there is. -/
def unquotedPart (run rest : List Char) : List Char :=
  if run.length > 1 && rest.head? == some '>' && run.getLast? == some '/' then run.dropLast else run

/-- The value without quotes that a text starts with, after blanks; nothing when a quote or the end
of the value comes first. -/
def bareValue (text : List Char) : Option (List Char) :=
  let body := text.dropWhile isAsciiBlank
  if body.head? == some '"' || body.head? == some '\'' then none
  else
    let value := unquotedPart (body.takeWhile isUnquotedChar) (body.dropWhile isUnquotedChar)
    if value.isEmpty then none else some value

/-- Reads the value after an equals sign. -/
def readValue (pos : Nat) (text : List Char) : Except ParseError ReadValue :=
  match bareValue text with
  | some value =>
    let gap := text.takeWhile isAsciiBlank
    .ok { value := String.ofList value
          quote := .none
          stop := pos + byteLength gap + byteLength value
          rest := (text.dropWhile isAsciiBlank).drop value.length }
  | none =>
    match lexTag text with
    | none => .error (.unexpectedEnd (pos + byteLength text) .attributeValue)
    | some lexeme =>
      let start := pos + byteLength lexeme.gap
      let stop := start + byteLength lexeme.chars
      match lexeme.token with
      | .error _ => .error (refusedTag ⟨start, stop⟩ (lexeme.chars ++ lexeme.rest))
      | .ok (.doubleQuoted value) => .ok ⟨value, .double, stop, lexeme.rest⟩
      | .ok (.singleQuoted value) => .ok ⟨value, .single, stop, lexeme.rest⟩
      | .ok token => .error (.unexpectedToken ⟨start, stop⟩ .attributeValue token)

theorem unquotedPart_isInitial (run rest : List Char) : unquotedPart run rest <+: run := by
  unfold unquotedPart
  split
  · exact List.dropLast_prefix run
  · exact List.prefix_refl run

/-- An unquoted value stands right after the blanks. -/
theorem prefix_of_bareValue {text value : List Char} (h : bareValue text = some value) :
    value <+: text.dropWhile isAsciiBlank := by
  simp only [bareValue] at h
  split at h
  · contradiction
  · split at h
    · contradiction
    · obtain rfl := Option.some.inj h
      exact (unquotedPart_isInitial _ _).trans <| List.takeWhile_prefix _

/-- Reading a value brings the reader to its end. -/
theorem readValue_advances {pos : Nat} {text : List Char} {found : ReadValue}
    (h : readValue pos text = .ok found) : Advances pos text found.stop found.rest := by
  unfold readValue at h
  split at h
  -- A bare value is read without the lexer: the blanks before it, and as much as belongs to it.
  next value hvalue =>
    obtain rfl := Except.ok.inj h
    obtain ⟨tail, htail⟩ := prefix_of_bareValue hvalue
    refine ⟨text.takeWhile isAsciiBlank ++ value, ?_, by simp [Nat.add_assoc]⟩
    rw [← htail, List.drop_left, List.append_assoc, htail, List.takeWhile_append_dropWhile]
  next =>
    split at h
    · contradiction
    -- Behind an equals sign the lexer skips the blanks and takes the quotes along.
    next lexeme hlex =>
      split at h
      · contradiction
      · obtain rfl := Except.ok.inj h
        exact lexTag_advances pos hlex
      · obtain rfl := Except.ok.inj h
        exact lexTag_advances pos hlex
      · contradiction

/-! ### Attributes -/

/-- What follows the name of an opening tag, where the tag ends and the text after it. -/
structure ReadTag where
  attributes : List Attribute
  selfClosing : Bool
  stop : Nat
  rest : List Char

/-- Adds the pending name, if there is one, as a bare attribute. -/
def flush (pending : Option (String × Span)) (done : List Attribute) : List Attribute :=
  match pending with
  | none => done
  | some (name, span) => .bare name span :: done

/-- Reads a tag from offset `pos` to its end, where `done` holds the attributes read before, newest
first. -/
def readAttributes (pending : Option (String × Span)) (done : List Attribute) (pos : Nat)
    (text : List Char) : Except ParseError ReadTag :=
  match hlex : lexTag text with
  | none => .error (.unexpectedEnd (pos + byteLength text) .tagEnd)
  | some lexeme =>
    have := lexTag_rest_lt hlex
    let start := pos + byteLength lexeme.gap
    let stop := start + byteLength lexeme.chars
    match lexeme.token with
    | .error _ => .error (refusedTag ⟨start, stop⟩ (lexeme.chars ++ lexeme.rest))
    | .ok .close => .ok ⟨(flush pending done).reverse, false, stop, lexeme.rest⟩
    | .ok .selfClose => .ok ⟨(flush pending done).reverse, true, stop, lexeme.rest⟩
    | .ok .slash => readAttributes pending done stop lexeme.rest
    | .ok (.name name) =>
      readAttributes (some (name, ⟨start, stop⟩)) (flush pending done) stop lexeme.rest
    | .ok .equals =>
      match pending with
      | none => .error (.unexpectedToken ⟨start, stop⟩ .attributeName .equals)
      | some (name, nameSpan) =>
        match hvalue : readValue stop lexeme.rest with
        | .error error => .error error
        | .ok found =>
          have := (readValue_advances hvalue).length_le
          readAttributes none
            (⟨name, some found.value, found.quote, ⟨nameSpan.start, found.stop⟩⟩ :: done)
            found.stop found.rest
    | .ok token => .error (.unexpectedToken ⟨start, stop⟩ .attributeName token)
termination_by text.length

/-- Reading a tag brings the reader to its end. -/
theorem readAttributes_advances {pending : Option (String × Span)} {done : List Attribute}
    {pos : Nat} {text : List Char} {found : ReadTag}
    (h : readAttributes pending done pos text = .ok found) :
    Advances pos text found.stop found.rest := by
  fun_induction readAttributes pending done pos text with
  | case1 | case2 | case7 | case8 | case10 => contradiction
  | case3 _ _ _ _ _ hlex | case4 _ _ _ _ _ hlex =>
    obtain rfl := Except.ok.inj h
    exact lexTag_advances _ hlex
  | case5 _ _ _ _ _ hlex _ _ _ _ ih => exact (lexTag_advances _ hlex).trans (ih h)
  | case6 _ _ _ _ _ hlex _ _ _ _ _ ih => exact (lexTag_advances _ hlex).trans (ih h)
  | case9 _ _ _ _ hlex _ _ _ _ _ _ _ hvalue _ ih =>
    exact (lexTag_advances _ hlex).trans ((readValue_advances hvalue).trans (ih h))

/-- Reads the rest of an opening tag, after its name. -/
def readTag (pos : Nat) (text : List Char) : Except ParseError ReadTag :=
  readAttributes none [] pos text

/-! ### The end of a closing tag -/

/-- Reads blanks and the `>` of a closing tag: where it ends, and the text after it. -/
def readTagEnd (pos : Nat) (text : List Char) : Except ParseError (Nat × List Char) :=
  match lexTag text with
  | none => .error (.unexpectedEnd (pos + byteLength text) .tagEnd)
  | some lexeme =>
    let start := pos + byteLength lexeme.gap
    let stop := start + byteLength lexeme.chars
    match lexeme.token with
    | .error _ => .error (refusedTag ⟨start, stop⟩ (lexeme.chars ++ lexeme.rest))
    | .ok .close => .ok (stop, lexeme.rest)
    | .ok token => .error (.unexpectedToken ⟨start, stop⟩ .tagEnd token)

/-- Reading the end of a closing tag brings the reader past it. -/
theorem readTagEnd_advances {pos stop : Nat} {text rest : List Char}
    (h : readTagEnd pos text = .ok (stop, rest)) : Advances pos text stop rest := by
  unfold readTagEnd at h
  split at h
  · contradiction
  next lexeme hlex =>
    split at h
    · contradiction
    · obtain ⟨rfl, rfl⟩ := Prod.mk.inj (Except.ok.inj h)
      exact lexTag_advances pos hlex
    · contradiction

end Triptych.Markup
