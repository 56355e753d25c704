import SqlDdl.Error
import SqlDdl.Text.Alphabetic
import SqlDdl.Text.Numeric

/-!
# Lexemes

One token cut from the front of a text, with the characters it was written in and
the text behind it. Numbers are cut as long as they go: digits, then a point with
digits, then an exponent with digits, the last two only where they are complete.
-/

namespace SqlDdl

/-- A token, its characters, and the text behind them. -/
structure Lexeme where
  /-- The token that was cut. -/
  token : Token
  /-- The characters that it was written in. -/
  text : List Char
  /-- The characters behind it. -/
  rest : List Char

/-- Why no token can be cut from the front of a text. -/
inductive LexemeFault where
  /-- No token begins with this character here. -/
  | unexpected (character : Char)
  /-- The first character opens something that is not closed. -/
  | unterminated (enclosure : Enclosure)

/-- The error that a fault at a place is. -/
def LexemeFault.at (position : Position) : LexemeFault → Error
  | .unexpected character => .unexpectedCharacter character position
  | .unterminated enclosure => .unterminated enclosure position

namespace Lexeme

/-- The digits at the front of a text, and the text behind them. -/
def digits (cs : List Char) : List Char × List Char :=
  (cs.takeWhile Char.isDigit, cs.dropWhile Char.isDigit)

/-- A point with the digits that follow it; nothing if no digit follows. -/
def fraction : List Char → List Char × List Char
  | '.' :: rest =>
    match digits rest with
    | ([], _) => ([], '.' :: rest)
    | (places, behind) => ('.' :: places, behind)
  | cs => ([], cs)

/-- A sign, if there is one. -/
def sign : List Char → List Char × List Char
  | '+' :: rest => (['+'], rest)
  | '-' :: rest => (['-'], rest)
  | cs => ([], cs)

/-- The letter E with an optional sign and the digits that follow; nothing if no digit
follows. -/
def exponent : List Char → List Char × List Char
  | [] => ([], [])
  | c :: rest =>
    if c = 'e' ∨ c = 'E' then
      match digits (sign rest).2 with
      | ([], _) => ([], c :: rest)
      | (power, behind) => (c :: (sign rest).1 ++ power, behind)
    else ([], c :: rest)

/-- The number at the front of a text, and the text behind it. -/
def number (cs : List Char) : List Char × List Char :=
  let whole := digits cs
  let places := fraction whole.2
  let power := exponent places.2
  (whole.1 ++ places.1 ++ power.1, power.2)

/-- Whether a character may begin an unquoted word. -/
def isWordStart (c : Char) : Bool := Text.isAlphabetic c || c == '_'

/-- Whether a character may continue an unquoted word. -/
def isWordPart (c : Char) : Bool := Text.isAlphabetic c || Text.isNumeric c || c == '_'

/-- The token that an unquoted word is. -/
def wordToken (text : String) : Token :=
  match Keyword.ofWord? text with
  | some keyword => .keyword keyword
  | none => .word ⟨text, false⟩

/-- The text between a quote at the front and the quote that closes it. -/
def enclosed (quote : Char) (enclosure : Enclosure) (token : String → Token)
    (rest : List Char) : Except LexemeFault Lexeme :=
  match Text.readBody quote [] rest with
  | some (body, behind) => .ok ⟨token (String.ofList body), Text.enclose quote body, behind⟩
  | none => .error (.unterminated enclosure)

/-- The token at the front of the text made of the character `c` and `rest`. -/
def ofChars (c : Char) (rest : List Char) : Except LexemeFault Lexeme :=
  if c = '\x27' then enclosed c .stringLiteral .string rest
  else if c = '\x22' then enclosed c .quotedIdentifier (fun value => .word ⟨value, true⟩) rest
  else if c.isDigit then
    let (text, behind) := number (c :: rest)
    .ok ⟨.number (String.ofList text), text, behind⟩
  else if isWordStart c then
    let text := c :: rest.takeWhile isWordPart
    .ok ⟨wordToken (String.ofList text), text, rest.dropWhile isWordPart⟩
  else
    match Token.ofSymbol? c rest.head? with
    | some (token, length) => .ok ⟨token, c :: rest.take (length - 1), rest.drop (length - 1)⟩
    | none => .error (.unexpected c)

theorem digits_length (cs : List Char) : (digits cs).2.length ≤ cs.length :=
  (List.dropWhile_sublist _).length_le

theorem fraction_length (cs : List Char) : (fraction cs).2.length ≤ cs.length := by
  unfold fraction
  split
  · split
    · simp
    · rename_i rest _ _ behind _ h
      have := digits_length rest
      rw [h] at this
      simp only [List.length_cons]
      exact Nat.le_succ_of_le this
  · simp

theorem sign_length (cs : List Char) : (sign cs).2.length ≤ cs.length := by
  unfold sign
  split <;> simp

theorem exponent_length (cs : List Char) : (exponent cs).2.length ≤ cs.length := by
  unfold exponent
  split
  · simp
  · split
    · split
      · simp
      · rename_i rest _ _ _ behind _ h
        have h₁ := digits_length (sign rest).2
        have h₂ := sign_length rest
        rw [h] at h₁
        simp only [List.length_cons]
        exact Nat.le_succ_of_le (Nat.le_trans h₁ h₂)
    · simp

theorem number_length {c : Char} (rest : List Char) (h : c.isDigit = true) :
    (number (c :: rest)).2.length ≤ rest.length := by
  have h₁ := exponent_length (fraction (digits (c :: rest)).2).2
  have h₂ := fraction_length (digits (c :: rest)).2
  have h₃ : (digits (c :: rest)).2 = rest.dropWhile Char.isDigit := by simp [digits, h]
  have h₄ := (List.dropWhile_sublist (l := rest) Char.isDigit).length_le
  simp only [number]
  rw [h₃] at h₁ h₂ ⊢
  omega

theorem ofChars_length {c : Char} {rest : List Char} {lexeme : Lexeme}
    (h : ofChars c rest = .ok lexeme) : lexeme.rest.length ≤ rest.length := by
  have enclosed_length {quote enclosure token} (he : enclosed quote enclosure token rest = .ok lexeme) :
      lexeme.rest.length ≤ rest.length := by
    unfold enclosed at he
    split at he
    · cases he
      exact Nat.le_of_lt (Text.readBody_length (by assumption))
    · cases he
  unfold ofChars at h
  split at h
  · exact enclosed_length h
  split at h
  · exact enclosed_length h
  split at h
  · cases h
    exact number_length rest (by assumption)
  split at h
  · cases h
    exact (List.dropWhile_sublist _).length_le
  split at h
  · cases h
    simp
  · cases h

end Lexeme

end SqlDdl
