import SqlDdl.Proofs.Layouts
import SqlDdl.Token.Lexeme

/-!
# Lexemes as they are written

A token is written as its display text, a keyword in any mix of ASCII case. Whatever
is cut from the front of a text is one token so written, and nothing of the text is
lost. The other way, such a token is cut off again where it stands, if it could have
been cut from some text at all and what follows it cannot belong to it: white space,
or the beginning of a comment.
-/

namespace SqlDdl

/-- Whether a token may be written with some characters. -/
def Token.SpelledAs (cs : List Char) : Token → Prop
  | keyword reserved => cs.map Char.toUpper = reserved.spelling.toList
  | other => cs = other.display.toList

namespace Keyword

/-- Every keyword is found by its own spelling. -/
theorem find?_spelling (reserved : Keyword) :
    all.find? (·.spelling == reserved.spelling) = some reserved := by
  cases reserved <;> rfl

/-- A word is a keyword when its capitals are the spelling of the keyword. -/
theorem ofWord?_eq_some_iff {word : String} {reserved : Keyword} :
    ofWord? word = some reserved ↔ word.toList.map Char.toUpper = reserved.spelling.toList := by
  rw [ofWord?, Text.toUpperASCII]
  constructor
  · intro h
    have hs := List.find?_some h
    rw [beq_iff_eq.mp hs, String.toList_ofList]
  · intro h
    rw [h, String.ofList_toList]
    exact find?_spelling reserved

/-- A word is no keyword when its capitals are the spelling of none. -/
theorem ofWord?_eq_none_iff {word : String} :
    ofWord? word = none ↔
      ∀ reserved : Keyword, word.toList.map Char.toUpper ≠ reserved.spelling.toList := by
  constructor
  · intro h reserved he
    rw [ofWord?_eq_some_iff.mpr he] at h
    cases h
  · intro h
    cases hw : ofWord? word with
    | none => rfl
    | some reserved => exact absurd (ofWord?_eq_some_iff.mp hw) (h reserved)

end Keyword

namespace Text

/-- What was read up to the closing quote stands there with its quotes doubled. -/
theorem readBody_split {quote : Char} {found cs body rest : List Char}
    (h : readBody quote found cs = some (body, rest)) :
    ∃ inner, body = found.reverse ++ inner ∧ cs = double quote inner ++ quote :: rest := by
  fun_induction readBody quote found cs with
  | case1 => cases h
  | case2 found =>
    cases h
    exact ⟨[], (List.append_nil _).symm, rfl⟩
  | case3 => cases h
  | case4 found rest' ih =>
    obtain ⟨inner, rfl, ht⟩ := ih h
    refine ⟨quote :: inner, ?_, ?_⟩
    · rw [List.reverse_cons, List.append_assoc]
      rfl
    · rw [double, List.flatMap_cons, if_pos rfl, ht]
      rfl
  | case5 found d rest' hd =>
    cases h
    exact ⟨[], (List.append_nil _).symm, rfl⟩
  | case6 found c d rest' hc ih =>
    obtain ⟨inner, rfl, ht⟩ := ih h
    refine ⟨c :: inner, ?_, ?_⟩
    · rw [List.reverse_cons, List.append_assoc]
      rfl
    · rw [double, List.flatMap_cons, if_neg hc, ht]
      rfl

/-- A text with its quotes doubled is read up to the closing quote, if no quote follows. -/
theorem readBody_double {quote : Char} {rest : List Char} (inner found : List Char)
    (hr : ∀ c ∈ rest.head?, c ≠ quote) :
    readBody quote found (double quote inner ++ quote :: rest) =
      some (found.reverse ++ inner, rest) := by
  induction inner generalizing found with
  | nil =>
    rw [List.append_nil]
    cases rest with
    | nil => exact if_pos rfl
    | cons d rest =>
      have hd : d ≠ quote := hr d rfl
      change readBody quote found (quote :: d :: rest) = _
      rw [readBody, if_pos rfl, if_neg hd]
  | cons c inner ih =>
    rw [double, List.flatMap_cons]
    by_cases hc : c = quote
    · rw [if_pos hc]
      change readBody quote found (quote :: quote :: (double quote inner ++ quote :: rest)) = _
      rw [readBody, if_pos rfl, if_pos rfl, ih, List.reverse_cons, List.append_assoc, hc]
      rfl
    · rw [if_neg hc]
      change readBody quote found (c :: (double quote inner ++ quote :: rest)) = _
      have hstep : readBody quote found (c :: (double quote inner ++ quote :: rest)) =
          readBody quote (c :: found) (double quote inner ++ quote :: rest) := by
        cases hn : double quote inner ++ quote :: rest with
        | nil => exact absurd hn (List.append_ne_nil_of_right_ne_nil _ (List.cons_ne_nil _ _))
        | cons d others => rw [readBody, if_neg hc]
      rw [hstep, ih, List.reverse_cons, List.append_assoc]
      rfl

end Text

/-- A string literal is written between its quotes. -/
theorem spelledAs_string (inner : List Char) :
    (Token.string (String.ofList inner)).SpelledAs (Text.enclose '\x27' inner) := by
  change _ = (String.ofList (Text.enclose '\x27' (String.ofList inner).toList)).toList
  rw [String.toList_ofList, String.toList_ofList]

/-- A quoted word is written between its quotes. -/
theorem spelledAs_quoted (inner : List Char) :
    (Token.word ⟨String.ofList inner, true⟩).SpelledAs (Text.enclose '\x22' inner) := by
  change _ = (String.ofList (Text.enclose '\x22' (String.ofList inner).toList)).toList
  rw [String.toList_ofList, String.toList_ofList]

namespace Lexeme

/-- The digits and what is behind them make up the text. -/
theorem digits_append (cs : List Char) : (digits cs).1 ++ (digits cs).2 = cs :=
  List.takeWhile_append_dropWhile

/-- The places and what is behind them make up the text. -/
theorem fraction_append (cs : List Char) : (fraction cs).1 ++ (fraction cs).2 = cs := by
  unfold fraction
  split
  · split
    · rfl
    next rest _ places behind _ hd =>
      have ht := digits_append rest
      rw [hd] at ht
      exact congrArg ('.' :: ·) ht
  · rfl

/-- The sign and what is behind it make up the text. -/
theorem sign_append (cs : List Char) : (sign cs).1 ++ (sign cs).2 = cs := by
  unfold sign
  split <;> rfl

/-- The exponent and what is behind it make up the text. -/
theorem exponent_append (cs : List Char) : (exponent cs).1 ++ (exponent cs).2 = cs := by
  unfold exponent
  split
  · rfl
  next c rest =>
    split
    · split
      · rfl
      next power behind _ hd =>
        have ht := digits_append (sign rest).2
        rw [hd] at ht
        dsimp only at ht ⊢
        rw [List.cons_append, List.cons_append, List.append_assoc, ht, sign_append]
    · rfl

/-- A number and what is behind it make up the text. -/
theorem number_append (cs : List Char) : (number cs).1 ++ (number cs).2 = cs := by
  have hw := digits_append cs
  have hf := fraction_append (digits cs).2
  have he := exponent_append (fraction (digits cs).2).2
  rw [number, List.append_assoc, List.append_assoc, he, hf, hw]

/-- A sign is displayed as the one or two characters it was found by. -/
theorem ofSymbol?_eq_some {c : Char} {next : Option Char} {token : Token} {length : Nat}
    (h : Token.ofSymbol? c next = some (token, length)) :
    token ≠ .eof ∧ (length = 1 ∧ token.SpelledAs [c] ∨
      length = 2 ∧ ∃ d, next = some d ∧ token.SpelledAs [c, d]) := by
  unfold Token.ofSymbol? at h
  split at h <;> cases h
  all_goals first
    | exact ⟨nofun, Or.inl ⟨rfl, rfl⟩⟩
    | exact ⟨nofun, Or.inr ⟨rfl, _, rfl, rfl⟩⟩

/-- A sign with what is behind it makes up the text. -/
theorem ofSymbol?_split {c : Char} {rest : List Char} {token : Token} {length : Nat}
    (h : Token.ofSymbol? c rest.head? = some (token, length)) :
    token.SpelledAs (c :: rest.take (length - 1)) ∧ token ≠ .eof := by
  obtain ⟨he, ⟨rfl, hs⟩ | ⟨rfl, d, hd, hs⟩⟩ := ofSymbol?_eq_some h
  · exact ⟨hs, he⟩
  · obtain ⟨others, rfl⟩ := List.head?_eq_some_iff.mp hd
    exact ⟨hs, he⟩

/-- A word is written as its keyword or as itself. -/
theorem wordToken_spelled (text : List Char) :
    (wordToken (String.ofList text)).SpelledAs text ∧ wordToken (String.ofList text) ≠ .eof := by
  unfold wordToken
  cases hw : Keyword.ofWord? (String.ofList text) with
  | some reserved =>
    refine ⟨?_, nofun⟩
    have hs := Keyword.ofWord?_eq_some_iff.mp hw
    rwa [String.toList_ofList] at hs
  | none => exact ⟨String.toList_ofList.symm, nofun⟩

/-- An enclosed text is cut off with its quotes, as it is written. -/
theorem enclosed_ok {quote : Char} {enclosure : Enclosure} {token : String → Token}
    {rest : List Char} {lexeme : Lexeme}
    (hs : ∀ inner, (token (String.ofList inner)).SpelledAs (Text.enclose quote inner))
    (he : ∀ text, token text ≠ .eof) (h : enclosed quote enclosure token rest = .ok lexeme) :
    quote :: rest = lexeme.text ++ lexeme.rest ∧ lexeme.text ≠ [] ∧
      lexeme.token.SpelledAs lexeme.text ∧ lexeme.token ≠ .eof := by
  unfold enclosed at h
  split at h
  next body behind hb =>
    cases h
    obtain ⟨inner, hbody, ht⟩ := Text.readBody_split hb
    rw [List.reverse_nil, List.nil_append] at hbody
    refine ⟨?_, List.cons_ne_nil _ _, ?_, he _⟩
    · rw [ht, hbody]
      dsimp only
      rw [Text.enclose, List.cons_append, List.cons_append, List.append_assoc]
      rfl
    · rw [hbody]
      exact hs inner
  next => cases h

/-- No places are cut off where no point stands. -/
theorem fraction_of_ne {c : Char} {cs : List Char} (hc : c ≠ '.') : fraction (c :: cs) = ([], c :: cs) := by
  unfold fraction
  split
  next he => exact absurd (List.cons.inj he).1 hc
  next => rfl

/-- Where a digit stands, a number is cut as a token. -/
theorem ofChars_digit {c : Char} (cs : List Char) (hc : c.isDigit = true) :
    ofChars c cs = .ok ⟨.number (String.ofList (number (c :: cs)).1), (number (c :: cs)).1,
      (number (c :: cs)).2⟩ := by
  have hstring : c ≠ '\x27' := ne_of_apply_ne Char.isDigit (by rw [hc]; decide)
  have hquoted : c ≠ '\x22' := ne_of_apply_ne Char.isDigit (by rw [hc]; decide)
  rw [ofChars, if_neg hstring, if_neg hquoted, if_pos hc]

/-- What is cut from the front of a text is one token as it is written, and with what is behind
it the text. -/
theorem ofChars_ok {c : Char} {rest : List Char} {lexeme : Lexeme}
    (h : ofChars c rest = .ok lexeme) :
    c :: rest = lexeme.text ++ lexeme.rest ∧ lexeme.text ≠ [] ∧
      lexeme.token.SpelledAs lexeme.text ∧ lexeme.token ≠ .eof := by
  unfold ofChars at h
  by_cases hstring : c = '\x27'
  · rw [if_pos hstring, hstring] at h
    rw [hstring]
    exact enclosed_ok spelledAs_string (fun _ => Token.noConfusion) h
  rw [if_neg hstring] at h
  by_cases hquoted : c = '\x22'
  · rw [if_pos hquoted, hquoted] at h
    rw [hquoted]
    exact enclosed_ok spelledAs_quoted (fun _ => Token.noConfusion) h
  rw [if_neg hquoted] at h
  by_cases hdigit : c.isDigit = true
  · rw [if_pos hdigit] at h
    cases h
    have hw : ((number (c :: rest)).1) ≠ [] := by
      rw [number, digits, List.takeWhile_cons_of_pos hdigit]
      exact List.cons_ne_nil _ _
    exact ⟨(number_append (c :: rest)).symm, hw, String.toList_ofList.symm, Token.noConfusion⟩
  rw [if_neg hdigit] at h
  by_cases hword : isWordStart c = true
  · rw [if_pos hword] at h
    obtain ⟨hs, he⟩ := wordToken_spelled (c :: rest.takeWhile isWordPart)
    dsimp only at h
    generalize wordToken (String.ofList (c :: rest.takeWhile isWordPart)) = token at h hs he
    cases h
    refine ⟨?_, List.cons_ne_nil _ _, hs, he⟩
    rw [List.cons_append, List.takeWhile_append_dropWhile]
  rw [if_neg hword] at h
  split at h
  next token length hs =>
    cases h
    obtain ⟨hspelled, he⟩ := ofSymbol?_split hs
    refine ⟨?_, List.cons_ne_nil _ _, hspelled, he⟩
    rw [List.cons_append, List.take_append_drop]
  next => cases h

end Lexeme

end SqlDdl
