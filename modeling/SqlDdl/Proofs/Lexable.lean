import SqlDdl.Proofs.Lexemes

/-!
# Tokens that can be cut from a text

A token that can be cut from some text is cut again from wherever it is written, if a
character follows it that ends every lexeme: white space, a hyphen or a slash. Only a
minus sign is not ended by a hyphen, since two hyphens begin a comment. White space
and the characters of words are disjoint classes; of their tables nothing else is
used.
-/

namespace SqlDdl

/-- At least one digit and nothing else. -/
structure Digits where
  /-- The characters. -/
  list : List Char
  /-- There is at least one. -/
  nonempty : list ≠ []
  /-- Each of them is a digit. -/
  digit : ∀ c ∈ list, c.isDigit = true

/-- The power of ten that a number may end with. -/
structure PowerForm where
  /-- The letter that begins the power. -/
  mark : Char
  /-- The letter is an `e` in either case. -/
  isMark : mark = 'e' ∨ mark = 'E'
  /-- The sign of the power, or nothing. -/
  sign : List Char
  /-- No more than one sign is written. -/
  isSign : sign = [] ∨ sign = ['+'] ∨ sign = ['-']
  /-- The digits behind the sign. -/
  digits : Digits

/-- The characters of a power of ten. -/
def PowerForm.text (power : PowerForm) : List Char :=
  power.mark :: (power.sign ++ power.digits.list)

/-- A number with its optional places and power of ten. -/
structure NumberForm where
  /-- The digits before the point. -/
  whole : Digits
  /-- The digits behind the point, where there is one. -/
  places : Option Digits
  /-- The power of ten, where there is one. -/
  power : Option PowerForm

namespace NumberForm

/-- The characters of the optional places. -/
def placesText (form : NumberForm) : List Char :=
  form.places.elim [] fun digits => '.' :: digits.list

/-- The characters of the optional power of ten. -/
def powerText (form : NumberForm) : List Char := form.power.elim [] PowerForm.text

/-- The characters of a number. -/
def text (form : NumberForm) : List Char := form.whole.list ++ form.placesText ++ form.powerText

end NumberForm

/-- Whether a text is a letter or an underscore followed by letters, digits and underscores. -/
def IsPlainWord : List Char → Prop
  | [] => False
  | c :: cs => Lexeme.isWordStart c = true ∧ ∀ d ∈ cs, Lexeme.isWordPart d = true

/-- Whether a token can be cut from some text: the end of the input cannot, an unquoted word has
to be a plain word and no keyword, and a number has to have the form of one. -/
def Token.Lexable : Token → Prop
  | eof => False
  | notEqual spelling => spelling = "<>" ∨ spelling = "!="
  | word ⟨value, false⟩ => IsPlainWord value.toList ∧
      ∀ reserved : Keyword, value.toList.map Char.toUpper ≠ reserved.spelling.toList
  | number text => ∃ form : NumberForm, form.text = text.toList
  | _ => True

namespace Lexeme

/-- Whether a character ends the lexeme before it, a minus sign before a hyphen excepted. -/
def endsLexeme (c : Char) : Bool := Text.isBlank c || c == '-' || c == '/'

/-- The code points of the characters that end a lexeme. -/
def endingCodes : List Nat :=
  [0x9, 0xA, 0xB, 0xC, 0xD, 0x20, 0x2D, 0x2F, 0x85, 0xA0, 0x1680, 0x2000, 0x2001, 0x2002, 0x2003,
    0x2004, 0x2005, 0x2006, 0x2007, 0x2008, 0x2009, 0x200A, 0x2028, 0x2029, 0x202F, 0x205F, 0x3000]

/-- A character that ends a lexeme has one of these code points. -/
theorem toNat_mem_endingCodes {c : Char} (h : endsLexeme c = true) : c.toNat ∈ endingCodes := by
  rw [endsLexeme, Bool.or_eq_true, Bool.or_eq_true, beq_iff_eq, beq_iff_eq] at h
  rcases h with (hb | rfl) | rfl
  · simp only [Text.isBlank, Bool.or_eq_true, Bool.and_eq_true, beq_iff_eq,
      decide_eq_true_eq] at hb
    simp only [endingCodes, List.mem_cons, List.not_mem_nil]
    omega
  · decide
  · decide

/-- What holds of the characters with the listed code points holds of a character whose code point
is listed. -/
theorem of_toNat_mem {p : Char → Prop} {codes : List Nat} {c : Char} (hc : c.toNat ∈ codes)
    (h : ∀ n ∈ codes, p (Char.ofNat n)) : p c := by
  have hn := h c.toNat hc
  rwa [Char.ofNat_toNat] at hn

/-- No character that ends a lexeme belongs to a word, a number, a quoted text or a longer
sign. -/
theorem separate_of_endsLexeme {c : Char} (h : endsLexeme c = true) :
    isWordPart c = false ∧ c ∉ ['.', '\x27', '\x22', '=', '>'] := by
  refine of_toNat_mem (p := fun d => isWordPart d = false ∧ d ∉ ['.', '\x27', '\x22', '=', '>'])
    (toNat_mem_endingCodes h) ?_
  decide +kernel

/-- No layout begins with a character that ends no lexeme. -/
theorem beginsLayout_eq_false {c : Char} {rest : List Char} (h : endsLexeme c = false) :
    Source.beginsLayout (c :: rest) = false := by
  rw [endsLexeme, Bool.or_eq_false_iff, Bool.or_eq_false_iff, beq_eq_false_iff_ne,
    beq_eq_false_iff_ne] at h
  unfold Source.beginsLayout
  split
  · rfl
  next he =>
    cases he
    exact absurd rfl h.1.2
  next he =>
    cases he
    exact absurd rfl h.2
  next he =>
    cases he
    exact h.1.1

/-- A character of words ends no lexeme. -/
theorem endsLexeme_of_isWordPart {c : Char} (h : isWordPart c = true) : endsLexeme c = false := by
  cases he : endsLexeme c with
  | false => rfl
  | true =>
    rw [(separate_of_endsLexeme he).1] at h
    cases h

/-- What begins a word belongs to it. -/
theorem isWordPart_of_isWordStart {c : Char} (h : isWordStart c = true) : isWordPart c = true := by
  rw [isWordStart, Bool.or_eq_true] at h
  rw [isWordPart, Bool.or_eq_true, Bool.or_eq_true]
  rcases h with h | h
  · exact Or.inl (Or.inl h)
  · exact Or.inr h

/-- Digits belong to words but begin none. -/
theorem word_of_isDigit {c : Char} (h : c.isDigit = true) :
    isWordPart c = true ∧ isWordStart c = false := by
  have hc : c.toNat ∈ List.range' 48 10 := by
    rw [Char.isDigit, Bool.and_eq_true, decide_eq_true_eq, decide_eq_true_eq] at h
    rw [List.mem_range'_1]
    have h₁ : 48 ≤ c.toNat := h.1
    have h₂ : c.toNat ≤ 57 := h.2
    omega
  refine of_toNat_mem (p := fun d => isWordPart d = true ∧ isWordStart d = false) hc ?_
  decide +kernel

/-- Characters of a class are cut off where another character follows. -/
theorem span_append {p : Char → Bool} {cs rest : List Char} (hcs : ∀ d ∈ cs, p d = true)
    (hr : ∀ d ∈ rest.head?, p d = false) :
    (cs ++ rest).takeWhile p = cs ∧ (cs ++ rest).dropWhile p = rest := by
  rw [List.takeWhile_append_of_pos hcs, List.dropWhile_append_of_pos hcs]
  cases rest with
  | nil => exact ⟨List.append_nil cs, rfl⟩
  | cons d rest =>
    have hd : ¬ p d = true := Bool.eq_false_iff.mp (hr d rfl)
    rw [List.takeWhile_cons_of_neg hd, List.dropWhile_cons_of_neg hd]
    exact ⟨List.append_nil cs, rfl⟩

/-- A word is cut off where it ends. -/
theorem ofChars_word {c : Char} {cs rest : List Char} (hc : isWordStart c = true)
    (hcs : ∀ d ∈ cs, isWordPart d = true) (hr : ∀ d ∈ rest.head?, isWordPart d = false) :
    ofChars c (cs ++ rest) = .ok ⟨wordToken (String.ofList (c :: cs)), c :: cs, rest⟩ := by
  have hstring : c ≠ '\x27' := ne_of_apply_ne isWordStart (by rw [hc]; decide)
  have hquoted : c ≠ '\x22' := ne_of_apply_ne isWordStart (by rw [hc]; decide)
  have hdigit : ¬ c.isDigit = true := by
    intro hd
    rw [(word_of_isDigit hd).2] at hc
    cases hc
  obtain ⟨htake, hdrop⟩ := span_append hcs hr
  rw [ofChars, if_neg hstring, if_neg hquoted, if_neg hdigit, if_pos hc, htake, hdrop]

/-- Digits are cut off where another character follows. -/
theorem digits_digits (ds : Digits) {rest : List Char} (hr : ∀ d ∈ rest.head?, d.isDigit = false) :
    digits (ds.list ++ rest) = (ds.list, rest) := by
  obtain ⟨htake, hdrop⟩ := span_append ds.digit hr
  rw [digits, htake, hdrop]

/-- The first character of digits is one. -/
theorem head?_digits (ds : Digits) (rest : List Char) :
    ∀ d ∈ (ds.list ++ rest).head?, d.isDigit = true := by
  rcases ds with ⟨list, hne, hd⟩
  cases list with
  | nil => exact absurd rfl hne
  | cons c cs =>
    rintro d ⟨⟩
    exact hd c List.mem_cons_self

/-- No places are cut off where no point follows. -/
theorem fraction_eq_nil {rest : List Char} (hr : ∀ d ∈ rest.head?, d ≠ '.') :
    fraction rest = ([], rest) := by
  cases rest with
  | nil => rfl
  | cons d rest => exact fraction_of_ne (hr d rfl)

/-- The optional places of a number are cut off, if a number without them has none. -/
theorem fraction_places (form : NumberForm) {rest : List Char}
    (hr : ∀ d ∈ rest.head?, d.isDigit = false)
    (hnone : form.places = none → fraction rest = ([], rest)) :
    fraction (form.placesText ++ rest) = (form.placesText, rest) := by
  rw [NumberForm.placesText]
  cases hplaces : form.places with
  | none => exact hnone hplaces
  | some ds =>
    have hd := digits_digits ds hr
    rw [Option.elim_some, List.cons_append, fraction, hd]
    cases hl : ds.list with
    | nil => exact absurd hl ds.nonempty
    | cons c cs => rfl

/-- The optional sign of a power of ten is cut off. -/
theorem sign_sign (power : PowerForm) (rest : List Char) :
    sign (power.sign ++ (power.digits.list ++ rest)) =
      (power.sign, power.digits.list ++ rest) := by
  rcases power.isSign with hs | hs | hs
  · have hd := head?_digits power.digits rest
    rw [hs, List.nil_append]
    cases hn : power.digits.list ++ rest with
    | nil => rfl
    | cons d others =>
      rw [hn] at hd
      have hdigit := hd d rfl
      rw [sign]
      · rintro behind ⟨⟩
        exact absurd hdigit (by decide)
      · rintro behind ⟨⟩
        exact absurd hdigit (by decide)
  · rw [hs]
    rfl
  · rw [hs]
    rfl

/-- No power of ten is cut off where no letter E follows. -/
theorem exponent_eq_nil {rest : List Char} (hr : ∀ d ∈ rest.head?, d ≠ 'e' ∧ d ≠ 'E') :
    exponent rest = ([], rest) := by
  cases rest with
  | nil => rfl
  | cons d rest => rw [exponent, if_neg (not_or.mpr (hr d rfl))]

/-- The optional power of ten of a number is cut off, if a number without it has none. -/
theorem exponent_power (form : NumberForm) {rest : List Char}
    (hr : ∀ d ∈ rest.head?, d.isDigit = false)
    (hnone : form.power = none → exponent rest = ([], rest)) :
    exponent (form.powerText ++ rest) = (form.powerText, rest) := by
  rw [NumberForm.powerText]
  cases hpower : form.power with
  | none => exact hnone hpower
  | some power =>
    have hs := sign_sign power rest
    have hd := digits_digits power.digits hr
    rw [Option.elim_some, PowerForm.text, List.cons_append, List.append_assoc, exponent,
      if_pos power.isMark, hs, hd]
    cases hl : power.digits.list with
    | nil => exact absurd hl power.digits.nonempty
    | cons c cs => rfl

/-- What holds of the marks of a power of ten and of what stands behind a number holds of what
stands behind its places. -/
theorem head?_power {p : Char → Prop} (form : NumberForm) {rest : List Char} (he : p 'e')
    (hE : p 'E') (hr : ∀ d ∈ rest.head?, p d) : ∀ d ∈ (form.powerText ++ rest).head?, p d := by
  rw [NumberForm.powerText]
  cases form.power with
  | none => exact hr
  | some power =>
    rintro d ⟨⟩
    rcases power.isMark with hmark | hmark
    · rw [hmark]
      exact he
    · rw [hmark]
      exact hE

/-- The optional places begin with no digit. -/
theorem head?_places (form : NumberForm) {rest : List Char}
    (hr : ∀ d ∈ rest.head?, d.isDigit = false) :
    ∀ d ∈ (form.placesText ++ rest).head?, d.isDigit = false := by
  rw [NumberForm.placesText]
  cases form.places with
  | none => exact hr
  | some ds =>
    rintro d ⟨⟩
    decide

/-- What belongs to no word is no digit and no mark of a power of ten. -/
theorem number_ends {c : Char} (h : isWordPart c = false) :
    c.isDigit = false ∧ c ≠ 'e' ∧ c ≠ 'E' := by
  refine ⟨?_, ?_, ?_⟩
  · cases hd : c.isDigit with
    | false => rfl
    | true =>
      rw [(word_of_isDigit hd).1] at h
      cases h
  · rintro rfl
    exact absurd h (by decide)
  · rintro rfl
    exact absurd h (by decide)

/-- A number is cut off where no digit stands behind it, and neither the places nor the power of
ten that it lacks. -/
theorem number_parts (form : NumberForm) {rest : List Char}
    (hr : ∀ d ∈ rest.head?, d.isDigit = false)
    (hplaces : form.places = none →
      fraction (form.powerText ++ rest) = ([], form.powerText ++ rest))
    (hpower : form.power = none → exponent rest = ([], rest)) :
    number (form.text ++ rest) = (form.text, rest) := by
  have hbehind : ∀ d ∈ (form.powerText ++ rest).head?, d.isDigit = false :=
    head?_power form (by decide) (by decide) hr
  have hwhole := digits_digits form.whole (head?_places form hbehind)
  have hfraction := fraction_places form hbehind hplaces
  have hexponent := exponent_power form hr hpower
  have htext : form.text ++ rest =
      form.whole.list ++ (form.placesText ++ (form.powerText ++ rest)) := by
    rw [NumberForm.text, List.append_assoc, List.append_assoc]
  rw [number, htext, hwhole]
  dsimp only
  rw [hfraction, hexponent]
  rfl

/-- A number is read back where it ends. -/
theorem number_number (form : NumberForm) {rest : List Char}
    (hr : ∀ d ∈ rest.head?, isWordPart d = false ∧ d ≠ '.') :
    number (form.text ++ rest) = (form.text, rest) := by
  have hends {d : Char} (hd : d ∈ rest.head?) := number_ends (hr d hd).1
  have hpoint : ∀ d ∈ (form.powerText ++ rest).head?, d ≠ '.' :=
    head?_power form (by decide) (by decide) fun d hd => (hr d hd).2
  exact number_parts form (fun d hd => (hends hd).1) (fun _ => fraction_eq_nil hpoint)
    (fun _ => exponent_eq_nil fun d hd => (hends hd).2)

/-- A number is cut off where it ends. -/
theorem ofChars_number (form : NumberForm) {c : Char} {cs rest : List Char}
    (ht : form.text = c :: cs) (hr : ∀ d ∈ rest.head?, isWordPart d = false ∧ d ≠ '.') :
    endsLexeme c = false ∧
      ofChars c (cs ++ rest) = .ok ⟨.number (String.ofList (c :: cs)), c :: cs, rest⟩ := by
  have hdigit : c.isDigit = true := by
    refine head?_digits form.whole (form.placesText ++ form.powerText) c ?_
    rw [← List.append_assoc]
    change c ∈ form.text.head?
    rw [ht]
    rfl
  have hn := number_number form hr
  have hcut := ofChars_digit (cs ++ rest) hdigit
  rw [ht] at hn
  rw [← List.cons_append, hn] at hcut
  exact ⟨endsLexeme_of_isWordPart (word_of_isDigit hdigit).1, hcut⟩

/-- A string literal or a quoted word is cut off at its closing quote. -/
theorem enclosed_enclose {quote : Char} {enclosure : Enclosure} {token : String → Token}
    (inner : List Char) {rest : List Char} (hr : ∀ d ∈ rest.head?, d ≠ quote) :
    enclosed quote enclosure token (Text.double quote inner ++ quote :: rest) =
      .ok ⟨token (String.ofList inner), Text.enclose quote inner, rest⟩ := by
  rw [enclosed, Text.readBody_double inner [] hr]
  rfl

/-- A sign is cut off where it was found, if nothing else begins with its first character. -/
theorem ofChars_symbol {c : Char} {rest : List Char} {token : Token} {length : Nat}
    (hc : c ≠ '\x27' ∧ c ≠ '\x22' ∧ c.isDigit = false ∧ isWordStart c = false)
    (hs : Token.ofSymbol? c rest.head? = some (token, length)) :
    ofChars c rest = .ok ⟨token, c :: rest.take (length - 1), rest.drop (length - 1)⟩ := by
  obtain ⟨hstring, hquoted, hdigit, hword⟩ := hc
  rw [ofChars, if_neg hstring, if_neg hquoted, if_neg (Bool.eq_false_iff.mp hdigit),
    if_neg (Bool.eq_false_iff.mp hword), hs]

/-- From the front of a text exactly the given characters are cut as a token. -/
def IsCut (token : Token) (text rest : List Char) : Prop :=
  Source.beginsLayout (text ++ rest) = false ∧
    ∃ c cs, text = c :: cs ∧ ofChars c (cs ++ rest) = .ok ⟨token, text, rest⟩

/-- Whether a text can follow a token without being cut with it: nothing, or a character that
ends the lexeme before it. -/
def Follows (token : Token) (rest : List Char) : Prop :=
  ∀ d ∈ rest.head?, endsLexeme d = true ∧ (token = .minus → d ≠ '-')

variable {token : Token} {text rest : List Char}

/-- A sign of one character is cut off. -/
theorem isCut_sign {c : Char}
    (hc : c ≠ '\x27' ∧ c ≠ '\x22' ∧ c.isDigit = false ∧ isWordStart c = false)
    (hl : Source.beginsLayout (c :: rest) = false)
    (hs : Token.ofSymbol? c rest.head? = some (token, 1)) : IsCut token [c] rest :=
  ⟨hl, c, [], rfl, ofChars_symbol hc hs⟩

/-- A sign that begins no longer one is cut off. -/
theorem isCut_loneSign {c : Char}
    (hc : c ≠ '\x27' ∧ c ≠ '\x22' ∧ c.isDigit = false ∧ isWordStart c = false)
    (hl : endsLexeme c = false) (hs : ∀ next, Token.ofSymbol? c next = some (token, 1)) :
    IsCut token [c] rest :=
  isCut_sign hc (beginsLayout_eq_false hl) (hs rest.head?)

/-- A sign of two characters is cut off. -/
theorem isCut_longSign {c d : Char}
    (hc : c ≠ '\x27' ∧ c ≠ '\x22' ∧ c.isDigit = false ∧ isWordStart c = false)
    (hl : endsLexeme c = false) (hs : Token.ofSymbol? c (some d) = some (token, 2)) :
    IsCut token [c, d] rest := by
  have hs' : Token.ofSymbol? c (d :: rest).head? = some (token, 2) := hs
  have hcut := ofChars_symbol hc hs'
  exact ⟨beginsLayout_eq_false hl, c, [d], rfl, hcut⟩

/-- A minus sign begins no comment where no hyphen follows it. -/
theorem beginsLayout_minus (hr : ∀ d ∈ rest.head?, d ≠ '-') :
    Source.beginsLayout ('-' :: rest) = false := by
  cases rest with
  | nil => decide
  | cons d rest =>
    have hd : d ≠ '-' := hr d rfl
    unfold Source.beginsLayout
    split
    · rfl
    next he =>
      cases he
      exact absurd rfl hd
    next he => cases he
    next he =>
      cases he
      decide

/-- The shorter of two signs is found where the longer one does not stand. -/
theorem ofSymbol?_shorter {next : Option Char} (hn : ∀ d ∈ next, d ≠ '=' ∧ d ≠ '>') :
    Token.ofSymbol? '<' next = some (.lessThan, 1) ∧
      Token.ofSymbol? '>' next = some (.greaterThan, 1) := by
  cases next with
  | none => exact ⟨rfl, rfl⟩
  | some d =>
    obtain ⟨hequal, hgreater⟩ := hn d rfl
    constructor
    · rw [Token.ofSymbol?]
      · exact fun he => hequal (Option.some.inj he)
      · exact fun he => hgreater (Option.some.inj he)
    · rw [Token.ofSymbol?]
      exact fun he => hequal (Option.some.inj he)

/-- A plain word is cut off. -/
theorem isCut_word (hp : IsPlainWord text) (hr : ∀ d ∈ rest.head?, isWordPart d = false) :
    IsCut (wordToken (String.ofList text)) text rest := by
  cases text with
  | nil => exact hp.elim
  | cons c cs =>
    have hl := endsLexeme_of_isWordPart (isWordPart_of_isWordStart hp.1)
    exact ⟨beginsLayout_eq_false hl, c, cs, rfl, ofChars_word hp.1 hp.2 hr⟩

/-- A number is cut off. -/
theorem isCut_number (form : NumberForm) (ht : form.text = text)
    (hr : ∀ d ∈ rest.head?, isWordPart d = false ∧ d ≠ '.') :
    IsCut (.number (String.ofList text)) text rest := by
  cases text with
  | nil =>
    rw [NumberForm.text, List.append_assoc, List.append_eq_nil_iff] at ht
    exact absurd ht.1 form.whole.nonempty
  | cons c cs =>
    obtain ⟨hl, hcut⟩ := ofChars_number form ht hr
    exact ⟨beginsLayout_eq_false hl, c, cs, rfl, hcut⟩

/-- A string literal is cut off. -/
theorem isCut_string (inner : List Char) (hr : ∀ d ∈ rest.head?, d ≠ '\x27') :
    IsCut (.string (String.ofList inner)) (Text.enclose '\x27' inner) rest := by
  refine ⟨beginsLayout_eq_false (by decide), '\x27', Text.double '\x27' inner ++ ['\x27'], rfl, ?_⟩
  rw [List.append_assoc, ofChars, if_pos rfl]
  exact enclosed_enclose inner hr

/-- A quoted word is cut off. -/
theorem isCut_quoted (inner : List Char) (hr : ∀ d ∈ rest.head?, d ≠ '\x22') :
    IsCut (.word ⟨String.ofList inner, true⟩) (Text.enclose '\x22' inner) rest := by
  refine ⟨beginsLayout_eq_false (by decide), '\x22', Text.double '\x22' inner ++ ['\x22'], rfl, ?_⟩
  rw [List.append_assoc, ofChars, if_neg (by decide), if_pos rfl]
  exact enclosed_enclose inner hr

/-- What has an ASCII capital letter as its capital is an ASCII letter. -/
theorem isAlpha_of_isUpper_toUpper {c : Char} (h : c.toUpper.isUpper = true) :
    c.isAlpha = true := by
  change (c.isUpper || c.isLower) = true
  rw [Bool.or_eq_true]
  by_cases hc : 'a'.val ≤ c.val ∧ c.val ≤ 'z'.val
  · have hlower : c.isLower = true := by
      change (_ && _) = true
      rw [Bool.and_eq_true, decide_eq_true_eq, decide_eq_true_eq]
      exact hc
    exact Or.inr hlower
  · have hsame : c.toUpper = c := dif_neg hc
    rw [hsame] at h
    exact Or.inl h

/-- A keyword in any mix of case is a plain word. -/
theorem isPlainWord_of_keyword {reserved : Keyword}
    (h : text.map Char.toUpper = reserved.spelling.toList) : IsPlainWord text := by
  have hnonempty : reserved.spelling.toList ≠ [] := by
    cases reserved <;> decide
  have hcapitals : reserved.spelling.toList.all Char.isUpper = true := by
    cases reserved <;> rfl
  have hstart : ∀ c ∈ text, isWordStart c = true := by
    intro c hm
    have hu : c.toUpper.isUpper = true := by
      refine List.all_eq_true.mp hcapitals c.toUpper ?_
      rw [← h]
      exact List.mem_map_of_mem hm
    rw [isWordStart, Text.isAlphabetic, isAlpha_of_isUpper_toUpper hu]
    rfl
  cases text with
  | nil => exact hnonempty h.symm
  | cons c cs =>
    refine ⟨hstart c List.mem_cons_self, fun d hm => ?_⟩
    exact isWordPart_of_isWordStart (hstart d (List.mem_cons_of_mem c hm))

/-- A token is cut from wherever it is written, if what follows cannot belong to it. -/
theorem isCut_written (hl : token.Lexable) (hs : token.SpelledAs text) (hr : Follows token rest) :
    IsCut token text rest := by
  have hpart : ∀ d ∈ rest.head?, isWordPart d = false := fun d hm =>
    (separate_of_endsLexeme (hr d hm).1).1
  have hother : ∀ d ∈ rest.head?, d ∉ ['.', '\x27', '\x22', '=', '>'] := fun d hm =>
    (separate_of_endsLexeme (hr d hm).1).2
  have hshorter : ∀ d ∈ rest.head?, d ≠ '=' ∧ d ≠ '>' := by
    intro d hm
    constructor <;> rintro rfl <;> exact absurd (hother _ hm) (by decide)
  cases token with
  | eof => exact hl.elim
  | comma =>
    cases hs
    exact isCut_loneSign (by decide) (by decide) fun next => by cases next <;> rfl
  | leftParen =>
    cases hs
    exact isCut_loneSign (by decide) (by decide) fun next => by cases next <;> rfl
  | rightParen =>
    cases hs
    exact isCut_loneSign (by decide) (by decide) fun next => by cases next <;> rfl
  | semicolon =>
    cases hs
    exact isCut_loneSign (by decide) (by decide) fun next => by cases next <;> rfl
  | period =>
    cases hs
    exact isCut_loneSign (by decide) (by decide) fun next => by cases next <;> rfl
  | equal =>
    cases hs
    exact isCut_loneSign (by decide) (by decide) fun next => by cases next <;> rfl
  | minus =>
    cases hs
    exact isCut_sign (by decide) (beginsLayout_minus fun d hm => (hr d hm).2 rfl)
      (by cases rest.head? <;> rfl)
  | lessThan =>
    cases hs
    exact isCut_sign (by decide) (beginsLayout_eq_false (by decide)) (ofSymbol?_shorter hshorter).1
  | greaterThan =>
    cases hs
    exact isCut_sign (by decide) (beginsLayout_eq_false (by decide)) (ofSymbol?_shorter hshorter).2
  | lessOrEqual =>
    cases hs
    exact isCut_longSign (by decide) (by decide) rfl
  | greaterOrEqual =>
    cases hs
    exact isCut_longSign (by decide) (by decide) rfl
  | notEqual spelling =>
    cases hs
    rcases hl with rfl | rfl
    · exact isCut_longSign (by decide) (by decide) rfl
    · exact isCut_longSign (by decide) (by decide) rfl
  | keyword reserved =>
    have hw := Keyword.ofWord?_eq_some_iff.mpr
      ((congrArg (List.map Char.toUpper) String.toList_ofList).trans hs)
    have hcut := isCut_word (isPlainWord_of_keyword hs) hpart
    rwa [wordToken, hw] at hcut
  | word identifier =>
    rcases identifier with ⟨value, _ | _⟩
    · cases hs
      have hw := Keyword.ofWord?_eq_none_iff.mpr hl.2
      have hcut := isCut_word hl.1 hpart
      rwa [wordToken, String.ofList_toList, hw] at hcut
    · have ht : text = Text.enclose '\x22' value.toList := hs.trans String.toList_ofList
      have hcut := isCut_quoted value.toList fun d hm hd => hother d hm (by rw [hd]; decide)
      rwa [String.ofList_toList, ← ht] at hcut
  | number value =>
    obtain ⟨form, hf⟩ := hl
    have hcut := isCut_number form hf fun d hm =>
      ⟨hpart d hm, fun hd => hother d hm (by rw [hd]; decide)⟩
    cases hs
    rwa [String.ofList_toList] at hcut
  | string value =>
    have ht : text = Text.enclose '\x27' value.toList := hs.trans String.toList_ofList
    have hcut := isCut_string value.toList fun d hm hd => hother d hm (by rw [hd]; decide)
    rwa [String.ofList_toList, ← ht] at hcut

end Lexeme

end SqlDdl
