import Mathlib.Data.List.TakeWhile
import SqlDdl.Proofs.Decimals
import SqlDdl.Proofs.Documents
import SqlDdl.Toml.Writer

/-!
# Written values of documents

Three kinds of value are written so that a line can have them: a number by its decimal digits, a
truth value by its name, and a text that needs no escape between double quotes. Numbers of up to
128 bits are read back, which is more than any limit needs.
-/

namespace SqlDdl.Toml

section Scalars

variable {text : List Char} {value : Value}

/-- An ASCII letter or digit stands in a value without quotes. -/
theorem isScalarPart_of_isAlphanum {c : Char} (h : c.isAlphanum = true) :
    isScalarPart c = true := by
  have hmarks : (['=', ',', '[', ']', '\x7b', '\x7d', ' ', '\t', '#', '\r', '\n'].all
      fun d => !d.isAlphanum) = true := by
    decide
  rw [isScalarPart, Bool.not_eq_true', List.contains_eq_mem, decide_eq_false_iff_not]
  intro hc
  have hmark := List.all_eq_true.mp hmarks c hc
  rw [h] at hmark
  cases hmark

/-- A value of ASCII letters and digits, at least one, is taken up to the line break. -/
theorem scalarText_break {rest : List Char} (h : ∀ c ∈ text, c.isAlphanum = true) :
    scalarText (text ++ '\n' :: rest) = (text, '\n' :: rest) := by
  have hbreak : ∀ c ∈ ('\n' :: rest).head?, isScalarPart c = false := by
    rintro c ⟨⟩
    decide
  obtain ⟨htake, hdrop⟩ :=
    Lexeme.span_append (fun c hc => isScalarPart_of_isAlphanum (h c hc)) hbreak
  rw [scalarText, htake, hdrop]
  rfl

/-- ASCII letters and digits in front of a line break are read as what they come to without
quotes. -/
theorem value?_scalar (hne : text ≠ []) (h : ∀ c ∈ text, c.isAlphanum = true)
    (hvalue : scalar? text = some value) (fuel levels : Nat) (rest : List Char) :
    value? fuel levels (text ++ '\n' :: rest) = some (value, '\n' :: rest) := by
  have hhead {d : Char} {more : List Char} (hd : d.isAlphanum = false) :
      text ++ '\n' :: rest ≠ d :: more := run_append_ne hne h hd
  unfold value?
  split
  next hmark => exact absurd hmark (hhead (by decide))
  next hmark => exact absurd hmark (hhead (by decide))
  next hmark => exact absurd hmark (hhead (by decide))
  next hmark => exact absurd hmark (hhead (by decide))
  next hmark => exact absurd hmark (hhead (by decide))
  next hmark => exact absurd hmark (hhead (by decide))
  next =>
    rw [scalarText_break h]
    simp only [hvalue, Option.bind_eq_bind, Option.bind_some]
    rfl

/-- A value that is written in ASCII letters and digits, without quotes. -/
def Written.scalar (text : List Char) (value : Value) (nonempty : text ≠ [])
    (plain : text.all Char.isAlphanum = true) (reads : scalar? text = some value) : Written where
  text := text
  value := value
  begins _ := skipBlanks_run nonempty (List.all_eq_true.mp plain) (by decide) (by decide)
  reads := value?_scalar nonempty (List.all_eq_true.mp plain) reads

/-- A truth value by its name. -/
def Written.truth (b : Bool) : Written :=
  match b with
  | true => .scalar ['t', 'r', 'u', 'e'] (.boolean true) (by decide) (by decide) rfl
  | false => .scalar ['f', 'a', 'l', 's', 'e'] (.boolean false) (by decide) (by decide) rfl

@[simp]
theorem Written.text_truth (b : Bool) :
    (truth b).text = (if b then "true" else "false").toList := by
  cases b <;> rfl

@[simp]
theorem Written.value_truth (b : Bool) : (truth b).value = .boolean b := by
  cases b <;> rfl

end Scalars

section Numbers

variable {n bound : Nat}

/-- A decimal digit is less than ten. -/
theorem digit_lt_ten {c : Char} (h : c.isDigit = true) : c.toNat - '0'.toNat < 10 := by
  rw [Char.isDigit, Bool.and_eq_true, decide_eq_true_eq, decide_eq_true_eq] at h
  have hle : c.toNat ≤ 57 := h.2
  have hzero : '0'.toNat = 48 := rfl
  omega

/-- A hexadecimal digit that is no decimal one is ten or more. -/
theorem ten_le_of_hexValue? {c : Char} (hc : c.isDigit = false) (h : hexValue? c = some n) :
    10 ≤ n := by
  rw [hexValue?, hc, if_neg Bool.false_ne_true] at h
  split at h
  · cases h
    omega
  · split at h
    · cases h
      omega
    · cases h

/-- A whole number to the base of ten is read digit by digit as any decimal number is. -/
theorem wholeBelow?_ten (cs : List Char) : wholeBelow? 10 bound cs = Text.readDigits? bound cs := by
  have hstep (n : Nat) (c : Char) : ((hexValue? c).bind fun digit =>
        if digit < 10 && 10 * n + digit < bound then some (10 * n + digit) else none) =
      Text.pushDigit bound n c := by
    unfold Text.pushDigit
    cases hc : c.isDigit with
    | true =>
      have hvalue : hexValue? c = some (c.toNat - '0'.toNat) := if_pos hc
      simp only [hvalue, Option.bind_some, digit_lt_ten hc, decide_true, Bool.true_and, if_true,
        decide_eq_true_eq]
    | false =>
      rw [if_neg Bool.false_ne_true, Option.bind_eq_none_iff]
      intro digit hdigit
      have hten := ten_le_of_hexValue? hc hdigit
      have hlarge : decide (digit < 10) = false := decide_eq_false (by omega)
      rw [hlarge]
      rfl
  rw [wholeBelow?, Text.readDigits?]
  simp only [Option.bind_eq_bind, hstep]

/-- The digits that a number is shown with are digits. -/
theorem isDigit_of_mem_toDigits {c : Char} (h : c ∈ Nat.toDigits 10 n) : c.isDigit = true :=
  Nat.isDigit_of_mem_toDigits (by decide) (by decide) h

/-- The digits that a number is shown with are no run of characters that has another one. -/
theorem toDigits_ne {cs : List Char} (h : ∃ c ∈ cs, c.isDigit = false) :
    Nat.toDigits 10 n ≠ cs := by
  rintro rfl
  obtain ⟨c, hmem, hc⟩ := h
  rw [isDigit_of_mem_toDigits hmem] at hc
  cases hc

/-- The digits that a number is shown with are read as this number. -/
theorem signedWhole?_toDigits (h : n < 2 ^ 128) : signedWhole? (Nat.toDigits 10 n) = some n := by
  have hwhole : wholeBelow? 10 (Nat.pow 2 128) (Nat.toDigits 10 n) = some n := by
    rw [wholeBelow?_ten]
    exact (Text.readDigits?_eq_some_iff (Nat.zero_lt_of_lt h)).mpr
      ⟨Nat.toDigits_ne_nil, fun c => isDigit_of_mem_toDigits, Text.digitsValue_toDigits n, h⟩
  unfold signedWhole?
  split
  next hsign => exact absurd hsign (toDigits_ne ⟨'-', by simp, by decide⟩)
  next hsign => exact absurd hsign (toDigits_ne ⟨'+', by simp, by decide⟩)
  next =>
    rw [hwhole]
    rfl

/-- The digits that a number is shown with have no needless zero in front. -/
theorem length_toDigits_of_zero (h : (Nat.toDigits 10 n).head? = some '0') :
    (Nat.toDigits 10 n).length = 1 := by
  by_cases hn : 0 < n
  · exact absurd h (Text.head?_toDigits hn)
  · obtain rfl : n = 0 := by omega
    rfl

/-- The digits that a number is shown with have no sign. -/
theorem withoutSign_toDigits : withoutSign (Nat.toDigits 10 n) = Nat.toDigits 10 n := by
  unfold withoutSign
  split
  next hsign => exact absurd hsign (toDigits_ne ⟨'+', by simp, by decide⟩)
  next hsign => exact absurd hsign (toDigits_ne ⟨'-', by simp, by decide⟩)
  next => rfl

/-- The digits that a number is shown with are read as a decimal number and not as a date. -/
theorem decimalOrDate?_toDigits (h : n < 2 ^ 128) :
    decimalOrDate? (Nat.toDigits 10 n) (Nat.toDigits 10 n) = some (.integer (some n)) := by
  have hbehind : (Nat.toDigits 10 n).dropWhile Char.isDigit = [] :=
    List.dropWhile_eq_nil_iff.mpr fun c => isDigit_of_mem_toDigits
  have hempty : (Nat.toDigits 10 n).isEmpty = false :=
    List.isEmpty_eq_false_iff.mpr Nat.toDigits_ne_nil
  have hzero : (decide ((Nat.toDigits 10 n).head? = some '0') &&
      decide ((Nat.toDigits 10 n).length ≠ 1)) = false := by
    by_cases hhead : (Nat.toDigits 10 n).head? = some '0'
    · rw [decide_eq_false (not_not_intro (length_toDigits_of_zero hhead)), Bool.and_false]
    · rw [decide_eq_false hhead, Bool.false_and]
  rw [decimalOrDate?, hbehind, signedWhole?_toDigits h]
  dsimp only
  rw [hempty, hzero]
  rfl

/-- The digits that a number is shown with are read as a value, which is the number. -/
theorem scalar?_toDigits (h : n < 2 ^ 128) :
    scalar? (Nat.toDigits 10 n) = some (.integer (some n)) := by
  have hname : (decide (Nat.toDigits 10 n = ['i', 'n', 'f']) ||
      decide (Nat.toDigits 10 n = ['n', 'a', 'n'])) = false := by
    rw [decide_eq_false (toDigits_ne ⟨'n', by simp, by decide⟩),
      decide_eq_false (toDigits_ne ⟨'n', by simp, by decide⟩)]
    rfl
  unfold scalar?
  split
  next hmark => exact absurd hmark (toDigits_ne ⟨'t', by simp, by decide⟩)
  next hmark => exact absurd hmark (toDigits_ne ⟨'f', by simp, by decide⟩)
  next hmark => exact absurd hmark (toDigits_ne ⟨'x', by simp, by decide⟩)
  next hmark => exact absurd hmark (toDigits_ne ⟨'o', by simp, by decide⟩)
  next hmark => exact absurd hmark (toDigits_ne ⟨'b', by simp, by decide⟩)
  next =>
    dsimp only
    rw [withoutSign_toDigits, hname, if_neg Bool.false_ne_true, decimalOrDate?_toDigits h]

/-- A number by its decimal digits. -/
def Written.number (n : Nat) (h : n < 2 ^ 128) : Written :=
  .scalar (Nat.toDigits 10 n) (.integer (some n)) Nat.toDigits_ne_nil
    (List.all_eq_true.mpr fun c hc => by
      rw [Char.isAlphanum, isDigit_of_mem_toDigits hc, Bool.or_true])
    (scalar?_toDigits h)

@[simp]
theorem Written.text_number (h : n < 2 ^ 128) : (number n h).text = (toString n).toList := by
  rw [Nat.toString_eq_repr, Nat.repr_eq_ofList_toDigits, String.toList_ofList]
  rfl

@[simp]
theorem Written.value_number (h : n < 2 ^ 128) : (number n h).value = .integer (some n) := rfl

end Numbers

section Texts

/-- Whether a character stands for itself between double quotes, and is written so: any but
the quote, the backslash and control characters, the tab among them. -/
def isPlain (c : Char) : Bool := c ≠ '\x22' && c ≠ '\\' && c ≠ '\t' && !isControl c

variable {cs : List Char}

/-- A plain character is no mark of an escape and no control character. -/
theorem isPlain_iff {c : Char} :
    isPlain c = true ↔ c ≠ '\x22' ∧ c ≠ '\\' ∧ c ≠ '\t' ∧ isControl c = false := by
  simp only [isPlain, Bool.and_eq_true, decide_eq_true_eq, Bool.not_eq_true', and_assoc]

/-- ASCII letters are plain. -/
theorem isPlain_of_isAlpha {c : Char} (h : c.isAlpha = true) : isPlain c = true := by
  have hne {d : Char} (hd : d.isAlpha = false) : c ≠ d := 
    ne_of_apply_ne Char.isAlpha (by rw [h, hd]; decide)
  have hcontrol : isControl c = false := by
    by_contra hc
    rw [Bool.not_eq_false, isControl, Bool.or_eq_true, Bool.and_eq_true, decide_eq_true_eq,
      decide_eq_true_eq, decide_eq_true_eq] at hc
    have hmem : c.toNat ∈ 127 :: List.range 32 := by
      rw [List.mem_cons, List.mem_range]
      omega
    have hletter : c.isAlpha = false :=
      Lexeme.of_toNat_mem (p := fun d => d.isAlpha = false) hmem (by decide +kernel)
    rw [h] at hletter
    cases hletter
  exact isPlain_iff.mpr ⟨hne (by decide), hne (by decide), hne (by decide), hcontrol⟩

/-- A plain character needs no escape. -/
theorem needsEscape_of_isPlain {c : Char} (h : isPlain c = true) : needsEscape c = false := by
  obtain ⟨-, -, -, hcontrol⟩ := isPlain_iff.mp h
  rw [isControl, Bool.or_eq_false_iff] at hcontrol
  rw [needsEscape, hcontrol.1, hcontrol.2]
  rfl

/-- Where a character does not occur there is no run of it. -/
theorem longestRun_eq_zero {c : Char} (h : c ∉ cs) : longestRun c cs = 0 := by
  -- Neither the longest run nor the last one ever begins.
  have hfold : cs.foldl (fun runs d =>
      if d = c then (max runs.1 (runs.2 + 1), runs.2 + 1) else (runs.1, 0)) (0, 0) = (0, 0) := by
    induction cs with
    | nil => rfl
    | cons d cs ih =>
      rw [List.mem_cons, not_or] at h
      rw [List.foldl_cons, if_neg (Ne.symm h.1)]
      exact ih h.2
  exact congrArg Prod.fst hfold

/-- Plain characters are written as they are. -/
theorem escapeText_plain {keepBreaks : Bool} {quotes : Nat} (h : ∀ c ∈ cs, isPlain c = true) :
    escapeText keepBreaks quotes 0 cs = cs := by
  induction cs with
  | nil => rfl
  | cons c cs ih =>
    have hrest := ih fun d hd => h d (List.mem_cons_of_mem c hd)
    have hc := h c List.mem_cons_self
    have hne {d : Char} (hd : isPlain d = false) : c ≠ d :=
      ne_of_apply_ne isPlain (by rw [hc, hd]; decide)
    have hescape := needsEscape_of_isPlain hc
    rw [escapeText, if_neg (hne (by decide)), hrest, hescape]
    · rfl
    -- None of the characters that have an escape of their own is plain.
    all_goals exact hne (by decide)

/-- A plain text is written between double quotes as it is. -/
theorem toList_writeString {text : String} (h : ∀ c ∈ text.toList, isPlain c = true) :
    (writeString text).toList = '\x22' :: text.toList ++ ['\x22'] := by
  have hnone {d : Char} (hd : isPlain d = false) : d ∉ text.toList :=
    fun hm => Bool.eq_false_iff.mp hd (h d hm)
  have hcontrols : text.toList.any needsEscape = false :=
    List.any_eq_false.mpr fun c hc => Bool.not_eq_true _ ▸ needsEscape_of_isPlain (h c hc)
  have hslash : '\\' ∉ text.toList := hnone (by decide)
  have hbreak : '\n' ∉ text.toList := hnone (by decide)
  have hdouble : longestRun '\x22' text.toList = 0 := longestRun_eq_zero (hnone (by decide))
  have hform : writeString text = surround "\x22" false (String.ofList text.toList) := by
    simp [writeString, hcontrols, hslash, hbreak, hdouble, escapeText_plain h]
  rw [hform, String.ofList_toList]
  simp [surround]

/-- Plain characters are read up to the closing quote as they are. -/
theorem basic?_plain {found rest : List Char} (h : ∀ c ∈ cs, isPlain c = true) :
    basic? found (cs ++ '\x22' :: rest) = some (String.ofList (found.reverse ++ cs), rest) := by
  induction cs generalizing found with
  | nil => rw [List.nil_append, basic?, if_pos rfl, List.append_nil]
  | cons c cs ih =>
    obtain ⟨hquote, hslash, -, hcontrol⟩ := isPlain_iff.mp (h c List.mem_cons_self)
    have hrest : basic? (c :: found) (cs ++ '\x22' :: rest) =
        some (String.ofList ((c :: found).reverse ++ cs), rest) :=
      ih fun d hd => h d (List.mem_cons_of_mem c hd)
    rw [List.cons_append, basic?, if_neg hquote, if_neg hslash, hcontrol, if_neg Bool.false_ne_true,
      hrest, List.reverse_cons, List.append_assoc]
    rfl

/-- A plain text between double quotes is read as that text. -/
theorem value?_plain {text : String} (h : ∀ c ∈ text.toList, isPlain c = true)
    (fuel levels : Nat) (rest : List Char) :
    value? fuel levels ('\x22' :: text.toList ++ ['\x22'] ++ '\n' :: rest) =
      some (.string text, '\n' :: rest) := by
  have hbasic : basic? [] (text.toList ++ '\x22' :: '\n' :: rest) = some (text, '\n' :: rest) := by
    rw [basic?_plain h, List.reverse_nil, List.nil_append, String.ofList_toList]
  have htext : '\x22' :: text.toList ++ ['\x22'] ++ '\n' :: rest =
      '\x22' :: (text.toList ++ '\x22' :: '\n' :: rest) := by
    simp only [List.cons_append, List.append_assoc, List.nil_append]
  rw [htext]
  unfold value?
  split
  next more hthree =>
    -- A third quote is neither the closing one of an empty text nor a plain character.
    cases hchars : text.toList with
    | nil =>
      rw [hchars] at hthree
      cases hthree
    | cons c cs =>
      rw [hchars] at hthree
      have hc := h c (hchars ▸ List.mem_cons_self)
      have hquote : c ≠ '\x22' := ne_of_apply_ne isPlain (by rw [hc]; decide)
      exact absurd (List.cons.inj (List.cons.inj hthree).2).1 hquote
  next more _ hone =>
    cases hone
    rw [hbasic]
    rfl
  next hone => cases hone
  next hone => cases hone
  next hone => cases hone
  next hone => cases hone
  next _ hone _ _ _ _ => exact absurd rfl (hone _)

/-- A plain text between double quotes. -/
def Written.plain (text : String) (h : ∀ c ∈ text.toList, isPlain c = true) : Written where
  text := '\x22' :: text.toList ++ ['\x22']
  value := .string text
  begins _ := rfl
  reads := value?_plain h

@[simp]
theorem Written.text_plain {text : String} (h : ∀ c ∈ text.toList, isPlain c = true) :
    (plain text h).text = (writeString text).toList := (toList_writeString h).symm

@[simp]
theorem Written.value_plain {text : String} (h : ∀ c ∈ text.toList, isPlain c = true) :
    (plain text h).value = .string text := rfl

end Texts

end SqlDdl.Toml
