import SqlDdl.Proofs.LongestMatch
import SqlDdl.Proofs.Scans

/-!
# Where numbers end

A number in a text is the longest one that stands there. It ends at the end of the text, before
a character that is no part of any number, before a point or a letter E without digits behind it,
and before a point or a letter that it has already used: no number has two points, two powers of
ten or a point behind its power. Whatever ends it is left to the next token.
-/

namespace SqlDdl

namespace NumberForm

/-- A number stands at the front of a text, and no longer one does. -/
structure Longest (form : NumberForm) (text behind : List Char) : Prop where
  /-- The text is the number and what stands behind it. -/
  split : text = form.text ++ behind
  /-- No number at the front of the text has more characters. -/
  length_le : ∀ other : NumberForm, other.text <+: text → other.text.length ≤ form.text.length

/-- A text cannot go on with a number. -/
inductive EndsBefore (form : NumberForm) : List Char → Prop where
  | atEnd : EndsBefore form []
  | other {c : Char} {rest : List Char} (digit : c.isDigit = false) (point : c ≠ '.')
      (letter : ¬ (c = 'e' ∨ c = 'E')) : EndsBefore form (c :: rest)
  | lonePoint {rest : List Char} (digit : ∀ d ∈ rest.head?, d.isDigit = false) :
      EndsBefore form ('.' :: rest)
  | secondPoint {rest : List Char} (places : form.places.isSome) : EndsBefore form ('.' :: rest)
  | pointBehindPower {rest : List Char} (power : form.power.isSome) :
      EndsBefore form ('.' :: rest)
  | loneLetter {c : Char} {rest : List Char} (letter : c = 'e' ∨ c = 'E')
      (digit : ∀ d ∈ (Lexeme.sign rest).2.head?, d.isDigit = false) : EndsBefore form (c :: rest)
  | secondLetter {c : Char} {rest : List Char} (letter : c = 'e' ∨ c = 'E')
      (power : form.power.isSome) : EndsBefore form (c :: rest)

/-- One more digit makes a longer number. -/
theorem exists_concat_digit (form : NumberForm) {d : Char} (hd : d.isDigit = true) :
    ∃ longer : NumberForm, longer.text = form.text ++ [d] := by
  have more (ds : Digits) : ∃ more : Digits, more.list = ds.list ++ [d] := by
    refine ⟨⟨ds.list ++ [d], by simp, ?_⟩, rfl⟩
    intro c hc
    rcases List.mem_append.mp hc with hc | hc
    · exact ds.digit c hc
    · rw [List.mem_singleton.mp hc]
      exact hd
  cases hpower : form.power with
  | some power =>
    obtain ⟨digits, hdigits⟩ := more power.digits
    refine ⟨{ form with power := some { power with digits := digits } }, ?_⟩
    simp [text, placesText, powerText, hpower, PowerForm.text, hdigits]
  | none =>
    cases hplaces : form.places with
    | some places =>
      obtain ⟨digits, hdigits⟩ := more places
      refine ⟨{ form with places := some digits }, ?_⟩
      simp [text, placesText, powerText, hpower, hplaces, hdigits]
    | none =>
      obtain ⟨digits, hdigits⟩ := more form.whole
      refine ⟨{ form with whole := digits }, ?_⟩
      simp [text, placesText, powerText, hpower, hplaces, hdigits]

/-- A digit by itself. -/
def oneDigit (d : Char) (hd : d.isDigit = true) : Digits :=
  ⟨[d], List.cons_ne_nil d [], fun _ hc => List.mem_singleton.mp hc ▸ hd⟩

/-- A point with a digit behind it makes a longer number of a whole one. -/
theorem exists_concat_point (form : NumberForm) {d : Char} (hd : d.isDigit = true)
    (hplaces : form.places = none) (hpower : form.power = none) :
    ∃ longer : NumberForm, longer.text = form.text ++ ['.', d] :=
  ⟨{ form with places := some (oneDigit d hd) }, by
    simp [text, placesText, powerText, hplaces, hpower, oneDigit]⟩

/-- A letter with an optional sign and a digit behind it makes a longer number of one without a
power of ten. -/
theorem exists_concat_letter (form : NumberForm) {c d : Char} (hc : c = 'e' ∨ c = 'E')
    (rest : List Char) (hd : d.isDigit = true) (hpower : form.power = none) :
    ∃ longer : NumberForm, longer.text = form.text ++ (c :: ((Lexeme.sign rest).1 ++ [d])) :=
  ⟨{ form with power := some ⟨c, hc, (Lexeme.sign rest).1, Lexeme.sign_form rest, oneDigit d hd⟩ },
    by simp [text, placesText, powerText, hpower, PowerForm.text, oneDigit]⟩

variable {form : NumberForm} {text behind : List Char}

/-- Behind the longest number no digits stand that would make it longer. -/
theorem Longest.not_longer (h : form.Longest text behind) {more rest : List Char}
    (hmore : more ≠ []) (hbehind : behind = more ++ rest) :
    ¬ ∃ longer : NumberForm, longer.text = form.text ++ more := by
  rintro ⟨longer, hlonger⟩
  have hfront : longer.text <+: text :=
    ⟨rest, by rw [hlonger, h.split, hbehind, List.append_assoc]⟩
  have hlength := h.length_le longer hfront
  have hpos := List.length_pos_iff.mpr hmore
  rw [hlonger, List.length_append] at hlength
  omega

/-- The longest number ends before what stands behind it. -/
theorem Longest.endsBefore (h : form.Longest text behind) : form.EndsBefore behind := by
  cases behind with
  | nil => exact .atEnd
  | cons c rest =>
    have hdigit : c.isDigit = false := by
      refine Bool.eq_false_iff.mpr fun hd => ?_
      exact h.not_longer (List.cons_ne_nil c []) rfl (form.exists_concat_digit hd)
    by_cases hpoint : c = '.'
    · subst hpoint
      by_cases hpower : form.power.isSome
      · exact .pointBehindPower hpower
      by_cases hplaces : form.places.isSome
      · exact .secondPoint hplaces
      refine .lonePoint fun d hd => Bool.eq_false_iff.mpr fun hdd => ?_
      obtain ⟨others, rfl⟩ := List.head?_eq_some_iff.mp hd
      rw [Option.not_isSome_iff_eq_none] at hpower hplaces
      exact h.not_longer (List.cons_ne_nil _ _) rfl (form.exists_concat_point hdd hplaces hpower)
    by_cases hletter : c = 'e' ∨ c = 'E'
    · by_cases hpower : form.power.isSome
      · exact .secondLetter hletter hpower
      refine .loneLetter hletter fun d hd => Bool.eq_false_iff.mpr fun hdd => ?_
      obtain ⟨others, hothers⟩ := List.head?_eq_some_iff.mp hd
      rw [Option.not_isSome_iff_eq_none] at hpower
      have hrest : c :: rest = (c :: ((Lexeme.sign rest).1 ++ [d])) ++ others := by
        have hsign := Lexeme.sign_append rest
        rw [hothers] at hsign
        simp [hsign]
      exact h.not_longer (List.cons_ne_nil _ _) hrest
        (form.exists_concat_letter hletter rest hdd hpower)
    · exact .other hdigit hpoint hletter

namespace EndsBefore

/-- A number does not end before a digit. -/
theorem head?_isDigit (h : form.EndsBefore behind) : ∀ d ∈ behind.head?, d.isDigit = false := by
  cases h with
  | atEnd => nofun
  | other digit =>
    rintro d ⟨⟩
    exact digit
  | lonePoint => rintro d ⟨⟩; decide
  | secondPoint => rintro d ⟨⟩; decide
  | pointBehindPower => rintro d ⟨⟩; decide
  | loneLetter letter =>
    rintro d ⟨⟩
    rcases letter with rfl | rfl <;> decide
  | secondLetter letter =>
    rintro d ⟨⟩
    rcases letter with rfl | rfl <;> decide

/-- Where no digit stands first, no digits are cut off. -/
theorem digits_eq_nil {cs : List Char} (h : ∀ d ∈ cs.head?, d.isDigit = false) :
    (Lexeme.digits cs).1 = [] := by
  cases cs with
  | nil => rfl
  | cons d cs =>
    have hd : ¬ d.isDigit = true := Bool.eq_false_iff.mp (h d rfl)
    rw [Lexeme.digits, List.takeWhile_cons_of_neg hd]

/-- No places are cut off behind a whole number that ends there, with or without a power. -/
theorem fraction_eq (h : form.EndsBefore behind) (hplaces : form.places = none) :
    Lexeme.fraction (form.powerText ++ behind) = ([], form.powerText ++ behind) := by
  have hletter {c : Char} (hc : c = 'e' ∨ c = 'E') : c ≠ '.' := by
    rcases hc with rfl | rfl <;> decide
  rw [powerText]
  cases hpower : form.power with
  | some power => exact Lexeme.fraction_of_ne (hletter power.isMark)
  | none =>
    cases h with
    | atEnd => rfl
    | other _ point => exact Lexeme.fraction_of_ne point
    | lonePoint digit =>
      rw [Option.elim_none, List.nil_append, Lexeme.fraction_point, if_pos (digits_eq_nil digit)]
    | secondPoint places => simp [hplaces] at places
    | pointBehindPower power => simp [hpower] at power
    | loneLetter letter => exact Lexeme.fraction_of_ne (hletter letter)
    | secondLetter _ power => simp [hpower] at power

/-- No power of ten is cut off behind a number without one that ends there. -/
theorem exponent_eq (h : form.EndsBefore behind) (hpower : form.power = none) :
    Lexeme.exponent behind = ([], behind) := by
  cases h with
  | atEnd => rfl
  | other _ _ letter => rw [Lexeme.exponent, if_neg letter]
  | loneLetter letter digit => rw [Lexeme.exponent_letter letter, if_pos (digits_eq_nil digit)]
  | secondLetter _ power => simp [hpower] at power
  | _ => rw [Lexeme.exponent, if_neg (by decide)]

/-- A number is cut off where it ends. -/
theorem number_eq (h : form.EndsBefore behind) :
    Lexeme.number (form.text ++ behind) = (form.text, behind) :=
  Lexeme.number_parts form h.head?_isDigit h.fraction_eq h.exponent_eq

/-- A number that ends before what stands behind it is the longest one. -/
theorem longest (h : form.EndsBefore behind) : form.Longest (form.text ++ behind) behind where
  split := rfl
  length_le := by
    rintro other ⟨rest, hrest⟩
    have hlength := Lexeme.length_number_le other rest
    have htexts := congrArg List.length hrest
    rw [hrest, h.number_eq] at hlength
    dsimp only at hlength
    rw [List.length_append, List.length_append] at htexts
    omega

end EndsBefore

/-- The longest number at the front of a text is the one that is cut off. -/
theorem Longest.number_eq (h : form.Longest text behind) :
    Lexeme.number text = (form.text, behind) := by
  rw [h.split]
  exact h.endsBefore.number_eq

end NumberForm

namespace Lexeme

end Lexeme

namespace TokenStream

variable {found : Array Located} {source here : Source}

end TokenStream

end SqlDdl
