import SqlDdl.Proofs.Lexable
import SqlDdl.Proofs.Recasing

/-!
# The longest number

A number is cut as far as it goes. What is cut has the form of a number, and nothing
longer at the front of the text has that form: places and a power of ten are left out
only where they are not complete.
-/

namespace SqlDdl.Lexeme

/-- Digits at the front of a text are all cut off, and perhaps more behind them. -/
theorem length_digits_le {ds rest : List Char} (hd : ∀ d ∈ ds, d.isDigit = true) :
    (digits (ds ++ rest)).2.length ≤ rest.length := by
  have hdrop : (digits (ds ++ rest)).2 = (digits rest).2 := List.dropWhile_append_of_pos hd
  rw [hdrop]
  exact digits_length rest

/-- Where a digit stands, digits are cut off. -/
theorem digits_ne_nil (ds : Digits) (rest : List Char) : (digits (ds.list ++ rest)).1 ≠ [] := by
  have htake : (digits (ds.list ++ rest)).1 = ds.list ++ (digits rest).1 :=
    List.takeWhile_append_of_pos ds.digit
  rw [htake]
  exact List.append_ne_nil_of_left_ne_nil ds.nonempty _

/-- A point with digits is cut off, and perhaps more digits. -/
theorem length_fraction_le (ds : Digits) (rest : List Char) :
    (fraction ('.' :: (ds.list ++ rest))).2.length ≤ rest.length := by
  rw [fraction_point, if_neg (digits_ne_nil ds rest)]
  exact length_digits_le ds.digit

/-- A complete power of ten is cut off, and perhaps more digits. -/
theorem length_exponent_le (power : PowerForm) (rest : List Char) :
    (exponent (power.text ++ rest)).2.length ≤ rest.length := by
  have htext : power.text ++ rest =
      power.mark :: (power.sign ++ (power.digits.list ++ rest)) := by
    rw [PowerForm.text, List.cons_append, List.append_assoc]
  have hsome : (digits (sign (power.sign ++ (power.digits.list ++ rest))).2).1 ≠ [] := by
    rw [sign_sign]
    exact digits_ne_nil power.digits rest
  rw [htext, exponent_letter power.isMark, if_neg hsome, sign_sign]
  exact length_digits_le power.digits.digit

/-- Of a text that begins with a number no more is left than stands behind that number. -/
theorem length_number_le (form : NumberForm) (rest : List Char) :
    (number (form.text ++ rest)).2.length ≤ rest.length := by
  have htext : form.text ++ rest =
      form.whole.list ++ (form.placesText ++ (form.powerText ++ rest)) := by
    rw [NumberForm.text, List.append_assoc, List.append_assoc]
  rw [htext, number]
  cases hpower : form.power with
  | some power =>
    -- The mark of the power ends the digits before it, so these are cut off exactly.
    have hmark : ∀ d ∈ (form.powerText ++ rest).head?, d.isDigit = false ∧ d ≠ '.' := by
      rw [NumberForm.powerText, hpower]
      rintro d ⟨⟩
      rcases power.isMark with he | he <;> rw [he] <;> decide
    have hdigit : ∀ d ∈ (form.powerText ++ rest).head?, d.isDigit = false :=
      fun d hd => (hmark d hd).1
    have hwhole := digits_digits form.whole (head?_places form hdigit)
    have hplaces := fraction_places form hdigit
      fun _ => fraction_eq_nil fun d hd => (hmark d hd).2
    have htail := length_exponent_le power rest
    rw [hwhole]
    dsimp only
    rw [hplaces, NumberForm.powerText, hpower]
    exact htail
  | none =>
    have hexponent := exponent_length
      (fraction (digits (form.whole.list ++ (form.placesText ++ (form.powerText ++ rest)))).2).2
    refine Nat.le_trans hexponent ?_
    rw [NumberForm.powerText, hpower, Option.elim_none, List.nil_append, NumberForm.placesText]
    cases form.places with
    | none =>
      rw [Option.elim_none, List.nil_append]
      exact Nat.le_trans (fraction_length _) (length_digits_le form.whole.digit)
    | some ds =>
      have hpoint : ∀ d ∈ ('.' :: (ds.list ++ rest)).head?, d.isDigit = false := by
        rintro d ⟨⟩
        decide
      rw [Option.elim_some, List.cons_append, digits_digits form.whole hpoint]
      exact length_fraction_le ds rest

/-- The digits at the front of a text are digits. -/
theorem isDigit_of_mem_digits {cs : List Char} : ∀ d ∈ (digits cs).1, d.isDigit = true :=
  List.all_eq_true.mp List.all_takeWhile

/-- What is cut as places is a point with digits behind it, or nothing. -/
theorem fraction_form (cs : List Char) :
    ∃ places : Option Digits, (fraction cs).1 = places.elim [] fun ds => '.' :: ds.list := by
  cases cs with
  | nil => exact ⟨none, rfl⟩
  | cons c cs =>
    by_cases hc : c = '.'
    · rw [hc, fraction_point]
      by_cases hnone : (digits cs).1 = []
      · exact ⟨none, by rw [if_pos hnone]; rfl⟩
      · exact ⟨some ⟨(digits cs).1, hnone, isDigit_of_mem_digits⟩, by rw [if_neg hnone]; rfl⟩
    · exact ⟨none, by rw [fraction_of_ne hc]; rfl⟩

/-- What is cut as a sign is a sign, or nothing. -/
theorem sign_form (cs : List Char) :
    (sign cs).1 = [] ∨ (sign cs).1 = ['+'] ∨ (sign cs).1 = ['-'] := by
  unfold sign
  split <;> simp

/-- What is cut as a power of ten is a complete one, or nothing. -/
theorem exponent_form (cs : List Char) :
    ∃ power : Option PowerForm, (exponent cs).1 = power.elim [] PowerForm.text := by
  cases cs with
  | nil => exact ⟨none, rfl⟩
  | cons c cs =>
    by_cases hc : c = 'e' ∨ c = 'E'
    · rw [exponent_letter hc]
      by_cases hnone : (digits (sign cs).2).1 = []
      · exact ⟨none, by rw [if_pos hnone]; rfl⟩
      · refine ⟨some ⟨c, hc, (sign cs).1, sign_form cs,
          ⟨(digits (sign cs).2).1, hnone, isDigit_of_mem_digits⟩⟩, ?_⟩
        rw [if_neg hnone]
        rfl
    · exact ⟨none, by rw [exponent, if_neg hc]; rfl⟩

/-- What is cut as a number has the form of one, where a digit comes first. -/
theorem number_form {c : Char} (cs : List Char) (hc : c.isDigit = true) :
    ∃ form : NumberForm, (number (c :: cs)).1 = form.text := by
  have hwhole : (digits (c :: cs)).1 ≠ [] := by
    rw [digits, List.takeWhile_cons_of_pos hc]
    exact List.cons_ne_nil _ _
  obtain ⟨places, hplaces⟩ := fraction_form (digits (c :: cs)).2
  obtain ⟨power, hpower⟩ := exponent_form (fraction (digits (c :: cs)).2).2
  refine ⟨⟨⟨(digits (c :: cs)).1, hwhole, isDigit_of_mem_digits⟩, places, power⟩, ?_⟩
  rw [number, hplaces, hpower]
  rfl

end SqlDdl.Lexeme
