import Mathlib.Data.List.Induction
import Mathlib.Data.Nat.Digits.Defs
import SqlDdl.Text.Decimal

/-!
# Texts of decimal numbers

A text that is read as a number below a bound writes that number: it consists of ASCII
digits, at least one of them, perhaps behind a plus sign. The bound is asked for at every
digit. No digits before the last write a greater number than all of them, so what stays below
it at the end was below it all the time.
-/

namespace SqlDdl.Text

/-- The number that digits write, the one of the highest place first. -/
def digitsValue (digits : List Char) : Nat :=
  Nat.ofDigits 10 (digits.reverse.map fun c => c.toNat - '0'.toNat)

/-- One more digit shifts the others by one place. -/
theorem digitsValue_concat (digits : List Char) (c : Char) :
    digitsValue (digits ++ [c]) = 10 * digitsValue digits + (c.toNat - '0'.toNat) := by
  rw [digitsValue, List.reverse_concat, List.map_cons, Nat.ofDigits_cons, Nat.add_comm, digitsValue]

/-- The digits that a number is shown with write it. -/
theorem digitsValue_toDigits (n : Nat) : digitsValue (Nat.toDigits 10 n) = n := by
  have hzero : '0'.toNat = 48 := rfl
  induction n using Nat.strongRecOn with
  | ind n ih =>
    rw [Nat.toDigits_eq_if (by decide)]
    split
    next h =>
      have hchar := Nat.toNat_digitChar_of_lt_ten h
      have hvalue : digitsValue [n.digitChar] = n.digitChar.toNat - '0'.toNat :=
        Nat.ofDigits_singleton
      omega
    next h =>
      have hchar := Nat.toNat_digitChar_of_lt_ten (Nat.mod_lt n (by decide : 0 < 10))
      have hfront := ih (n / 10) (by omega)
      rw [digitsValue_concat, hfront]
      omega

/-- The digits that a number is shown with begin with a zero only where it is zero. -/
theorem head?_toDigits {n : Nat} (h : 0 < n) : (Nat.toDigits 10 n).head? ≠ some '0' := by
  induction n using Nat.strongRecOn with
  | ind n ih =>
    rw [Nat.toDigits_eq_if (by decide)]
    split
    next hsmall =>
      rw [List.head?_cons, ne_eq, Option.some_inj, Nat.digitChar_eq_zero]
      omega
    next hlarge =>
      have hfront := ih (n / 10) (by omega) (by omega)
      cases hdigits : Nat.toDigits 10 (n / 10) with
      | nil => exact absurd hdigits Nat.toDigits_ne_nil
      | cons c cs =>
        rw [hdigits] at hfront
        exact hfront

/-- A text writes a number in ASCII digits, at least one, perhaps behind a plus sign. -/
def WritesDecimal (text : String) (n : Nat) : Prop :=
  ∃ digits : List Char, digits ≠ [] ∧ (∀ c ∈ digits, c.isDigit = true) ∧
    (text.toList = digits ∨ text.toList = '+' :: digits) ∧ digitsValue digits = n

variable {bound n : Nat}

/-- A digit is added to a number if it is one and the result stays below the bound. -/
theorem pushDigit_eq_some_iff {m : Nat} {c : Char} :
    pushDigit bound m c = some n ↔
      c.isDigit = true ∧ 10 * m + (c.toNat - '0'.toNat) = n ∧ n < bound := by
  unfold pushDigit
  cases c.isDigit with
  | false => simp only [Bool.false_eq_true, if_false, reduceCtorEq, false_and]
  | true =>
    simp only [if_true, true_and]
    split
    · rw [Option.some_inj]
      constructor
      · rintro rfl
        exact ⟨rfl, by assumption⟩
      · exact fun h => h.1
    · refine ⟨nofun, ?_⟩
      rintro ⟨rfl, h⟩
      exact absurd h (by assumption)

/-- Characters are read one by one exactly if they are digits and write a number below the bound. -/
theorem foldlM_pushDigit_eq_some_iff (hb : 0 < bound) {digits : List Char} :
    digits.foldlM (pushDigit bound) 0 = some n ↔
      (∀ c ∈ digits, c.isDigit = true) ∧ digitsValue digits = n ∧ n < bound := by
  induction digits using List.reverseRecOn generalizing n with
  | nil =>
    constructor
    · rintro ⟨⟩
      exact ⟨nofun, rfl, hb⟩
    · rintro ⟨-, rfl, -⟩
      rfl
  | append_singleton front last ih =>
    have hlast {m : Nat} : [last].foldlM (pushDigit bound) m = pushDigit bound m last := by
      rw [List.foldlM_cons]
      exact bind_pure _
    rw [List.foldlM_append, Option.bind_eq_bind, Option.bind_eq_some_iff, digitsValue_concat,
      List.forall_mem_append, List.forall_mem_singleton]
    simp only [hlast, ih, pushDigit_eq_some_iff]
    constructor
    · rintro ⟨m, ⟨hfront, rfl, -⟩, hdigit, hvalue, hlt⟩
      exact ⟨⟨hfront, hdigit⟩, hvalue, hlt⟩
    · rintro ⟨⟨hfront, hdigit⟩, hvalue, hlt⟩
      exact ⟨_, ⟨hfront, rfl, by omega⟩, hdigit, hvalue, hlt⟩

/-- A run of characters is read exactly if it consists of digits, at least one of them, that write
a number below the bound. -/
theorem readDigits?_eq_some_iff (hb : 0 < bound) {digits : List Char} :
    readDigits? bound digits = some n ↔
      digits ≠ [] ∧ (∀ c ∈ digits, c.isDigit = true) ∧ digitsValue digits = n ∧ n < bound := by
  cases digits with
  | nil => exact ⟨nofun, fun h => absurd rfl h.1⟩
  | cons c cs =>
    rw [readDigits?, if_neg (by simp), foldlM_pushDigit_eq_some_iff hb]
    exact (and_iff_right (List.cons_ne_nil c cs)).symm

/-- A text is read as a number exactly if it writes that number and the number is below the
bound. -/
theorem readDecimal?_eq_some_iff (hb : 0 < bound) {text : String} :
    readDecimal? bound text = some n ↔ WritesDecimal text n ∧ n < bound := by
  unfold readDecimal? WritesDecimal
  split
  next digits htext =>
    rw [readDigits?_eq_some_iff hb, htext]
    constructor
    · rintro ⟨hne, hdigits, hvalue, hlt⟩
      exact ⟨⟨digits, hne, hdigits, .inr rfl, hvalue⟩, hlt⟩
    · rintro ⟨⟨others, hne, hdigits, hsame | hsame, hvalue⟩, hlt⟩
      · -- A plus sign is no digit.
        subst hsame
        cases hdigits '+' List.mem_cons_self
      · cases hsame
        exact ⟨hne, hdigits, hvalue, hlt⟩
  next hplus =>
    rw [readDigits?_eq_some_iff hb]
    constructor
    · rintro ⟨hne, hdigits, hvalue, hlt⟩
      exact ⟨⟨_, hne, hdigits, .inl rfl, hvalue⟩, hlt⟩
    · rintro ⟨⟨others, hne, hdigits, hsame | hsame, hvalue⟩, hlt⟩
      · subst hsame
        exact ⟨hne, hdigits, hvalue, hlt⟩
      · exact absurd hsame (hplus others)

end SqlDdl.Text
