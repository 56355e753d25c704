import Mathlib.Data.List.Forall2
import SqlDdl.Grammar.DataType
import SqlDdl.Proofs.Lexable

/-!
# The case of letters

Two characters are the same letter if they are equal but for the case of an ASCII letter,
and two texts have the same letters if their characters are so one by one. The classes of
characters by which a text is cut into tokens do not tell such characters apart. Keywords,
type names and folded identifiers are compared by three different mappings of case, and
each of them takes texts with the same letters to the same text.
-/

namespace SqlDdl.Text

/-- Two characters that are equal but for the case of an ASCII letter. -/
def SameLetter (c d : Char) : Prop := c.toUpper = d.toUpper

instance (c d : Char) : Decidable (SameLetter c d) :=
  inferInstanceAs (Decidable (c.toUpper = d.toUpper))

/-- Two texts of the same length whose characters are equal one by one but for the case of ASCII
letters. -/
abbrev SameLetters : List Char → List Char → Prop := List.Forall₂ SameLetter

variable {c d : Char} {cs ds : List Char}

/-- A character outside ASCII is its own capital. -/
theorem toUpper_of_le (h : 128 ≤ c.toNat) : c.toUpper = c := by
  have hnot : ¬ ('a'.val ≤ c.val ∧ c.val ≤ 'z'.val) := by
    rintro ⟨-, hle⟩
    have hle : c.toNat ≤ 122 := hle
    omega
  exact dif_neg hnot

/-- What holds of ASCII characters and of all characters that are their own capitals holds of all
characters. -/
theorem ascii_cases {p : Char → Prop} (h : ∀ n ∈ List.range 128, p (Char.ofNat n))
    (hother : ∀ c, c.toUpper = c → p c) (c : Char) : p c := by
  rcases Nat.lt_or_ge c.toNat 128 with hlt | hle
  · exact Lexeme.of_toNat_mem (List.mem_range.mpr hlt) h
  · exact hother c (toUpper_of_le hle)

namespace SameLetter

/-- A character is the same letter as itself. -/
theorem refl (c : Char) : SameLetter c c := rfl

/-- What an ASCII letter has in common with its capital is the same for the same letters. -/
theorem congr {α : Type} {f : Char → α}
    (hf : ∀ n ∈ List.range 128, f (Char.ofNat n).toUpper = f (Char.ofNat n))
    (h : SameLetter c d) : f c = f d := by
  have hcapital : ∀ c, f c.toUpper = f c :=
    ascii_cases (p := fun c => f c.toUpper = f c) hf fun _ h => congrArg f h
  rw [← hcapital c, ← hcapital d, h]

end SameLetter

/-- All that is asked of a character where a text is cut into tokens and where cases are mapped. -/
structure Traits where
  /-- Whether a word may begin with the character. -/
  wordStart : Bool
  /-- Whether a word may go on with it. -/
  wordPart : Bool
  /-- Whether it is an ASCII letter. -/
  letter : Bool
  /-- Whether it is an ASCII digit. -/
  digit : Bool
  /-- Whether it is white space. -/
  blank : Bool
  /-- Whether it has a case. -/
  cased : Bool
  /-- Whether it is passed over where a character with a case is looked for. -/
  caseIgnorable : Bool
  /-- What it is in upper case. -/
  upperForm : List Char
  /-- What it is in lower case. -/
  lowerForm : List Char
  deriving DecidableEq

/-- The traits of a character. -/
def Traits.of (c : Char) : Traits where
  wordStart := Lexeme.isWordStart c
  wordPart := Lexeme.isWordPart c
  letter := c.isAlpha
  digit := c.isDigit
  blank := isBlank c
  cased := isCased c
  caseIgnorable := isCaseIgnorable c
  upperForm := Text.upperForm c
  lowerForm := Text.lowerForm c

namespace SameLetter

/-- The same letters have the same traits. -/
theorem traits_eq (h : SameLetter c d) : Traits.of c = Traits.of d := h.congr (by decide +kernel)

/-- A character that is no letter is the same letter as itself only. -/
theorem eq_of_mark (h : SameLetter c d) (hc : c.isAlpha = false) : c = d := by
  have hmark : ∀ c : Char, c.isAlpha = false → c.toUpper = c :=
    ascii_cases (p := fun c => c.isAlpha = false → c.toUpper = c) (by decide +kernel) fun _ h _ => h
  have hd : d.isAlpha = false := (congrArg Traits.letter h.traits_eq).symm.trans hc
  rw [← hmark c hc, ← hmark d hd, h]

/-- Whether a character is one that is no letter is the same for the same letters. -/
theorem eq_mark_iff (h : SameLetter c d) {mark : Char} (hm : mark.isAlpha = false) :
    c = mark ↔ d = mark := by
  constructor
  · rintro rfl
    exact (h.eq_of_mark hm).symm
  · rintro rfl
    exact (SameLetter.eq_of_mark (c := d) h.symm hm).symm

/-- The same letters begin words together. -/
theorem isWordStart_eq (h : SameLetter c d) : Lexeme.isWordStart c = Lexeme.isWordStart d := by
  simpa only [Traits.of] using congrArg Traits.wordStart h.traits_eq

/-- The same letters continue words together. -/
theorem isWordPart_eq (h : SameLetter c d) : Lexeme.isWordPart c = Lexeme.isWordPart d := by
  simpa only [Traits.of] using congrArg Traits.wordPart h.traits_eq

/-- The same letters are digits together. -/
theorem isDigit_eq (h : SameLetter c d) : c.isDigit = d.isDigit := by
  simpa only [Traits.of] using congrArg Traits.digit h.traits_eq

/-- The same letters are blank together. -/
theorem isBlank_eq (h : SameLetter c d) : isBlank c = isBlank d := by
  simpa only [Traits.of] using congrArg Traits.blank h.traits_eq

/-- The same letters have a case together. -/
theorem isCased_eq (h : SameLetter c d) : isCased c = isCased d := by
  simpa only [Traits.of] using congrArg Traits.cased h.traits_eq

/-- The same letters are passed over together when case is looked for. -/
theorem isCaseIgnorable_eq (h : SameLetter c d) : isCaseIgnorable c = isCaseIgnorable d := by
  simpa only [Traits.of] using congrArg Traits.caseIgnorable h.traits_eq

/-- The same letters have the same upper-case form. -/
theorem upperForm_eq (h : SameLetter c d) : upperForm c = upperForm d := by
  simpa only [Traits.of] using congrArg Traits.upperForm h.traits_eq

/-- The same letters have the same lower-case form. -/
theorem lowerForm_eq (h : SameLetter c d) : lowerForm c = lowerForm d := by
  simpa only [Traits.of] using congrArg Traits.lowerForm h.traits_eq

end SameLetter

namespace SameLetters

/-- Texts with the same letters are empty together. -/
theorem eq_nil_iff (h : SameLetters cs ds) : cs = [] ↔ ds = [] := by
  cases h with
  | nil => exact Iff.rfl
  | cons => exact iff_of_false (List.cons_ne_nil _ _) (List.cons_ne_nil _ _)

/-- Texts with the same letters are as long in front of the first character outside a class and
behind it, and have the same letters there. -/
theorem span {p : Char → Bool} (hp : ∀ {c d}, SameLetter c d → p c = p d)
    (h : SameLetters cs ds) :
    SameLetters (cs.takeWhile p) (ds.takeWhile p) ∧
      SameLetters (cs.dropWhile p) (ds.dropWhile p) := by
  induction h with
  | nil => exact ⟨.nil, .nil⟩
  | @cons c d cs ds hcd h ih =>
    cases hc : p c with
    | true =>
      have hd : p d = true := (hp hcd).symm.trans hc
      rw [List.takeWhile_cons_of_pos hc, List.takeWhile_cons_of_pos hd,
        List.dropWhile_cons_of_pos hc, List.dropWhile_cons_of_pos hd]
      exact ⟨.cons hcd ih.1, ih.2⟩
    | false =>
      have hc : ¬ p c = true := Bool.eq_false_iff.mp hc
      have hd : ¬ p d = true := (hp hcd) ▸ hc
      rw [List.takeWhile_cons_of_neg hc, List.takeWhile_cons_of_neg hd,
        List.dropWhile_cons_of_neg hc, List.dropWhile_cons_of_neg hd]
      exact ⟨.nil, .cons hcd h⟩

/-- The relation goes both ways. -/
theorem symm (h : SameLetters cs ds) : SameLetters ds cs :=
  (h.imp fun _ _ => Eq.symm).flip

/-- A text with the letters of one that begins with a mark begins with this mark. -/
theorem of_mark {mark : Char} (h : SameLetters (mark :: cs) ds) (hm : mark.isAlpha = false) :
    ∃ others, ds = mark :: others ∧ SameLetters cs others := by
  cases h with
  | @cons _ d _ others hcd h =>
    obtain rfl : d = mark := (hcd.eq_mark_iff hm).mp rfl
    exact ⟨others, rfl, h⟩

/-- The last characters come first, still with the same letters. -/
theorem reverse (h : SameLetters cs ds) : SameLetters cs.reverse ds.reverse :=
  List.forall₂_reverse_iff.mpr h

/-- A cased character is met first in both of two texts with the same letters, or in neither. -/
theorem meetsCased_eq (h : SameLetters cs ds) : meetsCased cs = meetsCased ds := by
  have hdrop := (h.span SameLetter.isCaseIgnorable_eq).2
  unfold meetsCased
  generalize cs.dropWhile isCaseIgnorable = front at hdrop
  generalize ds.dropWhile isCaseIgnorable = beside at hdrop
  cases hdrop with
  | nil => rfl
  | cons hcd _ => exact hcd.isCased_eq

/-- Between the same letters the same letters have the same lower-case form. -/
theorem lowerBetween_eq {before before' after after' : List Char}
    (hbefore : SameLetters before before') (h : SameLetter c d)
    (hafter : SameLetters after after') :
    lowerBetween before c after = lowerBetween before' d after' := by
  have hsigma : (c == '\u03A3') = (d == '\u03A3') :=
    h.congr (f := (· == '\u03A3')) (by decide +kernel)
  rw [lowerBetween, lowerBetween, hsigma, hbefore.meetsCased_eq, hafter.meetsCased_eq,
    h.lowerForm_eq]

/-- Behind the same letters, texts with the same letters have the same lower-case form. -/
theorem lowerAfter_eq {before before' : List Char} (found : List Char)
    (hbefore : SameLetters before before') (h : SameLetters cs ds) :
    lowerAfter found before cs = lowerAfter found before' ds := by
  induction h generalizing found before before' with
  | nil => rfl
  | cons hcd h ih =>
    rw [lowerAfter, lowerAfter, hbefore.lowerBetween_eq hcd h]
    exact ih _ (.cons hcd hbefore)

/-- Texts with the same letters have the same upper-case form. -/
theorem flatMap_upperForm_eq (h : SameLetters cs ds) :
    cs.flatMap upperForm = ds.flatMap upperForm := by
  induction h with
  | nil => rfl
  | cons hcd _ ih => rw [List.flatMap_cons, List.flatMap_cons, hcd.upperForm_eq, ih]

/-- Texts with the same letters have the same capitals. -/
theorem map_toUpper_eq (h : SameLetters cs ds) : cs.map Char.toUpper = ds.map Char.toUpper := by
  induction h with
  | nil => rfl
  | cons hcd _ ih => rw [List.map_cons, List.map_cons, hcd, ih]

end SameLetters

variable {text other : String}

/-- Folded texts do not tell the case of ASCII letters. -/
theorem toLowerCase_eq (h : SameLetters text.toList other.toList) :
    toLowerCase text = toLowerCase other := by
  rw [toLowerCase, toLowerCase, SameLetters.lowerAfter_eq [] .nil h]

/-- Names of types do not tell the case of ASCII letters. -/
theorem toUpperCase_eq (h : SameLetters text.toList other.toList) :
    toUpperCase text = toUpperCase other := by
  rw [toUpperCase, toUpperCase, h.flatMap_upperForm_eq]

/-- Keywords do not tell the case of ASCII letters. -/
theorem toUpperASCII_eq (h : SameLetters text.toList other.toList) :
    toUpperASCII text = toUpperASCII other := by
  rw [toUpperASCII, toUpperASCII, h.map_toUpper_eq]

end SqlDdl.Text
