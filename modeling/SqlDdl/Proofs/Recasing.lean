import SqlDdl.Proofs.LetterCase
import SqlDdl.Proofs.Lexemes

/-!
# Tokens of texts with the same letters

Texts that differ in the case of ASCII letters are cut in the same places. The tokens
that are cut differ only where the differing letters stand in an unquoted word, a quoted
one, a string literal or the exponent of a number; a keyword stays what it is.
-/

namespace SqlDdl

open Text (SameLetter SameLetters)

/-- Whether a token is written without regard to case: a keyword or an unquoted word. -/
def Token.isCaseFree : Token → Bool
  | keyword _ => true
  | word written => !written.quoted
  | _ => false

/-- Two equal tokens, or two unquoted words with the same letters. -/
inductive Token.Recased : Token → Token → Prop where
  | same (token : Token) : Token.Recased token token
  | words {text other : String} (letters : SameLetters text.toList other.toList) :
      Token.Recased (.word ⟨text, false⟩) (.word ⟨other, false⟩)

namespace Text

/-- An opening quote, a text and the closing quote determine the text. -/
theorem enclose_inj {quote : Char} {cs ds : List Char} (h : enclose quote cs = enclose quote ds) :
    cs = ds := by
  have hread : ∀ cs, readBody quote [] (double quote cs ++ [quote]) = some (cs, []) := fun cs =>
    readBody_double cs [] fun c hc => absurd hc (Option.not_mem_none c)
  have htail : double quote cs ++ [quote] = double quote ds ++ [quote] := (List.cons.inj h).2
  have hpair := (hread cs).symm.trans ((congrArg _ htail).trans (hread ds))
  cases hpair
  rfl

/-- Texts with the same letters have them between quotes too. -/
theorem enclose_same {quote : Char} {cs ds : List Char} (hq : quote.isAlpha = false)
    (h : SameLetters cs ds) : SameLetters (enclose quote cs) (enclose quote ds) := by
  have hdouble : SameLetters (double quote cs) (double quote ds) := by
    induction h with
    | nil => exact .nil
    | @cons c d cs ds hcd _ ih =>
      rw [double, double, List.flatMap_cons, List.flatMap_cons]
      refine List.rel_append ?_ ih
      by_cases hc : c = quote
      · rw [if_pos hc, if_pos ((hcd.eq_mark_iff hq).mp hc)]
        exact .cons rfl (.cons rfl .nil)
      · rw [if_neg hc, if_neg (not_congr (hcd.eq_mark_iff hq) |>.mp hc)]
        exact .cons hcd .nil
  have hopened : SameLetters (quote :: double quote cs) (quote :: double quote ds) :=
    .cons (.refl quote) hdouble
  exact List.rel_append hopened (.cons rfl .nil)

/-- Two results of cutting a text in two parts, with the same letters in each part. -/
def SameParts (parts others : List Char × List Char) : Prop :=
  SameLetters parts.1 others.1 ∧ SameLetters parts.2 others.2

/-- Up to a closing quote texts with the same letters have the same letters, and behind it. -/
theorem readBody_same {quote : Char} {found found' cs ds body rest : List Char}
    (hq : quote.isAlpha = false) (hfound : SameLetters found found') (h : SameLetters cs ds)
    (hread : readBody quote found cs = some (body, rest)) :
    ∃ body' rest', readBody quote found' ds = some (body', rest') ∧
      SameParts (body, rest) (body', rest') := by
  fun_induction readBody quote found cs generalizing found' ds with
  | case1 => cases hread
  | case2 found =>
    cases hread
    obtain ⟨_, rfl, hrest⟩ := h.of_mark hq
    cases hrest
    exact ⟨_, _, if_pos rfl, hfound.reverse, .nil⟩
  | case3 => cases hread
  | case4 found rest ih =>
    obtain ⟨_, rfl, hrest⟩ := h.of_mark hq
    obtain ⟨_, rfl, hbehind⟩ := hrest.of_mark hq
    rw [readBody, if_pos rfl, if_pos rfl]
    exact ih (.cons rfl hfound) hbehind hread
  | case5 found d rest hd =>
    cases hread
    obtain ⟨_, rfl, hrest⟩ := h.of_mark hq
    cases hrest with
    | cons hcd hrest =>
      have hd' := (not_congr (hcd.eq_mark_iff hq)).mp hd
      rw [readBody, if_pos rfl, if_neg hd']
      exact ⟨_, _, rfl, hfound.reverse, .cons hcd hrest⟩
  | case6 found c d rest hc ih =>
    cases h with
    | cons hcd hrest =>
      cases hrest with
      | cons hcd' hrest =>
        have hc' := (not_congr (hcd.eq_mark_iff hq)).mp hc
        rw [readBody, if_neg hc']
        exact ih (.cons hcd hfound) (.cons hcd' hrest) hread

end Text

namespace Lexeme

open Text (SameParts)

variable {c d : Char} {cs ds rest rest' : List Char}

/-- Digits are cut off in the same place. -/
theorem digits_same (h : SameLetters cs ds) : SameParts (digits cs) (digits ds) :=
  h.span SameLetter.isDigit_eq

/-- No sign is cut off where there is none. -/
theorem sign_of_ne (hplus : c ≠ '+') (hminus : c ≠ '-') : sign (c :: cs) = ([], c :: cs) := by
  unfold sign
  split
  next he => exact absurd (List.cons.inj he).1 hplus
  next he => exact absurd (List.cons.inj he).1 hminus
  next => rfl

/-- A sign is cut off in the same place. -/
theorem sign_same (h : SameLetters cs ds) : SameParts (sign cs) (sign ds) := by
  cases h with
  | nil => exact ⟨.nil, .nil⟩
  | @cons c d cs ds hcd hrest =>
    by_cases hplus : c = '+'
    · obtain rfl := (hcd.eq_mark_iff rfl).mp hplus
      rw [hplus]
      exact ⟨.cons rfl .nil, hrest⟩
    by_cases hminus : c = '-'
    · obtain rfl := (hcd.eq_mark_iff rfl).mp hminus
      rw [hminus]
      exact ⟨.cons rfl .nil, hrest⟩
    have hplus' := (not_congr (hcd.eq_mark_iff rfl)).mp hplus
    have hminus' := (not_congr (hcd.eq_mark_iff rfl)).mp hminus
    rw [sign_of_ne hplus hminus, sign_of_ne hplus' hminus']
    exact ⟨.nil, .cons hcd hrest⟩

/-- A point is cut off with the digits behind it, if there is one. -/
theorem fraction_point (cs : List Char) :
    fraction ('.' :: cs) = if (digits cs).1 = [] then ([], '.' :: cs)
      else ('.' :: (digits cs).1, (digits cs).2) := by
  rcases hd : digits cs with ⟨_ | ⟨place, places⟩, behind⟩
  · rw [fraction, hd]
    exact (if_pos rfl).symm
  · rw [fraction, hd]
    exact (if_neg (List.cons_ne_nil _ _)).symm

/-- Places are cut off in the same place. -/
theorem fraction_same (h : SameLetters cs ds) : SameParts (fraction cs) (fraction ds) := by
  cases h with
  | nil => exact ⟨.nil, .nil⟩
  | @cons c d cs ds hcd hrest =>
    by_cases hc : c = '.'
    · obtain rfl := (hcd.eq_mark_iff rfl).mp hc
      rw [hc, fraction_point, fraction_point]
      obtain ⟨hplaces, hbehind⟩ := digits_same hrest
      have hiff := SameLetters.eq_nil_iff hplaces
      by_cases hnone : (digits cs).1 = []
      · rw [if_pos hnone, if_pos (hiff.mp hnone)]
        exact ⟨.nil, .cons rfl hrest⟩
      · rw [if_neg hnone, if_neg (not_congr hiff |>.mp hnone)]
        exact ⟨.cons rfl hplaces, hbehind⟩
    · have hd := (not_congr (hcd.eq_mark_iff rfl)).mp hc
      rw [fraction_of_ne hc, fraction_of_ne hd]
      exact ⟨.nil, .cons hcd hrest⟩

/-- The letter E is cut off with the digits behind it and the sign before them, if there is a
digit. -/
theorem exponent_letter (hc : c = 'e' ∨ c = 'E') (cs : List Char) :
    exponent (c :: cs) = if (digits (sign cs).2).1 = [] then ([], c :: cs)
      else (c :: (sign cs).1 ++ (digits (sign cs).2).1, (digits (sign cs).2).2) := by
  rcases hd : digits (sign cs).2 with ⟨_ | ⟨digit, power⟩, behind⟩
  · rw [exponent, if_pos hc, hd]
    exact (if_pos rfl).symm
  · rw [exponent, if_pos hc, hd]
    exact (if_neg (List.cons_ne_nil _ _)).symm

/-- An exponent is cut off in the same place. -/
theorem exponent_same (h : SameLetters cs ds) : SameParts (exponent cs) (exponent ds) := by
  cases h with
  | nil => exact ⟨.nil, .nil⟩
  | @cons c d cs ds hcd hrest =>
    have hletter : (c = 'e' ∨ c = 'E') = (d = 'e' ∨ d = 'E') :=
      hcd.congr (f := fun c => c = 'e' ∨ c = 'E') (by decide +kernel)
    by_cases hc : c = 'e' ∨ c = 'E'
    · rw [exponent_letter hc, exponent_letter (hletter ▸ hc)]
      obtain ⟨hsign, hunsigned⟩ := sign_same hrest
      obtain ⟨hpower, hbehind⟩ := digits_same hunsigned
      have hiff := SameLetters.eq_nil_iff hpower
      by_cases hnone : (digits (sign cs).2).1 = []
      · rw [if_pos hnone, if_pos (hiff.mp hnone)]
        exact ⟨.nil, .cons hcd hrest⟩
      · rw [if_neg hnone, if_neg (not_congr hiff |>.mp hnone)]
        exact ⟨List.rel_append (.cons hcd hsign) hpower, hbehind⟩
    · have hd : ¬ (d = 'e' ∨ d = 'E') := hletter ▸ hc
      rw [exponent, if_neg hc, exponent, if_neg hd]
      exact ⟨.nil, .cons hcd hrest⟩

/-- A number is cut off in the same place. -/
theorem number_same (h : SameLetters cs ds) : SameParts (number cs) (number ds) := by
  have hwhole := digits_same h
  have hplaces := fraction_same hwhole.2
  have hpower := exponent_same hplaces.2
  exact ⟨List.rel_append (List.rel_append hwhole.1 hplaces.1) hpower.1, hpower.2⟩

/-- Two lexemes of texts with the same letters. The tokens are equal if the characters of the
lexemes are, and in any case if they are keywords or unquoted words, but for the case of the
words. -/
structure Alike (lexeme other : Lexeme) : Prop where
  /-- Both were written with the same letters. -/
  text : SameLetters lexeme.text other.text
  /-- The same letters stand behind both. -/
  rest : SameLetters lexeme.rest other.rest
  /-- Keywords and unquoted words are equal but for case. -/
  free : lexeme.token.isCaseFree = true → lexeme.token.Recased other.token
  /-- Equal characters make equal tokens. -/
  fixed : lexeme.text = other.text → lexeme.token = other.token

/-- Words with the same letters are the same keyword, or unquoted words with these letters. -/
theorem wordToken_recased (h : SameLetters cs ds) :
    (wordToken (String.ofList cs)).Recased (wordToken (String.ofList ds)) := by
  have hletters : SameLetters (String.ofList cs).toList (String.ofList ds).toList := by
    rwa [String.toList_ofList, String.toList_ofList]
  have hkeyword : Keyword.ofWord? (String.ofList cs) = Keyword.ofWord? (String.ofList ds) := by
    rw [Keyword.ofWord?, Keyword.ofWord?, Text.toUpperASCII_eq hletters]
  rw [wordToken, wordToken, hkeyword]
  cases Keyword.ofWord? (String.ofList ds) with
  | none => exact .words hletters
  | some reserved => exact .same _

/-- A text between quotes is cut off in the same place. -/
theorem enclosed_alike {quote : Char} {enclosure : Enclosure} {token : String → Token}
    {lexeme : Lexeme} (hq : quote.isAlpha = false) (hfree : ∀ text, (token text).isCaseFree = false)
    (h : SameLetters cs ds) (hcut : enclosed quote enclosure token cs = .ok lexeme) :
    ∃ other, enclosed quote enclosure token ds = .ok other ∧ lexeme.Alike other := by
  unfold enclosed at hcut
  split at hcut
  next body behind hread =>
    cases hcut
    obtain ⟨body', behind', hread', hbody, hbehind⟩ := Text.readBody_same hq .nil h hread
    refine ⟨_, by rw [enclosed, hread'], Text.enclose_same hq hbody, hbehind, fun hf => ?_,
      fun ht => ?_⟩
    · rw [hfree] at hf
      cases hf
    · exact congrArg (token <| String.ofList ·) (Text.enclose_inj ht)
  next => cases hcut

/-- A character that does not end a longer sign is not looked at for a sign. -/
theorem ofSymbol?_next {e : Char} (hequal : e ≠ '=') (hgreater : e ≠ '>') :
    Token.ofSymbol? c (some e) = Token.ofSymbol? c none := by
  unfold Token.ofSymbol?
  split
  case h_1 | h_3 | h_4 => exact absurd (Option.some.inj ‹_›) hequal
  case h_2 => exact absurd (Option.some.inj ‹_›) hgreater
  case h_14 =>
    split
    all_goals first
      | rfl
      | contradiction
  all_goals rfl

/-- Letters begin no sign. -/
theorem ofSymbol?_letter {next : Option Char} (hc : c.isAlpha = true) :
    Token.ofSymbol? c next = none := by
  unfold Token.ofSymbol?
  split
  case h_14 => rfl
  all_goals cases hc

/-- Texts with the same letters begin with the same sign. -/
theorem ofSymbol?_eq (hcd : SameLetter c d) (h : SameLetters cs ds) :
    Token.ofSymbol? c cs.head? = Token.ofSymbol? d ds.head? := by
  cases hc : c.isAlpha with
  | true =>
    have hd : d.isAlpha = true := (hcd.congr (f := Char.isAlpha) (by decide +kernel)).symm.trans hc
    rw [ofSymbol?_letter hc, ofSymbol?_letter hd]
  | false =>
    obtain rfl := hcd.eq_of_mark hc
    cases h with
    | nil => rfl
    | @cons e e' cs ds he h =>
      rw [List.head?_cons, List.head?_cons]
      by_cases hequal : e = '='
      · rw [hequal, (he.eq_mark_iff rfl).mp hequal]
      by_cases hgreater : e = '>'
      · rw [hgreater, (he.eq_mark_iff rfl).mp hgreater]
      have hequal' := not_congr (he.eq_mark_iff rfl) |>.mp hequal
      have hgreater' := not_congr (he.eq_mark_iff rfl) |>.mp hgreater
      rw [ofSymbol?_next hequal hgreater, ofSymbol?_next hequal' hgreater']

/-- The first lexeme of a text is the first one of a text with the same letters, but for the case of
letters. -/
theorem ofChars_alike {lexeme : Lexeme} (hcd : SameLetter c d) (hrest : SameLetters cs ds)
    (hcut : ofChars c cs = .ok lexeme) :
    ∃ other, ofChars d ds = .ok other ∧ lexeme.Alike other := by
  have hall : SameLetters (c :: cs) (d :: ds) := .cons hcd hrest
  unfold ofChars at hcut ⊢
  by_cases hstring : c = '\x27'
  · rw [if_pos hstring] at hcut
    obtain rfl : d = '\x27' := (hcd.eq_mark_iff rfl).mp hstring
    rw [if_pos rfl]
    rw [hstring] at hcut
    exact enclosed_alike rfl (fun _ => rfl) hrest hcut
  have hstring' := not_congr (hcd.eq_mark_iff rfl) |>.mp hstring
  rw [if_neg hstring] at hcut
  rw [if_neg hstring']
  by_cases hquoted : c = '\x22'
  · rw [if_pos hquoted] at hcut
    obtain rfl : d = '\x22' := (hcd.eq_mark_iff rfl).mp hquoted
    rw [if_pos rfl]
    rw [hquoted] at hcut
    exact enclosed_alike rfl (fun _ => rfl) hrest hcut
  have hquoted' := not_congr (hcd.eq_mark_iff rfl) |>.mp hquoted
  rw [if_neg hquoted] at hcut
  rw [if_neg hquoted', ← hcd.isDigit_eq, ← hcd.isWordStart_eq]
  by_cases hdigit : c.isDigit = true
  · rw [if_pos hdigit] at hcut ⊢
    cases hcut
    have hnumber := number_same hall
    refine ⟨_, rfl, hnumber.1, hnumber.2, nofun, fun ht => ?_⟩
    exact congrArg (Token.number <| String.ofList ·) ht
  rw [if_neg hdigit] at hcut ⊢
  by_cases hword : isWordStart c = true
  · rw [if_pos hword] at hcut ⊢
    obtain ⟨hbody, hbehind⟩ := hrest.span SameLetter.isWordPart_eq
    have htext : SameLetters (c :: cs.takeWhile isWordPart) (d :: ds.takeWhile isWordPart) :=
      .cons hcd hbody
    have hrecased := wordToken_recased htext
    have hfixed : c :: cs.takeWhile isWordPart = d :: ds.takeWhile isWordPart →
        wordToken (String.ofList (c :: cs.takeWhile isWordPart)) =
          wordToken (String.ofList (d :: ds.takeWhile isWordPart)) := fun ht => by rw [ht]
    dsimp only at hcut ⊢
    generalize wordToken (String.ofList (c :: cs.takeWhile isWordPart)) = token at *
    generalize wordToken (String.ofList (d :: ds.takeWhile isWordPart)) = token' at *
    cases hcut
    exact ⟨_, rfl, htext, hbehind, fun _ => hrecased, hfixed⟩
  rw [if_neg hword] at hcut ⊢
  rw [← ofSymbol?_eq hcd hrest]
  split at hcut
  next token length hs =>
    cases hcut
    refine ⟨_, rfl, .cons hcd (List.forall₂_take _ hrest), List.forall₂_drop _ hrest,
      fun _ => .same token, fun _ => rfl⟩
  next => cases hcut

end Lexeme

/-- A line ends at the same characters. -/
theorem Position.after_eq {c d : Char} (h : SameLetter c d) (p : Position) :
    p.after c = p.after d := by
  have hline : (c = '\n') = (d = '\n') := propext (h.eq_mark_iff rfl)
  rw [after, after, if_congr hline.to_iff rfl rfl]

/-- Behind texts with the same letters is the same place. -/
theorem Position.afterAll_eq {cs ds : List Char} (h : SameLetters cs ds) (p : Position) :
    p.afterAll cs = p.afterAll ds := by
  induction h generalizing p with
  | nil => rfl
  | @cons c d cs ds hcd _ ih =>
    change (p.after c).afterAll cs = (p.after d).afterAll ds
    rw [← p.after_eq hcd, ih]

namespace Source

/-- Two sources at one place with the same letters before them. -/
structure Same (source other : Source) : Prop where
  /-- The same letters are still to be read. -/
  rest : SameLetters source.rest other.rest
  /-- They start at the same place. -/
  position : source.position = other.position

variable {cs ds : List Char} {p : Position} {here behind : Source}

/-- A line comment is skipped up to the same place. -/
theorem skipLine_same (h : SameLetters cs ds) (p : Position) :
    (skipLine cs p).Same (skipLine ds p) := by
  induction h generalizing p with
  | nil => exact ⟨.nil, rfl⟩
  | @cons c d cs ds hcd h ih =>
    rw [skipLine, skipLine, ← p.after_eq hcd]
    have hiff : c = '\n' ↔ d = '\n' := hcd.eq_mark_iff rfl
    by_cases hc : c = '\n'
    · rw [if_pos hc, if_pos (hiff.mp hc)]
      exact ⟨.cons hcd h, rfl⟩
    · rw [if_neg hc, if_neg (not_congr hiff |>.mp hc)]
      exact ih _

/-- A block comment is skipped up to the same place. -/
theorem skipBlock?_same (h : SameLetters cs ds) (hskip : skipBlock? cs p = some behind) :
    ∃ beside, skipBlock? ds p = some beside ∧ behind.Same beside := by
  fun_induction skipBlock? cs p generalizing ds with
  | case1 => cases hskip
  | case2 p rest =>
    cases hskip
    obtain ⟨_, rfl, hrest⟩ := h.of_mark rfl
    obtain ⟨_, rfl, hbehind⟩ := hrest.of_mark rfl
    exact ⟨_, rfl, hbehind, rfl⟩
  | case3 rest p hslash ih =>
    obtain ⟨_, rfl, hrest⟩ := h.of_mark rfl
    rw [skipBlock?_cons]
    · exact ih hrest hskip
    · intro hend
      obtain ⟨-, behind, rfl⟩ := List.cons_prefix_cons.mp hend
      -- A slash here would be one in the first text, where the comment goes on.
      obtain ⟨_, rfl, -⟩ := hrest.symm.of_mark rfl
      exact hslash _ rfl
  | case4 c rest p hc ih =>
    cases h with
    | @cons _ d _ ds hcd h =>
      have hd := not_congr (hcd.eq_mark_iff rfl) |>.mp hc
      rw [skipBlock?_cons, ← p.after_eq hcd]
      · exact ih h hskip
      · exact fun hend => hd (List.cons_prefix_cons.mp hend).1.symm

/-- Layout is skipped up to the same place. -/
theorem skipLayoutFrom_same (h : SameLetters cs ds) (hskip : skipLayoutFrom cs p = .ok here) :
    ∃ there, skipLayoutFrom ds p = .ok there ∧ here.Same there := by
  fun_induction skipLayoutFrom cs p generalizing ds with
  | case1 =>
    cases hskip
    cases h
    exact ⟨_, by rw [skipLayoutFrom], .nil, rfl⟩
  | case2 rest p behind =>
    rename_i ih
    obtain ⟨_, rfl, hrest⟩ := h.of_mark rfl
    obtain ⟨_, rfl, hbehind⟩ := hrest.of_mark rfl
    rw [skipLayoutFrom]
    have hline := skipLine_same hbehind ((p.after '-').after '-')
    rw [← hline.position]
    exact ih hline.rest hskip
  | case3 rest p behind hb ih =>
    obtain ⟨_, rfl, hrest⟩ := h.of_mark rfl
    obtain ⟨_, rfl, hbehind⟩ := hrest.of_mark rfl
    obtain ⟨beside, hbeside, hblock⟩ := skipBlock?_same hbehind hb
    rw [skipLayoutFrom_block hbeside, ← hblock.position]
    exact ih hblock.rest hskip
  | case4 => cases hskip
  | case5 c rest p _ _ hblank ih =>
    cases h with
    | cons hcd h =>
      rw [skipLayoutFrom_blank (hcd.isBlank_eq ▸ hblank), ← p.after_eq hcd]
      exact ih h hskip
  | case6 c rest p hline hblock hblank =>
    cases hskip
    cases h with
    | @cons _ d _ ds hcd h =>
      refine ⟨_, skipLayoutFrom_stop ?_, .cons hcd h, rfl⟩
      -- Layout that begins here would begin with the same marks in the first text.
      unfold beginsLayout
      split
      next => rfl
      next he =>
        cases he
        obtain rfl := (hcd.eq_mark_iff rfl).mpr rfl
        obtain ⟨_, rfl, -⟩ := (SameLetters.symm h).of_mark rfl
        exact (hline _ rfl rfl).elim
      next he =>
        cases he
        obtain rfl := (hcd.eq_mark_iff rfl).mpr rfl
        obtain ⟨_, rfl, -⟩ := (SameLetters.symm h).of_mark rfl
        exact (hblock _ rfl rfl).elim
      next he =>
        cases he
        exact hcd.isBlank_eq ▸ Bool.eq_false_iff.mpr hblank

end Source

end SqlDdl
