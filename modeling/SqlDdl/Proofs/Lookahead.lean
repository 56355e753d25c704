import SqlDdl.Proofs.LongestMatch

/-!
# What is seen behind a lexeme

Where a lexeme ends is decided by what stands behind it on the same line. A token that was
cut from a text is cut in the same way if less of that line is left behind it: if the text
breaks off behind the token, or if a line feed is put there. A lexeme reaches over a line
feed only between quotes, and there it ends at its quote and nowhere else.
-/

namespace SqlDdl

/-- Whether the first line of a text stands at the front of another text. -/
def FirstLineIn (cs ds : List Char) : Prop := cs.takeWhile (· ≠ '\n') <+: ds

namespace FirstLineIn

variable {cs ds run : List Char} {c : Char}

/-- A text at the front of another one stands there with its first line. -/
theorem of_front (h : cs <+: ds) : FirstLineIn cs ds := (List.takeWhile_prefix _).trans h

/-- The first line of a text is not longer with a line feed behind the text. -/
theorem lineFeed (cs rest : List Char) : FirstLineIn (cs ++ '\n' :: rest) cs := by
  induction cs with
  | nil => exact List.nil_prefix
  | cons c cs ih =>
    by_cases hc : c = '\n'
    · have hstop : (c :: cs ++ '\n' :: rest).takeWhile (· ≠ '\n') = [] := by simp [hc]
      rw [FirstLineIn, hstop]
      exact List.nil_prefix
    · have hgo : (c :: cs ++ '\n' :: rest).takeWhile (· ≠ '\n') =
          c :: (cs ++ '\n' :: rest).takeWhile (· ≠ '\n') := by simp [hc]
      rw [FirstLineIn, hgo]
      exact List.cons_prefix_cons.mpr ⟨rfl, ih⟩

/-- A character before both texts changes nothing. -/
theorem cons (c : Char) (h : FirstLineIn cs ds) : FirstLineIn (c :: cs) (c :: ds) := by
  by_cases hc : c = '\n'
  · have hstop : (c :: cs).takeWhile (· ≠ '\n') = [] := by simp [hc]
    rw [FirstLineIn, hstop]
    exact List.nil_prefix
  · have hgo : (c :: cs).takeWhile (· ≠ '\n') = c :: cs.takeWhile (· ≠ '\n') := by simp [hc]
    rw [FirstLineIn, hgo]
    exact List.cons_prefix_cons.mpr ⟨rfl, h⟩

/-- What begins the one text without a line feed begins the other one. -/
theorem run_begins (h : FirstLineIn cs ds) (hn : '\n' ∉ run) (hr : run <+: cs) : run <+: ds := by
  obtain ⟨rest, rfl⟩ := hr
  have hrun : ∀ d ∈ run, decide (d ≠ '\n') = true := by
    intro d hd
    exact decide_eq_true fun he => hn (he ▸ hd)
  rw [FirstLineIn, List.takeWhile_append_of_pos hrun] at h
  exact (List.prefix_append run _).trans h

/-- A first character other than a line feed is the first one of the other text. -/
theorem head?_eq (h : FirstLineIn cs ds) (hm : cs.head? = some c) (hc : c ≠ '\n') :
    ds.head? = some c := by
  have hfront : [c] <+: cs := by
    obtain ⟨rest, rfl⟩ := List.head?_eq_some_iff.mp hm
    exact List.prefix_append [c] rest
  have hn : '\n' ∉ [c] := by simpa using Ne.symm hc
  obtain ⟨rest, rfl⟩ := h.run_begins hn hfront
  rfl

end FirstLineIn

/-- Behind the closing quote of a text no other quote stands. -/
theorem Text.head?_ne_of_readBody {quote : Char} {found cs body rest : List Char}
    (h : readBody quote found cs = some (body, rest)) : ∀ c ∈ rest.head?, c ≠ quote := by
  fun_induction readBody quote found cs with
  | case1 => cases h
  | case2 =>
    cases h
    exact fun c hc => absurd hc (Option.not_mem_none c)
  | case3 => cases h
  | case4 _ _ ih => exact ih h
  | case5 _ d _ hd =>
    cases h
    intro c hc
    cases hc
    exact hd
  | case6 _ _ _ _ _ ih => exact ih h

/-- Layout that begins with less of the line behind its first character also begins with more of
it. -/
theorem Source.beginsLayout_again {c : Char} {rest behind : List Char}
    (h : beginsLayout (c :: rest) = false) (hl : FirstLineIn behind rest) :
    beginsLayout (c :: behind) = false := by
  have hmarks : ∀ {d : Char} {others : List Char}, behind = d :: others → d ≠ '\n' →
      ∃ others, rest = d :: others := by
    intro d others he hd
    exact List.head?_eq_some_iff.mp (hl.head?_eq (by rw [he]; rfl) hd)
  unfold beginsLayout
  split
  next => rfl
  next he =>
    obtain ⟨rfl, hb⟩ := List.cons.inj he
    obtain ⟨others, rfl⟩ := hmarks hb (by decide)
    cases h
  next he =>
    obtain ⟨rfl, hb⟩ := List.cons.inj he
    obtain ⟨others, rfl⟩ := hmarks hb (by decide)
    cases h
  next he =>
    rw [← (List.cons.inj he).1]
    exact isBlank_of_beginsLayout h

/-- No form of a number holds a line feed. -/
theorem NumberForm.lineFeed_notMem (form : NumberForm) : '\n' ∉ form.text := by
  have hdigits : ∀ ds : Digits, '\n' ∉ ds.list := fun ds hm => by cases ds.digit _ hm
  have hplaces : '\n' ∉ form.placesText := by
    rw [placesText]
    cases form.places with
    | none => exact List.not_mem_nil
    | some ds => simpa using hdigits ds
  have hpower : '\n' ∉ form.powerText := by
    rw [powerText]
    cases form.power with
    | none => exact List.not_mem_nil
    | some power =>
      have hmark : '\n' ≠ power.mark := by rcases power.isMark with h | h <;> rw [h] <;> decide
      have hsign : '\n' ∉ power.sign := by
        rcases power.isSign with h | h | h <;> rw [h] <;> decide
      simp [PowerForm.text, hmark, hsign, hdigits]
  simp [text, hdigits, hplaces, hpower]

namespace Lexeme

variable {c : Char} {cs text rest behind : List Char} {token : Token}

/-- A number is cut again with less of its line behind it. -/
theorem number_again (hc : c.isDigit = true) (h : number (c :: cs) = (text, rest))
    (hl : FirstLineIn behind rest) : number (text ++ behind) = (text, behind) := by
  have hwhole : text ++ rest = c :: cs := by
    have happend := number_append (c :: cs)
    rwa [h] at happend
  have hform : ∃ form : NumberForm, text = form.text := by
    obtain ⟨form, hform⟩ := number_form cs hc
    rw [h] at hform
    exact ⟨form, hform⟩
  obtain ⟨form, rfl⟩ := hform
  have hleft : (number (form.text ++ behind)).2.length ≤ behind.length :=
    length_number_le form behind
  have hfirst : ∃ others, form.text ++ behind = c :: others := by
    cases ht : form.text with
    | nil =>
      rw [NumberForm.text, List.append_assoc, List.append_eq_nil_iff] at ht
      exact absurd ht.1 form.whole.nonempty
    | cons d others =>
      rw [ht, List.cons_append] at hwhole
      rw [(List.cons.inj hwhole).1]
      exact ⟨others ++ behind, rfl⟩
  obtain ⟨others, hfirst⟩ := hfirst
  have hagain : ∃ longer : NumberForm, (number (form.text ++ behind)).1 = longer.text := by
    rw [hfirst]
    exact number_form others hc
  obtain ⟨longer, hlonger⟩ := hagain
  have hcut := number_append (form.text ++ behind)
  rw [hlonger] at hcut
  -- A longer number here would be one in the first text, where the number ends before.
  have hsame : longer.text = form.text ∧ (number (form.text ++ behind)).2 = behind := by
    rcases List.append_eq_append_iff.mp hcut with ⟨run, ht, hr⟩ | ⟨run, ht, hr⟩
    · have hrun : run = [] := by
        rw [hr, List.length_append] at hleft
        exact List.eq_nil_of_length_eq_zero (by omega)
      rw [hr, ht, hrun]
      exact ⟨(List.append_nil _).symm, rfl⟩
    · have hn : '\n' ∉ run := by
        intro hm
        refine longer.lineFeed_notMem ?_
        rw [ht]
        exact List.mem_append_right _ hm
      have hline : run <+: rest := by
        refine hl.run_begins hn ?_
        rw [hr]
        exact List.prefix_append run _
      obtain ⟨others, rfl⟩ := hline
      have hmost : (number (longer.text ++ others)).2.length ≤ others.length :=
        length_number_le longer others
      have hrun : run = [] := by
        rw [ht, List.append_assoc, hwhole, h, List.length_append] at hmost
        exact List.eq_nil_of_length_eq_zero (by omega)
      rw [hrun] at ht hr
      rw [List.append_nil] at ht
      exact ⟨ht, hr.symm⟩
  exact Prod.ext (hlonger.trans hsame.1) hsame.2

/-- A lone sign is found again where nothing stands behind it. -/
theorem ofSymbol?_lone {next : Option Char} (h : Token.ofSymbol? c next = some (token, 1)) :
    Token.ofSymbol? c none = some (token, 1) := by
  unfold Token.ofSymbol? at h
  split at h <;> cases h
  all_goals rfl

/-- A lone sign is found again with less of its line behind it. -/
theorem ofSymbol?_again (h : Token.ofSymbol? c rest.head? = some (token, 1))
    (hl : FirstLineIn behind rest) : Token.ofSymbol? c behind.head? = some (token, 1) := by
  cases hd : behind.head? with
  | none => exact ofSymbol?_lone h
  | some d =>
    by_cases hn : d = '\n'
    · rw [hn, ofSymbol?_next (by decide) (by decide)]
      exact ofSymbol?_lone h
    · rw [← hl.head?_eq hd hn]
      exact h

/-- Where a text between quotes ends, no quote stands. -/
theorem enclosed_form {quote : Char} {enclosure : Enclosure} {token : String → Token}
    {lexeme : Lexeme} (h : enclosed quote enclosure token rest = .ok lexeme) :
    ∃ inner, lexeme.token = token (String.ofList inner) ∧ lexeme.text = Text.enclose quote inner ∧
      ∀ d ∈ lexeme.rest.head?, d ≠ quote := by
  unfold enclosed at h
  split at h
  next body others hb =>
    cases h
    exact ⟨body, rfl, rfl, Text.head?_ne_of_readBody hb⟩
  next => cases h

/-- A character that does not stand first with more of the line does not with less of it. -/
theorem head?_again {p : Char → Prop} (hp : ¬ p '\n') (hr : ∀ d ∈ rest.head?, ¬ p d)
    (hl : FirstLineIn behind rest) : ∀ d ∈ behind.head?, ¬ p d := by
  intro d hd hpd
  have hn : d ≠ '\n' := fun he => hp (he ▸ hpd)
  exact hr d (hl.head?_eq hd hn) hpd

/-- A number is cut off again with less of its line behind it. -/
theorem isCut_number_again (hc : c.isDigit = true)
    (hl : FirstLineIn behind (number (c :: cs)).2) :
    IsCut (.number (String.ofList (number (c :: cs)).1)) (number (c :: cs)).1 behind := by
  have hagain : number ((number (c :: cs)).1 ++ behind) = ((number (c :: cs)).1, behind) :=
    number_again hc rfl hl
  have hfirst : ∃ others, (number (c :: cs)).1 = c :: others := by
    rw [number, digits, List.takeWhile_cons_of_pos hc]
    exact ⟨_, rfl⟩
  obtain ⟨others, hfirst⟩ := hfirst
  rw [hfirst] at hagain ⊢
  have hends : endsLexeme c = false := endsLexeme_of_isWordPart (word_of_isDigit hc).1
  have hcut := ofChars_digit (others ++ behind) hc
  rw [← List.cons_append, hagain] at hcut
  exact ⟨beginsLayout_eq_false hends, c, others, rfl, hcut⟩

/-- A sign is cut again with less of its line behind it. -/
theorem isCut_symbol_again {length : Nat}
    (hc : c ≠ '\x27' ∧ c ≠ '\x22' ∧ c.isDigit = false ∧ isWordStart c = false)
    (hb : Source.beginsLayout (c :: cs) = false)
    (hs : Token.ofSymbol? c cs.head? = some (token, length))
    (hl : FirstLineIn behind (cs.drop (length - 1))) :
    IsCut token (c :: cs.take (length - 1)) behind := by
  rcases (ofSymbol?_eq_some hs).2 with ⟨rfl, -⟩ | ⟨rfl, d, hd, -⟩
  · exact isCut_sign hc (Source.beginsLayout_again hb hl) (ofSymbol?_again hs hl)
  · obtain ⟨others, rfl⟩ := List.head?_eq_some_iff.mp hd
    have hline : FirstLineIn (d :: behind) (d :: others) := FirstLineIn.cons d hl
    have hcut : ofChars c (d :: behind) = _ := ofChars_symbol hc hs
    exact ⟨Source.beginsLayout_again hb hline, c, [d], rfl, hcut⟩

/-- What is cut from the front of a text where no layout begins is cut again with less of its line
behind it. -/
theorem isCut_again {lexeme : Lexeme} (hb : Source.beginsLayout (c :: cs) = false)
    (h : ofChars c cs = .ok lexeme) (hl : FirstLineIn behind lexeme.rest) :
    IsCut lexeme.token lexeme.text behind := by
  unfold ofChars at h
  by_cases hstring : c = '\x27'
  · rw [if_pos hstring, hstring] at h
    obtain ⟨inner, htoken, htext, hr⟩ := enclosed_form h
    rw [htoken, htext]
    exact isCut_string inner (head?_again (by decide) hr hl)
  rw [if_neg hstring] at h
  by_cases hquoted : c = '\x22'
  · rw [if_pos hquoted, hquoted] at h
    obtain ⟨inner, htoken, htext, hr⟩ := enclosed_form h
    rw [htoken, htext]
    exact isCut_quoted inner (head?_again (by decide) hr hl)
  rw [if_neg hquoted] at h
  by_cases hdigit : c.isDigit = true
  · rw [if_pos hdigit] at h
    obtain rfl := Except.ok.inj h
    exact isCut_number_again hdigit hl
  rw [if_neg hdigit] at h
  by_cases hword : isWordStart c = true
  · rw [if_pos hword] at h
    have hpart : ∀ d ∈ (cs.dropWhile isWordPart).head?, ¬ isWordPart d = true := by
      intro d hd
      have hhead := List.head?_dropWhile_not isWordPart cs
      rw [Option.mem_def.mp hd] at hhead
      exact Bool.eq_false_iff.mp hhead
    have hplain : IsPlainWord (c :: cs.takeWhile isWordPart) :=
      ⟨hword, List.all_eq_true.mp List.all_takeWhile⟩
    obtain rfl := Except.ok.inj h
    dsimp only at hl ⊢
    have hrest : ∀ d ∈ behind.head?, isWordPart d = false := fun d hd =>
      Bool.eq_false_iff.mpr (head?_again (by decide) hpart hl d hd)
    exact isCut_word hplain hrest
  rw [if_neg hword] at h
  split at h
  next token length hs =>
    cases h
    have hc : c ≠ '\x27' ∧ c ≠ '\x22' ∧ c.isDigit = false ∧ isWordStart c = false :=
      ⟨hstring, hquoted, Bool.eq_false_iff.mpr hdigit, Bool.eq_false_iff.mpr hword⟩
    exact isCut_symbol_again hc hb hs hl
  next => cases h

end Lexeme

end SqlDdl
