import SqlDdl.Proofs.Names

/-!
# Reading data types in both directions

The words of the table of types are told from all others, and behind each of them
the type is read as far as it is written. What follows a type may not begin its
modifiers, a second word or a dot; `endsPart` holds of no such token.
-/

namespace SqlDdl.Grammar

variable {settings : Settings} {s s' : State} {rest : List Token}

/-- Every spelling stands in the table of types once. -/
theorem typeHeads_lookup : ∀ entry ∈ typeHeads, typeHeads.lookup entry.1 = some entry.2 := by
  decide

/-- A word begins a built-in type when it is unquoted and its capitals stand in the table. -/
theorem typeHead?_eq_some_iff {word : Word} {head : TypeHead} :
    typeHead? word = some head ↔
      word.quoted = false ∧ (Text.toUpperCase word.value, head) ∈ typeHeads := by
  unfold typeHead?
  cases word.quoted with
  | true => simp only [if_true, reduceCtorEq, Bool.true_eq_false, false_and]
  | false =>
    simp only [Bool.false_eq_true, if_false, true_and]
    constructor
    · intro h
      obtain ⟨before, behind, he, -⟩ := List.lookup_eq_some_iff.mp h
      rw [he]
      exact List.mem_append_right _ List.mem_cons_self
    · exact fun h => typeHeads_lookup _ h

/-- A word begins no built-in type when it is quoted or its capitals stand nowhere in the
table. -/
theorem typeHead?_eq_none_iff {word : Word} :
    typeHead? word = none ↔
      word.quoted = true ∨ ∀ head, (Text.toUpperCase word.value, head) ∉ typeHeads := by
  rw [Option.eq_none_iff_forall_ne_some]
  constructor
  · intro h
    cases hq : word.quoted with
    | true => exact Or.inl rfl
    | false => exact Or.inr fun head hm => h head (typeHead?_eq_some_iff.mpr ⟨hq, hm⟩)
  · intro h head hs
    obtain ⟨hq, hm⟩ := typeHead?_eq_some_iff.mp hs
    rcases h with h | h
    · rw [hq] at h
      cases h
    · exact h head hm

/-- A modifier that was read is a number below 2^32. -/
theorem typeModifier_ok {value : UInt32} (h : typeModifier s = .ok value s') :
    ∃ modifier : Modifier, modifier.meaning = value ∧
      s.cursor.Passes modifier.tokens s'.cursor := by
  obtain ⟨token, s₁, hp, h⟩ := bind_ok h
  obtain ⟨ht, rfl⟩ := peek_ok hp
  cases token with
  | number text =>
    cases hv : Text.readDecimal? UInt32.size text with
    | none =>
      simp only [hv] at h
      exact (reject_ok h).elim
    | some value =>
      simp only [hv] at h
      obtain ⟨token, s₂, hn, h⟩ := bind_ok h
      obtain ⟨ht', -, h₁⟩ := next_ok hn
      obtain ⟨rfl, rfl⟩ := pure_ok h
      rw [ht] at ht'
      subst ht'
      exact ⟨⟨text, value, hv⟩, rfl, h₁ nofun⟩
  | _ => exact (reject_ok h).elim

/-- A modifier is read where it stands. -/
theorem typeModifier_reads (modifier : Modifier) (h : s.cursor.ahead = modifier.tokens ++ rest) :
    Reads typeModifier s modifier.tokens rest modifier.meaning := by
  obtain ⟨s₁, hn, h₁⟩ := next_reads (show _ = Token.number modifier.text :: _ from h) nofun
  refine ⟨s₁, ?_, h₁⟩
  rw [typeModifier, run_bind (run_peek h)]
  simp only [modifier.reads]
  rw [run_bind hn]
  rfl

/-- A length that was read stands in parentheses or nowhere. -/
theorem typeLength_ok {value : Option UInt32} (h : typeLength s = .ok value s') :
    ∃ length : Option Modifier, length.map Modifier.meaning = value ∧
      s.cursor.Passes (lengthTokens length) s'.cursor := by
  obtain ⟨found, s₁, hc, h⟩ := bind_ok h
  rcases consume_ok hc (by decide) with ⟨rfl, h₁⟩ | ⟨rfl, rfl⟩
  · obtain ⟨value, s₂, hm, h⟩ := bind_ok h
    obtain ⟨modifier, rfl, h₂⟩ := typeModifier_ok hm
    obtain ⟨_, s₃, hr, h⟩ := bind_ok h
    obtain ⟨rfl, rfl⟩ := pure_ok h
    exact ⟨some modifier, rfl, h₁.trans (h₂.trans (require_ok hr (by decide)))⟩
  · obtain ⟨rfl, rfl⟩ := pure_ok h
    exact ⟨none, rfl, .refl _⟩

/-- A length is read where it stands, and nothing where no parenthesis follows. -/
theorem typeLength_reads (length : Option Modifier) (hr : rest.headD .eof ≠ .leftParen)
    (h : s.cursor.ahead = lengthTokens length ++ rest) :
    Reads typeLength s (lengthTokens length) rest (length.map Modifier.meaning) := by
  cases length with
  | none =>
    have hp : s.cursor.peek ≠ .leftParen := peek_eq_headD h ▸ hr
    refine ⟨s, ?_, .refl _, h⟩
    rw [typeLength, run_bind (consume_miss hp)]
    rfl
  | some modifier =>
    obtain ⟨s₁, hc, h₁, ha₁⟩ := consume_reads h (by decide)
    obtain ⟨s₂, hm, h₂, ha₂⟩ := typeModifier_reads modifier ha₁
    obtain ⟨s₃, hr, h₃, ha₃⟩ := require_reads ha₂ (by decide)
    refine ⟨s₃, ?_, h₁.trans (h₂.trans h₃), ha₃⟩
    rw [typeLength, run_bind hc]
    simp only [if_true]
    rw [run_bind hm, run_bind hr]
    rfl

/-- A precision that was read stands in parentheses, with a scale or without, or nowhere. -/
theorem numericModifiers_ok {values : Option UInt32 × Option UInt32}
    (h : numericModifiers s = .ok values s') :
    ∃ modifiers : Option NumericModifiers,
      (modifiers.map (·.precision.meaning),
        modifiers.bind (·.scale.map Modifier.meaning)) = values ∧
      s.cursor.Passes (numericTokens modifiers) s'.cursor := by
  obtain ⟨found, s₁, hc, h⟩ := bind_ok h
  rcases consume_ok hc (by decide) with ⟨rfl, h₁⟩ | ⟨rfl, rfl⟩
  · obtain ⟨value, s₂, hm, h⟩ := bind_ok h
    obtain ⟨precision, rfl, h₂⟩ := typeModifier_ok hm
    obtain ⟨found, s₃, hc, h⟩ := bind_ok h
    rcases consume_ok hc (by decide) with ⟨rfl, h₃⟩ | ⟨rfl, rfl⟩
    · obtain ⟨value, s₄, hm, h⟩ := bind_ok h
      obtain ⟨value, s₅, hm, hv⟩ := bind_ok hm
      obtain ⟨scale, rfl, h₄⟩ := typeModifier_ok hm
      obtain ⟨rfl, rfl⟩ := pure_ok hv
      obtain ⟨_, s₆, hr, h⟩ := bind_ok h
      obtain ⟨rfl, rfl⟩ := pure_ok h
      exact ⟨some ⟨precision, some scale⟩, rfl,
        h₁.trans (h₂.trans (h₃.trans (h₄.trans (require_ok hr (by decide)))))⟩
    · obtain ⟨value, s₄, hv, h⟩ := bind_ok h
      obtain ⟨rfl, rfl⟩ := pure_ok hv
      obtain ⟨_, s₅, hr, h⟩ := bind_ok h
      obtain ⟨rfl, rfl⟩ := pure_ok h
      exact ⟨some ⟨precision, none⟩, rfl, h₁.trans (h₂.trans (require_ok hr (by decide)))⟩
  · obtain ⟨rfl, rfl⟩ := pure_ok h
    exact ⟨none, rfl, .refl _⟩

/-- A precision is read where it stands, and nothing where no parenthesis follows. -/
theorem numericModifiers_reads (modifiers : Option NumericModifiers)
    (hr : rest.headD .eof ≠ .leftParen) (h : s.cursor.ahead = numericTokens modifiers ++ rest) :
    Reads numericModifiers s (numericTokens modifiers) rest
      (modifiers.map (·.precision.meaning), modifiers.bind (·.scale.map Modifier.meaning)) := by
  match modifiers with
  | none =>
    have hp : s.cursor.peek ≠ .leftParen := peek_eq_headD h ▸ hr
    refine ⟨s, ?_, .refl _, h⟩
    rw [numericModifiers, run_bind (consume_miss hp)]
    rfl
  | some ⟨precision, none⟩ =>
    obtain ⟨s₁, hc, h₁, ha₁⟩ := consume_reads h (by decide)
    obtain ⟨s₂, hm, h₂, ha₂⟩ := typeModifier_reads precision ha₁
    have hp : s₂.cursor.peek ≠ .comma := by
      rw [Cursor.peek_of_ahead ha₂]
      decide
    obtain ⟨s₃, hr, h₃, ha₃⟩ := require_reads ha₂ (by decide)
    refine ⟨s₃, ?_, h₁.trans (h₂.trans h₃), ha₃⟩
    rw [numericModifiers, run_bind hc]
    simp only [if_true]
    rw [run_bind hm, run_bind (consume_miss hp)]
    exact run_bind hr
  | some ⟨precision, some scale⟩ =>
    obtain ⟨s₁, hc, h₁, ha₁⟩ := consume_reads h (by decide)
    obtain ⟨s₂, hm, h₂, ha₂⟩ := typeModifier_reads precision ha₁
    obtain ⟨s₃, hc', h₃, ha₃⟩ := consume_reads ha₂ (by decide)
    obtain ⟨s₄, hm', h₄, ha₄⟩ := typeModifier_reads scale ha₃
    obtain ⟨s₅, hr, h₅, ha₅⟩ := require_reads ha₄ (by decide)
    have hs : (some <$> typeModifier) s₃ = .ok (some scale.meaning) s₄ := run_bind hm'
    refine ⟨s₅, ?_, h₁.trans (h₂.trans (h₃.trans (h₄.trans h₅))), ha₅⟩
    rw [numericModifiers, run_bind hc]
    simp only [if_true]
    rw [run_bind hm, run_bind hc']
    simp only [if_true]
    rw [run_bind hs]
    exact run_bind hr

/-- A token is the named word when it is a word of that spelling. -/
theorem isWordNamed_iff {capitals : String} {token : Token} :
    isWordNamed capitals token = true ↔
      ∃ second : SecondWord capitals, token = .word second.word := by
  constructor
  · intro h
    cases token with
    | word word => exact ⟨⟨word, beq_iff_eq.mp h⟩, rfl⟩
    | _ => cases h
  · rintro ⟨second, rfl⟩
    exact beq_iff_eq.mpr second.spelled

/-- No token that ends a part is a word. -/
theorem isWordNamed_of_endsPart {capitals : String} {token : Token} (h : endsPart token = true) :
    isWordNamed capitals token = false := by
  cases token with
  | word word => cases h
  | _ => rfl

/-- What was read behind the first word of a built-in type completes a type. -/
theorem typeRest_ok (settings : Settings) {head : TypeHead} (word : TypeWord head)
    {dataType : DataType} (h : typeRest head s = .ok dataType s') :
    ∃ (phrase : TypePhrase) (ts : List Token), phrase.meaning settings = dataType ∧
      phrase.tokens = .word word.word :: ts ∧ s.cursor.Passes ts s'.cursor := by
  cases head with
  | plain plainType =>
    obtain ⟨rfl, rfl⟩ := pure_ok h
    exact ⟨.plain plainType word, [], rfl, rfl, .refl _⟩
  | float =>
    obtain ⟨value, s₁, hl, h⟩ := bind_ok h
    obtain ⟨length, rfl, h₁⟩ := typeLength_ok hl
    obtain ⟨rfl, rfl⟩ := pure_ok h
    exact ⟨.float word length, _, rfl, rfl, h₁⟩
  | double =>
    obtain ⟨token, s₁, hp, h⟩ := bind_ok h
    obtain ⟨ht, rfl⟩ := peek_ok hp
    cases hw : isWordNamed "PRECISION" token with
    | true =>
      rw [hw] at h
      obtain ⟨token', s₂, hn, h⟩ := bind_ok h
      obtain ⟨ht', -, h₁⟩ := next_ok hn
      obtain ⟨rfl, rfl⟩ := pure_ok h
      obtain ⟨second, rfl⟩ := isWordNamed_iff.mp hw
      rw [ht] at ht'
      subst ht'
      exact ⟨.double word second, _, rfl, rfl, h₁ nofun⟩
    | false =>
      rw [hw] at h
      exact (reject_ok h).elim
  | numeric =>
    obtain ⟨values, s₁, hm, h⟩ := bind_ok h
    obtain ⟨modifiers, rfl, h₁⟩ := numericModifiers_ok hm
    obtain ⟨rfl, rfl⟩ := pure_ok h
    exact ⟨.numeric word modifiers, _, rfl, rfl, h₁⟩
  | varchar =>
    obtain ⟨value, s₁, hl, h⟩ := bind_ok h
    obtain ⟨length, rfl, h₁⟩ := typeLength_ok hl
    obtain ⟨rfl, rfl⟩ := pure_ok h
    exact ⟨.varchar word length, _, rfl, rfl, h₁⟩
  | character =>
    obtain ⟨token, s₁, hp, h⟩ := bind_ok h
    obtain ⟨ht, rfl⟩ := peek_ok hp
    cases hw : isWordNamed "VARYING" token with
    | true =>
      rw [hw] at h
      obtain ⟨token', s₂, hn, h⟩ := bind_ok h
      obtain ⟨ht', -, h₁⟩ := next_ok hn
      obtain ⟨value, s₃, hl, h⟩ := bind_ok h
      obtain ⟨length, rfl, h₂⟩ := typeLength_ok hl
      obtain ⟨rfl, rfl⟩ := pure_ok h
      obtain ⟨second, rfl⟩ := isWordNamed_iff.mp hw
      rw [ht] at ht'
      subst ht'
      exact ⟨.varying word second length, _, rfl, rfl, (h₁ nofun).trans h₂⟩
    | false =>
      rw [hw] at h
      obtain ⟨value, s₂, hl, h⟩ := bind_ok h
      obtain ⟨length, rfl, h₂⟩ := typeLength_ok hl
      obtain ⟨rfl, rfl⟩ := pure_ok h
      exact ⟨.character word length, _, rfl, rfl, h₂⟩

/-- A data type that was read is a data type that is written. -/
theorem dataType_ok {value : DataType} (h : dataType settings s = .ok value s') :
    ∃ phrase : TypePhrase, phrase.meaning settings = value ∧
      s.cursor.Passes phrase.tokens s'.cursor := by
  obtain ⟨token, s₁, hp, h⟩ := bind_ok h
  obtain ⟨ht, rfl⟩ := peek_ok hp
  cases token with
  | word word =>
    cases hh : typeHead? word with
    | some head =>
      simp only [hh] at h
      obtain ⟨hq, hk⟩ := typeHead?_eq_some_iff.mp hh
      obtain ⟨token, s₁, hn, h⟩ := bind_ok h
      obtain ⟨ht', -, h₁⟩ := next_ok hn
      rw [ht] at ht'
      subst ht'
      obtain ⟨phrase, ts, hm, hts, h₂⟩ := typeRest_ok settings ⟨word, hq, hk⟩ h
      exact ⟨phrase, hm, hts ▸ (h₁ nofun).trans h₂⟩
    | none =>
      simp only [hh] at h
      obtain ⟨name, s₁, hn, h⟩ := bind_ok h
      obtain ⟨names, rfl, h₁⟩ := objectName_ok hn
      obtain ⟨rfl, rfl⟩ := pure_ok h
      have hw := ht.symm.trans (Cursor.peek_of_ahead h₁.ahead)
      cases hw
      exact ⟨.custom names (typeHead?_eq_none_iff.mp hh), rfl, h₁⟩
  | _ => exact (reject_ok h).elim

/-- Behind a first word that stands in the table of types the reading goes on by its entry. -/
theorem dataType_of_head {head : TypeHead} (word : TypeWord head) {ts : List Token}
    {value : DataType} (h : s.cursor.ahead = .word word.word :: (ts ++ rest))
    (hr : ∀ {s₁ : State}, s₁.cursor.ahead = ts ++ rest → Reads (typeRest head) s₁ ts rest value) :
    Reads (dataType settings) s (.word word.word :: ts) rest value := by
  have hh := typeHead?_eq_some_iff.mpr ⟨word.unquoted, word.known⟩
  obtain ⟨s₁, hn, h₁, ha₁⟩ := next_reads h nofun
  obtain ⟨s₂, ht, h₂, ha₂⟩ := hr ha₁
  refine ⟨s₂, ?_, h₁.trans h₂, ha₂⟩
  rw [dataType, run_bind (run_peek h)]
  simp only [hh]
  rw [run_bind hn]
  exact ht

/-- A data type is read where it stands, if a token that ends a part follows it. -/
theorem dataType_reads (settings : Settings) (phrase : TypePhrase)
    (hr : endsPart (rest.headD .eof) = true)
    (h : s.cursor.ahead = phrase.tokens ++ rest) :
    Reads (dataType settings) s phrase.tokens rest (phrase.meaning settings) := by
  have hparen : rest.headD .eof ≠ .leftParen := ne_of_endsPart hr rfl
  cases phrase with
  | plain plainType word =>
    exact dataType_of_head word (show _ = _ :: ([] ++ rest) from h) fun {s₁} ha =>
      ⟨s₁, rfl, .refl _, ha⟩
  | float word length =>
    refine dataType_of_head word h fun {s₁} ha => ?_
    obtain ⟨s₂, hl, h₂⟩ := typeLength_reads length hparen ha
    exact ⟨s₂, run_bind hl, h₂⟩
  | double word second =>
    refine dataType_of_head word h fun {s₁} ha => ?_
    obtain ⟨s₂, hn, h₂⟩ := next_reads (show _ = Token.word second.word :: _ from ha) nofun
    refine ⟨s₂, ?_, h₂⟩
    rw [typeRest, run_bind (run_peek ha), if_pos (isWordNamed_iff.mpr ⟨second, rfl⟩)]
    exact run_bind hn
  | numeric word modifiers =>
    refine dataType_of_head word h fun {s₁} ha => ?_
    obtain ⟨s₂, hm, h₂⟩ := numericModifiers_reads modifiers hparen ha
    exact ⟨s₂, run_bind hm, h₂⟩
  | varchar word length =>
    refine dataType_of_head word h fun {s₁} ha => ?_
    obtain ⟨s₂, hl, h₂⟩ := typeLength_reads length hparen ha
    exact ⟨s₂, run_bind hl, h₂⟩
  | character word length =>
    refine dataType_of_head word h fun {s₁} ha => ?_
    have hp : peek s₁ = .ok s₁.cursor.peek s₁ := rfl
    have hw : isWordNamed "VARYING" s₁.cursor.peek = false := by
      rw [peek_eq_headD ha]
      cases length with
      | none => exact isWordNamed_of_endsPart hr
      | some length => rfl
    obtain ⟨s₂, hl, h₂⟩ := typeLength_reads length hparen ha
    refine ⟨s₂, ?_, h₂⟩
    rw [typeRest, run_bind hp, hw]
    exact run_bind hl
  | varying word second length =>
    refine dataType_of_head word h fun {s₁} ha => ?_
    obtain ⟨s₂, hn, h₂, ha₂⟩ := next_reads ha nofun
    obtain ⟨s₃, hl, h₃, ha₃⟩ := typeLength_reads length hparen ha₂
    refine ⟨s₃, ?_, h₂.trans h₃, ha₃⟩
    rw [typeRest, run_bind (run_peek ha), if_pos (isWordNamed_iff.mpr ⟨second, rfl⟩), run_bind hn]
    exact run_bind hl
  | custom names unknown =>
    obtain ⟨s₁, hn, h₁⟩ := objectName_reads settings names (ne_of_endsPart hr rfl) h
    refine ⟨s₁, ?_, h₁⟩
    rw [dataType, run_bind (run_peek h)]
    simp only [typeHead?_eq_none_iff.mpr unknown]
    exact run_bind hn

end SqlDdl.Grammar
