import SqlDdl.Grammar.Expression
import SqlDdl.Proofs.Names

/-!
# Reading default expressions in both directions

The proofs count the levels that may still be opened, as the reading does: with so
many levels left, the expressions read are those that nest no deeper. Words are read
by going back behind them, so both directions pass through that step back.
-/

namespace SqlDdl.Grammar

open ExpressionPhrase

variable {settings : Settings} {s s' : State} {rest : List Token}

/-- The arguments of a call are the list behind its opening parenthesis. -/
theorem arguments_eq (argument : Reading Expression) :
    arguments argument = listRest argument .argumentSeparator :=
  rfl

/-- No expression begins with a closing parenthesis. -/
theorem headD_tokens_ne_rightParen (phrase : ExpressionPhrase) (rest : List Token) :
    (phrase.tokens ++ rest).headD .eof ≠ .rightParen := by
  cases phrase with
  | literal constant =>
    cases constant with
    | boolean value => cases value <;> exact nofun
    | _ => exact nofun
  | _ => exact nofun

/-- A word that was read, gone back behind and read again is passed over once. -/
theorem rewind_identifier_ok {word : Word} {expectation : Expectation} {name : String}
    {s₁ s₂ : State} (hn : next s = .ok (.word word) s₁) (hr : rewind s₁ = .ok () s₂)
    (hi : identifier settings expectation s₂ = .ok name s') :
    ∃ phrase : Identifier, phrase.meaning settings = name ∧
      s.cursor.Passes phrase.tokens s'.cursor := by
  obtain ⟨ht, rfl, -⟩ := next_ok hn
  obtain ⟨rest, ha⟩ := Cursor.ahead_of_peek ht nofun
  obtain ⟨s₃, hr₃, h₃⟩ := rewind_reads ha
  rw [hr] at hr₃
  cases hr₃
  obtain ⟨phrase, hm, h₄⟩ := identifier_ok hi
  exact ⟨phrase, hm, h₃.toPasses.trans h₄⟩

/-- What was read at a level of its own was read one level deeper, from the same place to the
same place. -/
theorem nested_ok {level : Reading Expression} {value : Expression}
    (h : nested settings level s = .ok value s') :
    ∃ s₁ s₂, level s₁ = .ok value s₂ ∧ s₁.cursor = s.cursor ∧ s₂.cursor = s'.cursor := by
  rw [nested] at h
  split at h
  next =>
    split at h
    next hl =>
      cases h
      exact ⟨_, _, hl, rfl, rfl⟩
    next => cases h
  next =>
    obtain ⟨_, _, -, h⟩ := bind_ok h
    exact (fail_ok h).elim

/-- What was read at one level is an expression that is written, if that holds of what is read
one level deeper. -/
theorem operand_ok {inner : Reading Expression} {levels : Nat}
    (hinner : ∀ {s s' : State} {value : Expression}, s.cursor.Closed → inner s = .ok value s' →
      ∃ phrase : ExpressionPhrase, phrase.depth ≤ levels ∧ phrase.meaning settings = value ∧
        s.cursor.Passes phrase.tokens s'.cursor)
    {value : Expression} (hc : s.cursor.Closed) (h : operand settings inner s = .ok value s') :
    ∃ phrase : ExpressionPhrase, phrase.depth ≤ levels + 1 ∧ phrase.meaning settings = value ∧
      s.cursor.Passes phrase.tokens s'.cursor := by
  rw [operand, run_here] at h
  obtain ⟨token, s₁, hn, h⟩ := bind_ok h
  obtain ⟨-, -, h₁⟩ := next_ok hn
  have hone : 1 ≤ levels + 1 := Nat.le_add_left 1 levels
  cases token with
  | number text =>
    obtain ⟨rfl, rfl⟩ := pure_ok h
    exact ⟨literal (.number text), hone, rfl, h₁ nofun⟩
  | string text =>
    obtain ⟨rfl, rfl⟩ := pure_ok h
    exact ⟨literal (.string text), hone, rfl, h₁ nofun⟩
  | keyword keyword =>
    cases keyword with
    | null =>
      obtain ⟨rfl, rfl⟩ := pure_ok h
      exact ⟨literal .null, hone, rfl, h₁ nofun⟩
    | true =>
      obtain ⟨rfl, rfl⟩ := pure_ok h
      exact ⟨literal (.boolean true), hone, rfl, h₁ nofun⟩
    | false =>
      obtain ⟨rfl, rfl⟩ := pure_ok h
      exact ⟨literal (.boolean false), hone, rfl, h₁ nofun⟩
    | _ => exact (rejectRead_ok h).elim
  | minus =>
    obtain ⟨inner, s₂, hi, h⟩ := bind_ok h
    obtain ⟨phrase, hd, rfl, h₂⟩ := hinner ((h₁ nofun).closed hc) hi
    obtain ⟨rfl, rfl⟩ := pure_ok h
    exact ⟨negate phrase, Nat.succ_le_succ hd, rfl, (h₁ nofun).trans h₂⟩
  | leftParen =>
    obtain ⟨inner, s₂, hi, h⟩ := bind_ok h
    obtain ⟨phrase, hd, rfl, h₂⟩ := hinner ((h₁ nofun).closed hc) hi
    obtain ⟨_, s₃, hr, h⟩ := bind_ok h
    obtain ⟨rfl, rfl⟩ := pure_ok h
    have h₃ := require_ok hr (by decide)
    exact ⟨group phrase, Nat.succ_le_succ hd, rfl, (h₁ nofun).trans (h₂.trans h₃)⟩
  | word word =>
    obtain ⟨_, s₂, hr, h⟩ := bind_ok h
    obtain ⟨_, s₃, hi, h⟩ := bind_ok h
    obtain ⟨name, rfl, h₃⟩ := rewind_identifier_ok hn hr hi
    obtain ⟨found, s₄, hp, h⟩ := bind_ok h
    rcases consume_ok hp (by decide) with ⟨rfl, h₄⟩ | ⟨rfl, rfl⟩
    · obtain ⟨values, s₅, ha, h⟩ := bind_ok h
      rw [arguments_eq] at ha
      have hc₄ := h₄.closed (h₃.closed hc)
      obtain ⟨phrases, hd, rfl, h₅⟩ := listRest_ok hinner hc₄ ha
      obtain ⟨rfl, rfl⟩ := pure_ok h
      refine ⟨call name phrases, ?_, ?_, ?_⟩
      · exact Nat.succ_le_succ ((deepest_le_iff phrases levels).mpr hd)
      · rw [ExpressionPhrase.meaning, meaningOfEach_eq_map]
      · rw [ExpressionPhrase.tokens, tokensOfEach_eq_map, List.append_assoc]
        exact h₃.trans (h₄.trans h₅)
    · obtain ⟨rfl, rfl⟩ := pure_ok h
      exact ⟨ExpressionPhrase.identifier name, hone, rfl, h₃⟩
  | _ => exact (rejectRead_ok h).elim

/-- An expression that was read is an expression that is written, within the levels left. -/
theorem expressionWithin_ok (levels : Nat) {value : Expression} (hc : s.cursor.Closed)
    (h : expressionWithin settings levels s = .ok value s') :
    ∃ phrase : ExpressionPhrase, phrase.depth ≤ levels ∧ phrase.meaning settings = value ∧
      s.cursor.Passes phrase.tokens s'.cursor := by
  induction levels generalizing s s' value with
  | zero =>
    obtain ⟨_, _, -, h⟩ := bind_ok h
    exact (fail_ok h).elim
  | succ levels ih =>
    obtain ⟨s₁, s₂, h, hs, hs'⟩ := nested_ok h
    rw [← hs] at hc ⊢
    rw [← hs']
    exact operand_ok ih hc h

/-- Where a word stands, reading it, going back and reading it again is the same as reading
it once. -/
theorem rewind_identifier_reads (settings : Settings) (expectation : Expectation)
    (name : Identifier)
    (h : s.cursor.ahead = name.tokens ++ rest) :
    ∃ s₁, rewind { s with cursor := s.cursor.advance } = .ok () s₁ ∧
      Reads (identifier settings expectation) s₁ name.tokens rest (name.meaning settings) ∧
      s.Passes [] s₁ := by
  obtain ⟨s₁, hr, h₁⟩ := rewind_reads (show _ = Token.word name.word :: _ from h)
  have ha : s₁.cursor.ahead = name.tokens ++ rest := h₁.ahead_eq h
  exact ⟨s₁, hr, identifier_reads settings expectation name ha, h₁⟩

/-- What is read one level deeper is read at a level of its own, if the limit leaves one. -/
theorem nested_reads {level : Reading Expression} {ts : List Token} {value : Expression}
    (hs : s.nesting < settings.maxExpressionDepth)
    (h : Reads level { s with nesting := s.nesting + 1 } ts rest value) :
    Reads (nested settings level) s ts rest value := by
  obtain ⟨s₁, hl, h₁, ha₁⟩ := h
  have hn : s₁.nesting = s.nesting + 1 := h₁.nesting
  refine ⟨{ s₁ with nesting := s₁.nesting - 1 }, ?_, ⟨h₁.toPasses, ?_⟩, ha₁⟩
  · rw [nested, if_pos hs, hl]
  · rw [hn, Nat.add_sub_cancel]

/-- One level of an expression is read where it stands, if no opening parenthesis follows it and
what it nests is read. -/
theorem operand_reads {inner : Reading Expression} {levels : Nat}
    (hinner : ∀ (phrase : ExpressionPhrase) {s₁ : State} {rest : List Token},
      s₁.nesting = s.nesting → phrase.depth ≤ levels → rest.headD .eof ≠ .leftParen →
      s₁.cursor.ahead = phrase.tokens ++ rest →
      Reads inner s₁ phrase.tokens rest (phrase.meaning settings))
    (phrase : ExpressionPhrase) (hd : phrase.depth ≤ levels + 1)
    (hr : rest.headD .eof ≠ .leftParen) (h : s.cursor.ahead = phrase.tokens ++ rest) :
    Reads (operand settings inner) s phrase.tokens rest (phrase.meaning settings) := by
  cases phrase with
  | literal constant =>
    obtain ⟨s₁, hn, h₁⟩ := next_reads (show _ = constant.token :: _ from h) (by
      cases constant with
      | boolean value => cases value <;> exact nofun
      | _ => exact nofun)
    refine ⟨s₁, ?_, h₁⟩
    rw [operand, run_here, run_bind hn]
    cases constant with
    | boolean value => cases value <;> rfl
    | _ => rfl
  | identifier name =>
    obtain ⟨s₁, hb, ⟨s₂, hi, h₂, ha₂⟩, h₁⟩ := rewind_identifier_reads settings
      .identifier name h
    have hp : s₂.cursor.peek ≠ .leftParen := peek_eq_headD ha₂ ▸ hr
    refine ⟨s₂, ?_, h₁.trans h₂, ha₂⟩
    rw [operand, run_here, run_bind (run_next (show _ = Token.word name.word :: _ from h))]
    dsimp only
    rw [Retreat.back_eq, run_bind hb, run_bind hi, run_bind (consume_miss hp)]
    rfl
  | call name phrases =>
    have hds := (deepest_le_iff phrases levels).mp (Nat.le_of_succ_le_succ hd)
    rw [ExpressionPhrase.tokens, tokensOfEach_eq_map, List.append_assoc] at h ⊢
    rw [List.append_assoc] at h
    obtain ⟨s₁, hb, ⟨s₂, hi, h₂, ha₂⟩, h₁⟩ := rewind_identifier_reads settings
      .identifier name h
    obtain ⟨s₃, hp, h₃, ha₃⟩ := consume_reads ha₂ (by decide)
    have hitem : ∀ phrase ∈ phrases, ∀ {s₁ : State} {rest : List Token},
        s₁.nesting = s.nesting → rest.headD .eof = .comma ∨ rest.headD .eof = .rightParen →
        s₁.cursor.ahead = phrase.tokens ++ rest →
        Reads inner s₁ phrase.tokens rest (phrase.meaning settings) := by
      intro phrase hm s₁ rest hs hf ha
      refine hinner phrase hs (hds phrase hm) ?_ ha
      rcases hf with hf | hf <;> rw [hf] <;> decide
    have hs₃ : s₃.nesting = s.nesting := (h₁.trans (h₂.trans h₃)).nesting
    obtain ⟨s₄, hl, h₄, ha₄⟩ := listRest_reads hitem headD_tokens_ne_rightParen hs₃ ha₃
    refine ⟨s₄, ?_, h₁.trans (h₂.trans (h₃.trans h₄)), ha₄⟩
    rw [operand, run_here, run_bind (run_next (show _ = Token.word name.word :: _ from h))]
    dsimp only
    rw [Retreat.back_eq, run_bind hb, run_bind hi, run_bind hp]
    simp only [if_true]
    rw [arguments_eq, run_bind hl, ExpressionPhrase.meaning, meaningOfEach_eq_map]
    rfl
  | negate phrase =>
    obtain ⟨s₁, hn, h₁, ha₁⟩ := next_reads h (by decide)
    obtain ⟨s₂, hi, h₂, ha₂⟩ := hinner phrase h₁.nesting (Nat.le_of_succ_le_succ hd) hr ha₁
    refine ⟨s₂, ?_, h₁.trans h₂, ha₂⟩
    rw [operand, run_here, run_bind hn]
    exact run_bind hi
  | group phrase =>
    rw [ExpressionPhrase.tokens, List.append_assoc] at h
    obtain ⟨s₁, hn, h₁, ha₁⟩ := next_reads h (by decide)
    obtain ⟨s₂, hi, h₂, ha₂⟩ := hinner phrase h₁.nesting (Nat.le_of_succ_le_succ hd)
      (by rintro ⟨⟩) ha₁
    obtain ⟨s₃, hq, h₃, ha₃⟩ := require_reads ha₂ (by decide)
    refine ⟨s₃, ?_, h₁.trans (h₂.trans h₃), ha₃⟩
    rw [operand, run_here, run_bind hn]
    dsimp only
    rw [run_bind hi, run_bind hq]
    rfl

/-- An expression is read where it stands, if it nests no deeper than the levels left, the limit
leaves as many, and no opening parenthesis follows it. -/
theorem expressionWithin_reads (levels : Nat) (phrase : ExpressionPhrase)
    (hs : s.nesting + levels ≤ settings.maxExpressionDepth) (hd : phrase.depth ≤ levels)
    (hr : rest.headD .eof ≠ .leftParen) (h : s.cursor.ahead = phrase.tokens ++ rest) :
    Reads (expressionWithin settings levels) s phrase.tokens rest (phrase.meaning settings) := by
  induction levels generalizing s phrase rest with
  | zero => cases phrase <;> cases hd
  | succ levels ih =>
    have hlevel : s.nesting < settings.maxExpressionDepth := by omega
    refine nested_reads hlevel (operand_reads ?_ phrase hd hr h)
    intro phrase s₁ rest hn hd hr h
    have hs₁ : s₁.nesting = s.nesting + 1 := hn
    exact ih phrase (by omega) hd hr h

/-- A default expression that was read is written, within the limit of nesting. -/
theorem expression_ok {value : Expression} (hc : s.cursor.Closed)
    (h : expression settings s = .ok value s') :
    ∃ phrase : ExpressionPhrase, phrase.depth ≤ settings.maxExpressionDepth ∧
      phrase.meaning settings = value ∧ s.cursor.Passes phrase.tokens s'.cursor :=
  expressionWithin_ok settings.maxExpressionDepth hc h

/-- A default expression within the limit of nesting is read where it stands, if no other
expression has been begun. -/
theorem expression_reads (settings : Settings) (phrase : ExpressionPhrase) (hs : s.nesting = 0)
    (hd : phrase.depth ≤ settings.maxExpressionDepth) (hr : rest.headD .eof ≠ .leftParen)
    (h : s.cursor.ahead = phrase.tokens ++ rest) :
    Reads (expression settings) s phrase.tokens rest (phrase.meaning settings) :=
  expressionWithin_reads settings.maxExpressionDepth phrase (by omega) hd hr h

end SqlDdl.Grammar
