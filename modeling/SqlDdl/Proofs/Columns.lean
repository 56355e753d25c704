import SqlDdl.Grammar.Column
import SqlDdl.Proofs.Constraints
import SqlDdl.Proofs.DataTypes
import SqlDdl.Proofs.Expressions

/-!
# Reading columns and tables in both directions

The options of a column are read one after another, the last one found standing
first. A second default is refused as it is found, so the options that were read
hold at most one, counted together with those found before. An entry of a table is a
constraint or, where a word stands, a column.
-/

namespace SqlDdl

open Grammar (ColumnOption NamedOption ColumnEntry TableEntry)

/-- The option that an option phrase is read as. -/
def OptionPhrase.option (settings : Settings) : OptionPhrase → ColumnOption
  | notNull => .notNull
  | null => .null
  | default value => .default (value.meaning settings)
  | primaryKey => .primaryKey
  | unique => .unique
  | references reference => .foreignKey (reference.meaning settings)

/-- What is read gives the default that is written. -/
theorem OptionPhrase.default?_option (settings : Settings) (phrase : OptionPhrase) :
    (phrase.option settings).default? = phrase.default?.map (·.meaning settings) := by
  cases phrase <;> rfl

/-- What is read forbids to be without a value where what is written does. -/
theorem OptionPhrase.forbidsNull_option (settings : Settings) (phrase : OptionPhrase) :
    (phrase.option settings).forbidsNull = phrase.forbidsNull := by
  cases phrase <;> rfl

/-- What is read declares the constraint that is written. -/
theorem OptionPhrase.kind?_option (settings : Settings) (phrase : OptionPhrase) :
    (phrase.option settings).kind? = phrase.kind? settings := by
  cases phrase <;> rfl

/-- The named option that a phrase is read as. -/
def NamedOptionPhrase.named (settings : Settings) (phrase : NamedOptionPhrase) : NamedOption :=
  ⟨phrase.name.map (·.meaning settings), phrase.option.option settings⟩

/-- What is read gives a default where what is written does. -/
theorem NamedOptionPhrase.isSome_default?_named (settings : Settings)
    (phrase : NamedOptionPhrase) :
    (phrase.named settings).option.default?.isSome = phrase.option.default?.isSome := by
  rw [named, OptionPhrase.default?_option, Option.isSome_map]

/-- An option of a column is not written with nothing. -/
theorem NamedOptionPhrase.tokens_ne_nil (phrase : NamedOptionPhrase) : phrase.tokens ≠ [] := by
  rcases phrase with ⟨_ | name, option⟩
  · cases option <;> exact List.cons_ne_nil _ _
  · exact List.cons_ne_nil _ _

/-- A column without its options. -/
def ColumnPhrase.plain (phrase : ColumnPhrase) : ColumnPhrase := { phrase with options := [] }

/-- A column is written with its options behind the rest of it. -/
theorem ColumnPhrase.plain_tokens (phrase : ColumnPhrase) :
    phrase.plain.tokens ++ phrase.options.flatMap NamedOptionPhrase.tokens = phrase.tokens := by
  simp only [tokens, plain, List.flatMap_nil, List.append_nil, List.append_assoc]

/-- The entry that a column phrase is read as. -/
def ColumnPhrase.entry (settings : Settings) (phrase : ColumnPhrase) : ColumnEntry :=
  ⟨phrase.column settings, phrase.constraints settings⟩

/-- A column with the options that are read has the default, the constraints and the rule on
missing values that are written. -/
theorem ColumnPhrase.ofOptions_eq_entry (settings : Settings) (phrase : ColumnPhrase) :
    ColumnEntry.ofOptions (phrase.name.meaning settings) (phrase.dataType.meaning settings)
      (phrase.collation.map (·.name settings))
      (phrase.options.map (·.named settings)) = phrase.entry settings := by
  have hdefault : (phrase.options.map (·.named settings)).findSome? (·.option.default?) =
      phrase.defaults.head?.map (·.meaning settings) := by
    rw [ColumnPhrase.defaults, List.head?_filterMap, List.findSome?_map, List.map_findSome?]
    simp only [Function.comp_def, NamedOptionPhrase.named, OptionPhrase.default?_option]
  have hnull : (phrase.options.map (·.named settings)).any (·.option.forbidsNull) =
      phrase.options.any (·.option.forbidsNull) := by
    rw [List.any_map]
    simp only [Function.comp_def, NamedOptionPhrase.named, OptionPhrase.forbidsNull_option]
  have hconstraints : (phrase.options.map (·.named settings)).filterMap
      (NamedOption.constraint? (phrase.name.meaning settings)) = phrase.constraints settings := by
    rw [List.filterMap_map]
    simp only [Function.comp_def, NamedOption.constraint?, NamedOptionPhrase.named,
      OptionPhrase.kind?_option]
    rfl
  rw [ColumnEntry.ofOptions, hdefault, hnull, hconstraints]
  rfl

/-- The entry that an entry phrase is read as. -/
def EntryPhrase.entry (settings : Settings) : EntryPhrase → TableEntry
  | column phrase => .column (phrase.entry settings)
  | constraint name phrase attributes =>
    .constraint (attributes.apply (.plain (name.map (·.meaning settings)) (phrase.kind settings)
      (phrase.columns settings)))
  | null _ => .nothing

/-- What is read gives the column that is written. -/
theorem EntryPhrase.column?_entry (settings : Settings) (phrase : EntryPhrase) :
    (phrase.entry settings).column? = phrase.column? settings := by
  cases phrase <;> rfl

/-- What is read declares the constraints that are written. -/
theorem EntryPhrase.constraints_entry (settings : Settings) (phrase : EntryPhrase) :
    (phrase.entry settings).constraints = phrase.constraints settings := by
  cases phrase <;> rfl

namespace Grammar

variable {settings : Settings} {s s' : State} {rest : List Token}

/-- An option that was read is written behind its name, within the limit of nesting. -/
theorem columnOption_ok {named : NamedOption} (hc : s.cursor.Closed)
    (h : columnOption settings s = .ok named s') :
    ∃ phrase : NamedOptionPhrase, phrase.option.Admissible settings.maxExpressionDepth ∧
      phrase.named settings = named ∧ s.cursor.Passes phrase.tokens s'.cursor := by
  obtain ⟨_, s₁, hname, h⟩ := bind_ok h
  obtain ⟨name, rfl, h₁⟩ := constraintName?_ok hname
  obtain ⟨token, s₂, hn, h⟩ := bind_ok h
  obtain ⟨-, -, h₂⟩ := next_ok hn
  cases token with
  | keyword keyword =>
    have h₂ := h₂ nofun
    cases keyword with
    | not =>
      obtain ⟨_, s₃, hnull, h⟩ := bind_ok h
      obtain ⟨rfl, rfl⟩ := pure_ok h
      exact ⟨⟨name, .notNull⟩, trivial, rfl, h₁.trans (h₂.trans (require_ok hnull (by decide)))⟩
    | null =>
      obtain ⟨rfl, rfl⟩ := pure_ok h
      exact ⟨⟨name, .null⟩, trivial, rfl, h₁.trans h₂⟩
    | default =>
      obtain ⟨_, s₃, he, h⟩ := bind_ok h
      obtain ⟨value, hd, rfl, h₃⟩ := expression_ok (h₂.closed (h₁.closed hc)) he
      obtain ⟨rfl, rfl⟩ := pure_ok h
      exact ⟨⟨name, .default value⟩, hd, rfl, h₁.trans (h₂.trans h₃)⟩
    | primary =>
      obtain ⟨_, s₃, hkey, h⟩ := bind_ok h
      obtain ⟨rfl, rfl⟩ := pure_ok h
      exact ⟨⟨name, .primaryKey⟩, trivial, rfl, h₁.trans (h₂.trans (require_ok hkey (by decide)))⟩
    | unique =>
      obtain ⟨rfl, rfl⟩ := pure_ok h
      exact ⟨⟨name, .unique⟩, trivial, rfl, h₁.trans h₂⟩
    | references =>
      obtain ⟨_, s₃, hf, h⟩ := bind_ok h
      obtain ⟨reference, hr, rfl, h₃⟩ := foreignKey_ok hf
      obtain ⟨rfl, rfl⟩ := pure_ok h
      exact ⟨⟨name, .references reference⟩, hr, rfl, h₁.trans (h₂.trans h₃)⟩
    | check => exact (fail_ok h).elim
    | _ => exact (rejectRead_ok h).elim
  | _ => exact (rejectRead_ok h).elim

/-- An option is read behind its name where it stands, if a token that ends a part follows
it. -/
theorem columnOption_reads (settings : Settings) (phrase : NamedOptionPhrase)
    (hs : s.nesting = 0) (hp : phrase.option.Admissible settings.maxExpressionDepth)
    (hr : endsPart (rest.headD .eof) = true) (h : s.cursor.ahead = phrase.tokens ++ rest) :
    Reads (columnOption settings) s phrase.tokens rest (phrase.named settings) := by
  rcases phrase with ⟨name, option⟩
  rw [NamedOptionPhrase.tokens, List.append_assoc] at h
  have hname : (option.tokens ++ rest).headD .eof ≠ .keyword .constraint := by
    cases option <;> exact nofun
  obtain ⟨s₁, hc, h₁, ha₁⟩ := constraintName?_reads settings name hname h
  cases option with
  | notNull =>
    obtain ⟨s₂, hn, h₂, ha₂⟩ := next_reads ha₁ (by decide)
    obtain ⟨s₃, hk, h₃, ha₃⟩ := require_reads ha₂ (by decide)
    refine ⟨s₃, ?_, h₁.trans (h₂.trans h₃), ha₃⟩
    rw [columnOption, run_bind hc, run_bind hn]
    exact run_bind hk
  | null =>
    obtain ⟨s₂, hn, h₂, ha₂⟩ := next_reads ha₁ (by decide)
    refine ⟨s₂, ?_, h₁.trans h₂, ha₂⟩
    rw [columnOption, run_bind hc, run_bind hn]
    rfl
  | default value =>
    obtain ⟨s₂, hn, h₂, ha₂⟩ := next_reads ha₁ (by decide)
    have hs₂ : s₂.nesting = 0 := (h₁.trans h₂).nesting.trans hs
    obtain ⟨s₃, he, h₃, ha₃⟩ := expression_reads settings value hs₂ hp
      (ne_of_endsPart hr rfl) ha₂
    refine ⟨s₃, ?_, h₁.trans (h₂.trans h₃), ha₃⟩
    rw [columnOption, run_bind hc, run_bind hn]
    exact run_bind he
  | primaryKey =>
    obtain ⟨s₂, hn, h₂, ha₂⟩ := next_reads ha₁ (by decide)
    obtain ⟨s₃, hk, h₃, ha₃⟩ := require_reads ha₂ (by decide)
    refine ⟨s₃, ?_, h₁.trans (h₂.trans h₃), ha₃⟩
    rw [columnOption, run_bind hc, run_bind hn]
    exact run_bind hk
  | unique =>
    obtain ⟨s₂, hn, h₂, ha₂⟩ := next_reads ha₁ (by decide)
    refine ⟨s₂, ?_, h₁.trans h₂, ha₂⟩
    rw [columnOption, run_bind hc, run_bind hn]
    rfl
  | references reference =>
    obtain ⟨s₂, hn, h₂, ha₂⟩ := next_reads ha₁ (by decide)
    obtain ⟨s₃, hf, h₃, ha₃⟩ := foreignKey_reads settings reference hp hr ha₂
    refine ⟨s₃, ?_, h₁.trans (h₂.trans h₃), ha₃⟩
    rw [columnOption, run_bind hc, run_bind hn]
    exact run_bind hf

/-- Whether one of some options gives a default. -/
def anyDefault (found : List NamedOption) : Bool := found.any (·.option.default?.isSome)

/-- A step through the options of a column ended, or it read an option that is not a second
default. -/
theorem columnStep_ok {found : List NamedOption} {result : List NamedOption ⊕ List NamedOption}
    (hc : s.cursor.Closed) (h : columnStep settings found s = .ok result s') :
    (result = .inr found.reverse ∧ s = s') ∨
      ∃ phrase : NamedOptionPhrase, phrase.option.Admissible settings.maxExpressionDepth ∧
        (phrase.option.default?.isSome && anyDefault found) = false ∧
        result = .inl (phrase.named settings :: found) ∧
        s.cursor.Passes phrase.tokens s'.cursor := by
  obtain ⟨token, s₁, hp, h⟩ := bind_ok h
  obtain ⟨-, rfl⟩ := peek_ok hp
  cases he : endsColumn token with
  | true =>
    rw [he] at h
    obtain ⟨rfl, rfl⟩ := pure_ok h
    exact Or.inl ⟨rfl, rfl⟩
  | false =>
    rw [he] at h
    obtain ⟨start, s₂, hs, h⟩ := bind_ok h
    cases hs
    obtain ⟨_, s₂, ho, h⟩ := bind_ok h
    obtain ⟨phrase, hg, rfl, h₁⟩ := columnOption_ok hc ho
    rw [phrase.isSome_default?_named settings] at h
    cases hd : phrase.option.default?.isSome && anyDefault found with
    | true =>
      rw [anyDefault] at hd
      rw [hd] at h
      obtain ⟨_, _, hf, -⟩ := bind_ok h
      exact (fail_ok hf).elim
    | false =>
      rw [anyDefault] at hd
      rw [hd] at h
      obtain ⟨rfl, rfl⟩ := pure_ok h
      exact Or.inr ⟨phrase, hg, hd, rfl, h₁⟩

/-- With one more option there is a default if it gives one or one was there. -/
theorem anyDefault_cons (phrase : NamedOptionPhrase) (found : List NamedOption) :
    anyDefault (phrase.named settings :: found) =
      (phrase.option.default?.isSome || anyDefault found) := by
  rw [anyDefault, List.any_cons, phrase.isSome_default?_named settings, anyDefault]

/-- The defaults of some options, one more if the first of them gives one. -/
theorem length_defaults_cons (phrase : NamedOptionPhrase) (phrases : List NamedOptionPhrase) :
    ((phrase :: phrases).filterMap (·.option.default?)).length =
      phrase.option.default?.isSome.toNat + (phrases.filterMap (·.option.default?)).length := by
  cases hd : phrase.option.default? with
  | none => simp only [List.filterMap_cons, hd, Option.isSome_none, Bool.toNat_false, Nat.zero_add]
  | some value =>
    simp only [List.filterMap_cons, hd, List.length_cons, Option.isSome_some, Bool.toNat_true,
      Nat.add_comm]

/-- Counted with those found before, options hold at most one default when the first of them
is no second one and the others hold at most one, counted with it too. -/
theorem oneDefault_cons_iff (phrase : NamedOptionPhrase) (phrases : List NamedOptionPhrase)
    (found : List NamedOption) :
    ((phrase :: phrases).filterMap (·.option.default?)).length + (anyDefault found).toNat ≤ 1 ↔
      (phrase.option.default?.isSome && anyDefault found) = false ∧
        (phrases.filterMap (·.option.default?)).length +
          (anyDefault (phrase.named settings :: found)).toNat ≤ 1 := by
  rw [length_defaults_cons, anyDefault_cons]
  cases phrase.option.default?.isSome with
  | false =>
    rw [Bool.toNat_false, Nat.zero_add, Bool.false_and, Bool.false_or]
    exact ⟨fun h => ⟨rfl, h⟩, fun h => h.2⟩
  | true =>
    rw [Bool.toNat_true, Bool.true_and, Bool.true_or, Bool.toNat_true]
    cases anyDefault found with
    | false =>
      rw [Bool.toNat_false]
      constructor
      · intro h
        exact ⟨rfl, by omega⟩
      · rintro ⟨-, h⟩
        omega
    | true =>
      rw [Bool.toNat_true]
      constructor
      · intro h
        omega
      · rintro ⟨h, -⟩
        cases h

/-- The options that were read hold at most one default, counted with those found before. -/
theorem columnOptions_ok {found options : List NamedOption} (hc : s.cursor.Closed)
    (h : repeatStep (columnStep settings) found s = .ok options s') :
    ∃ phrases : List NamedOptionPhrase,
      (∀ phrase ∈ phrases, phrase.option.Admissible settings.maxExpressionDepth) ∧
      options = found.reverse ++ phrases.map (·.named settings) ∧
      (phrases.filterMap (·.option.default?)).length + (anyDefault found).toNat ≤ 1 ∧
      s.cursor.Passes (phrases.flatMap NamedOptionPhrase.tokens) s'.cursor := by
  revert hc
  refine repeatStep_ok (motive := fun found s options s' => s.cursor.Closed →
    ∃ phrases : List NamedOptionPhrase,
      (∀ phrase ∈ phrases, phrase.option.Admissible settings.maxExpressionDepth) ∧
      options = found.reverse ++ phrases.map (·.named settings) ∧
      (phrases.filterMap (·.option.default?)).length + (anyDefault found).toNat ≤ 1 ∧
      s.cursor.Passes (phrases.flatMap NamedOptionPhrase.tokens) s'.cursor) ?_ ?_ h
  · intro found s options s' h hc
    rcases columnStep_ok hc h with ⟨he, rfl⟩ | ⟨phrase, -, -, he, -⟩
    · cases he
      refine ⟨[], nofun, (List.append_nil _).symm, ?_, .refl _⟩
      rw [List.filterMap_nil, List.length_nil, Nat.zero_add]
      exact Bool.toNat_le _
    · cases he
  · intro found s found' s₁ options s' h ih hc
    rcases columnStep_ok hc h with ⟨he, -⟩ | ⟨phrase, hg, hd, he, h₁⟩
    · cases he
    · cases he
      obtain ⟨phrases, ha, rfl, hone, h₂⟩ := ih (h₁.closed hc)
      refine ⟨phrase :: phrases, List.forall_mem_cons.mpr ⟨hg, ha⟩, ?_, ?_, h₁.trans h₂⟩
      · rw [List.reverse_cons, List.append_assoc, List.map_cons]
        rfl
      · exact (oneDefault_cons_iff phrase phrases found).mpr ⟨hd, hone⟩

/-- Every option begins with a keyword that does not end a column. -/
theorem first_of_option (phrase : NamedOptionPhrase) (rest : List Token) :
    endsPart ((phrase.tokens ++ rest).headD .eof) = true ∧
      endsColumn ((phrase.tokens ++ rest).headD .eof) = false ∧
      (phrase.tokens ++ rest).headD .eof ≠ .keyword .collate := by
  rcases phrase with ⟨_ | name, option⟩
  · cases option <;> exact ⟨rfl, rfl, nofun⟩
  · exact ⟨rfl, rfl, nofun⟩

/-- What ends a column ends its parts and begins no collation. -/
theorem endsPart_of_endsColumn {token : Token} (h : endsColumn token = true) :
    endsPart token = true ∧ token ≠ .keyword .collate := by
  cases token with
  | comma | semicolon | rightParen | eof => exact ⟨rfl, nofun⟩
  | _ => cases h

/-- A column ends before a comma and before a closing parenthesis. -/
theorem endsColumn_of_closes {token : Token} (h : token = .comma ∨ token = .rightParen) :
    endsColumn token = true := by
  rcases h with rfl | rfl <;> rfl

/-- Options are followed by more options or by what follows them all. -/
theorem first_of_options (phrases : List NamedOptionPhrase)
    (hend : endsColumn (rest.headD .eof) = true) :
    endsPart ((phrases.flatMap NamedOptionPhrase.tokens ++ rest).headD .eof) = true ∧
      (phrases.flatMap NamedOptionPhrase.tokens ++ rest).headD .eof ≠ .keyword .collate := by
  cases phrases with
  | nil => exact endsPart_of_endsColumn hend
  | cons phrase phrases =>
    rw [List.flatMap_cons, List.append_assoc]
    obtain ⟨hp, -, hcollate⟩ := first_of_option phrase
      (phrases.flatMap NamedOptionPhrase.tokens ++ rest)
    exact ⟨hp, hcollate⟩

/-- A step through the options of a column behind an option that began at a place. -/
def stepRest (found : List NamedOption) (named : NamedOption) (start : Position) :
    Reading (List NamedOption ⊕ List NamedOption) := do
  if named.option.default?.isSome && anyDefault found then fail (.duplicateClause .default start)
  return .inl (named :: found)

/-- Where an option stands, a step through the options of a column reads it. -/
theorem columnStep_atOption (phrase : NamedOptionPhrase) (found : List NamedOption)
    (h : s.cursor.ahead = phrase.tokens ++ rest) :
    columnStep settings found s =
      (columnOption settings >>= fun named => stepRest found named s.cursor.position) s := by
  have hpeek : peek s = .ok s.cursor.peek s := rfl
  have hends : endsColumn s.cursor.peek = false := by
    rw [peek_eq_headD h]
    exact (first_of_option phrase rest).2.1
  rw [columnStep, run_bind hpeek, hends]
  rfl

/-- An option is read where it stands, before it is asked whether it is a second default. -/
theorem columnStep_upToCheck (phrase : NamedOptionPhrase) (found : List NamedOption)
    (hs : s.nesting = 0) (hp : phrase.option.Admissible settings.maxExpressionDepth)
    (hr : endsPart (rest.headD .eof) = true) (h : s.cursor.ahead = phrase.tokens ++ rest) :
    ∃ s₁, columnStep settings found s =
        stepRest found (phrase.named settings) s.cursor.position s₁ ∧
      s.Passes phrase.tokens s₁ ∧ s₁.cursor.ahead = rest := by
  obtain ⟨s₁, ho, h₁⟩ := columnOption_reads settings phrase hs hp hr h
  exact ⟨s₁, (columnStep_atOption phrase found h).trans (run_bind ho), h₁⟩

/-- An option that is not a second default is read where it stands. -/
theorem columnStep_reads (phrase : NamedOptionPhrase) (found : List NamedOption)
    (hs : s.nesting = 0) (hp : phrase.option.Admissible settings.maxExpressionDepth)
    (hd : (phrase.option.default?.isSome && anyDefault found) = false)
    (hr : endsPart (rest.headD .eof) = true) (h : s.cursor.ahead = phrase.tokens ++ rest) :
    Reads (columnStep settings found) s phrase.tokens rest
      (.inl (phrase.named settings :: found)) := by
  obtain ⟨s₁, hstep, h₁⟩ := columnStep_upToCheck phrase found hs hp hr h
  refine ⟨s₁, ?_, h₁⟩
  rw [hstep, stepRest, phrase.isSome_default?_named settings, hd]
  rfl

/-- A second default is refused where its option begins. -/
theorem columnStep_repeated (phrase : NamedOptionPhrase) (found : List NamedOption)
    (hs : s.nesting = 0) (hp : phrase.option.Admissible settings.maxExpressionDepth)
    (hd : (phrase.option.default?.isSome && anyDefault found) = true)
    (hr : endsPart (rest.headD .eof) = true) (h : s.cursor.ahead = phrase.tokens ++ rest) :
    ∃ s', columnStep settings found s =
      .error (.error (.duplicateClause .default s.cursor.position)) s' := by
  obtain ⟨s₁, hstep, -⟩ := columnStep_upToCheck phrase found hs hp hr h
  refine ⟨s₁, ?_⟩
  rw [hstep, stepRest, phrase.isSome_default?_named settings, hd]
  rfl

/-- Options with at most one default are passed over where they stand, whatever option or end of
the column follows them. -/
theorem columnOptions_goOn (phrases : List NamedOptionPhrase) (found : List NamedOption)
    (hs : s.nesting = 0)
    (hp : ∀ phrase ∈ phrases, phrase.option.Admissible settings.maxExpressionDepth)
    (hone : (phrases.filterMap (·.option.default?)).length + (anyDefault found).toNat ≤ 1)
    (hr : endsPart (rest.headD .eof) = true)
    (h : s.cursor.ahead = phrases.flatMap NamedOptionPhrase.tokens ++ rest) :
    GoesOn (columnStep settings) found s (phrases.flatMap NamedOptionPhrase.tokens) rest
      ((phrases.map (·.named settings)).reverse ++ found) := by
  induction phrases generalizing s found with
  | nil => exact .refl h
  | cons phrase phrases ih =>
    rw [List.flatMap_cons, List.append_assoc] at h
    obtain ⟨hg, hp⟩ := List.forall_mem_cons.mp hp
    obtain ⟨hd, hone⟩ := (oneDefault_cons_iff phrase phrases found).mp hone
    have hfollowed : endsPart
        ((phrases.flatMap NamedOptionPhrase.tokens ++ rest).headD .eof) = true := by
      cases phrases with
      | nil => exact hr
      | cons second others =>
        rw [List.flatMap_cons, List.append_assoc]
        exact (first_of_option second _).1
    rw [List.map_cons, List.reverse_cons, List.append_assoc]
    exact .again (columnStep_reads phrase found hs hg hd hfollowed h) phrase.tokens_ne_nil
      fun _ hn ha => ih _ (hn.trans hs) hp hone ha

/-- Options with at most one default are read where they stand, up to the end of their
column. -/
theorem columnOptions_reads (phrases : List NamedOptionPhrase) (found : List NamedOption)
    (hs : s.nesting = 0)
    (hp : ∀ phrase ∈ phrases, phrase.option.Admissible settings.maxExpressionDepth)
    (hone : (phrases.filterMap (·.option.default?)).length + (anyDefault found).toNat ≤ 1)
    (hend : endsColumn (rest.headD .eof) = true)
    (h : s.cursor.ahead = phrases.flatMap NamedOptionPhrase.tokens ++ rest) :
    Reads (repeatStep (columnStep settings) found) s (phrases.flatMap NamedOptionPhrase.tokens)
      rest (found.reverse ++ phrases.map (·.named settings)) := by
  have hr := (endsPart_of_endsColumn hend).1
  refine (columnOptions_goOn phrases found hs hp hone hr h).last fun s₁ ha => ?_
  have hpeek : peek s₁ = .ok s₁.cursor.peek s₁ := rfl
  rw [columnStep, run_bind hpeek, peek_eq_headD ha, hend, List.reverse_append, List.reverse_reverse]
  rfl

/-- A collation that was read is written behind `COLLATE`, or none was read. -/
theorem collation?_ok {collation : Option ObjectName}
    (h : collation? settings s = .ok collation s') :
    ∃ names : Option Identifiers, names.map (·.name settings) = collation ∧
      s.cursor.Passes (ColumnPhrase.collationTokens names) s'.cursor := by
  obtain ⟨found, s₁, hc, h⟩ := bind_ok h
  rcases consume_ok hc (by decide) with ⟨rfl, h₁⟩ | ⟨rfl, rfl⟩
  · obtain ⟨name, s₂, hn, h⟩ := bind_ok h
    obtain ⟨names, rfl, h₂⟩ := objectName_ok hn
    obtain ⟨rfl, rfl⟩ := pure_ok h
    exact ⟨some names, rfl, h₁.trans h₂⟩
  · obtain ⟨rfl, rfl⟩ := pure_ok h
    exact ⟨none, rfl, .refl _⟩

/-- A collation is read where it stands, and none where `COLLATE` does not follow. -/
theorem collation?_reads (settings : Settings) (names : Option Identifiers)
    (hcollate : rest.headD .eof ≠ .keyword .collate) (hperiod : rest.headD .eof ≠ .period)
    (h : s.cursor.ahead = ColumnPhrase.collationTokens names ++ rest) :
    Reads (collation? settings) s (ColumnPhrase.collationTokens names) rest
      (names.map (·.name settings)) := by
  cases names with
  | none =>
    have hp : s.cursor.peek ≠ .keyword .collate := peek_eq_headD h ▸ hcollate
    refine ⟨s, ?_, .refl _, h⟩
    rw [collation?, consumeKeyword, run_bind (consume_miss hp)]
    rfl
  | some names =>
    obtain ⟨s₁, hc, h₁, ha₁⟩ :=
      consume_reads (show _ = Token.keyword .collate :: _ from h) (by decide)
    obtain ⟨s₂, hn, h₂, ha₂⟩ := objectName_reads settings names hperiod ha₁
    refine ⟨s₂, ?_, h₁.trans h₂, ha₂⟩
    rw [collation?, consumeKeyword, run_bind hc]
    exact run_bind hn

/-- A column that was read is a column that is written. -/
theorem columnEntry_ok {entry : ColumnEntry} (hc : s.cursor.Closed)
    (h : columnEntry settings s = .ok entry s') :
    ∃ phrase : ColumnPhrase, phrase.Admissible settings.maxExpressionDepth ∧
      phrase.entry settings = entry ∧ s.cursor.Passes phrase.tokens s'.cursor := by
  obtain ⟨_, s₁, hname, h⟩ := bind_ok h
  obtain ⟨name, rfl, h₁⟩ := identifier_ok hname
  obtain ⟨_, s₂, htype, h⟩ := bind_ok h
  obtain ⟨dataType, rfl, h₂⟩ := dataType_ok htype
  obtain ⟨_, s₃, hcollation, h⟩ := bind_ok h
  obtain ⟨collation, rfl, h₃⟩ := collation?_ok hcollation
  obtain ⟨_, s₄, hoptions, h⟩ := bind_ok h
  have hc₃ := h₃.closed (h₂.closed (h₁.closed hc))
  obtain ⟨options, hp, rfl, hone, h₄⟩ := columnOptions_ok hc₃ hoptions
  cases h
  refine ⟨⟨name, dataType, collation, options⟩, ⟨hp, hone⟩, ?_, ?_⟩
  · exact (ColumnPhrase.ofOptions_eq_entry settings ⟨name, dataType, collation, options⟩).symm
  · exact h₁.trans (h₂.trans (h₃.trans h₄))

/-- A column behind its collation. -/
def columnRest (settings : Settings) (name : String) (dataType : DataType)
    (collation : Option ObjectName) : Reading ColumnEntry := do
  let entry := ColumnEntry.ofOptions name dataType collation
    (← repeatStep (columnStep settings) [])
  record (.column name dataType entry.constraints.length)
  return entry

/-- A column is read up to its options where it stands, if it ends behind them. -/
theorem columnEntry_upToOptions (settings : Settings) (phrase : ColumnPhrase)
    (hend : endsColumn (rest.headD .eof) = true) (h : s.cursor.ahead = phrase.tokens ++ rest) :
    ∃ s₁, columnEntry settings s = columnRest settings (phrase.name.meaning settings)
        (phrase.dataType.meaning settings) (phrase.collation.map (·.name settings)) s₁ ∧
      s.Passes phrase.plain.tokens s₁ ∧
      s₁.cursor.ahead = phrase.options.flatMap NamedOptionPhrase.tokens ++ rest := by
  rw [ColumnPhrase.tokens, List.append_assoc, List.append_assoc, List.append_assoc] at h
  obtain ⟨hpart, hcollate⟩ := first_of_options phrase.options hend
  have htype : endsPart ((ColumnPhrase.collationTokens phrase.collation ++
      (phrase.options.flatMap NamedOptionPhrase.tokens ++ rest)).headD .eof) = true := by
    cases phrase.collation with
    | none => exact hpart
    | some names => rfl
  obtain ⟨s₁, hn, h₁, ha₁⟩ := identifier_reads settings
    .columnName phrase.name h
  obtain ⟨s₂, ht, h₂, ha₂⟩ := dataType_reads settings phrase.dataType htype ha₁
  obtain ⟨s₃, hc, h₃, ha₃⟩ := collation?_reads settings phrase.collation hcollate
    (ne_of_endsPart hpart rfl) ha₂
  refine ⟨s₃, ?_, h₁.trans (h₂.trans (h₃.trans (.refl s₃))), ha₃⟩
  rw [columnEntry, run_bind hn, run_bind ht, run_bind hc]
  rfl

/-- A column is read where it stands, if its entry ends behind it. -/
theorem columnEntry_reads (settings : Settings) (phrase : ColumnPhrase) (hs : s.nesting = 0)
    (hp : phrase.Admissible settings.maxExpressionDepth)
    (hend : endsColumn (rest.headD .eof) = true)
    (h : s.cursor.ahead = phrase.tokens ++ rest) :
    Reads (columnEntry settings) s phrase.tokens rest (phrase.entry settings) := by
  obtain ⟨s₁, hc, h₁, ha₁⟩ := columnEntry_upToOptions settings phrase hend h
  obtain ⟨s₂, ho, h₂, ha₂⟩ := columnOptions_reads phrase.options [] (h₁.nesting.trans hs)
    hp.options hp.oneDefault hend ha₁
  obtain ⟨s₃, hrec, h₃, ha₃⟩ := record_reads (.column (phrase.name.meaning settings)
    (phrase.dataType.meaning settings) (phrase.entry settings).constraints.length) ha₂
  rw [← phrase.plain_tokens]
  refine ⟨s₃, ?_, (h₁.trans h₂).stay h₃, ha₃⟩
  rw [hc, columnRest, run_bind ho, List.reverse_nil, List.nil_append,
    ColumnPhrase.ofOptions_eq_entry settings phrase]
  exact run_bind hrec

/-- An entry that was read is an entry that is written. -/
theorem tableEntry_ok {entry : TableEntry} (hc : s.cursor.Closed)
    (h : tableEntry settings s = .ok entry s') :
    ∃ phrase : EntryPhrase, phrase.Admissible settings.maxExpressionDepth ∧
      phrase.entry settings = entry ∧ s.cursor.Passes phrase.tokens s'.cursor := by
  obtain ⟨result, s₁, ht, h⟩ := bind_ok h
  have hs := tableConstraint_ok hc ht
  cases result with
  | found declared =>
    obtain ⟨rfl, rfl⟩ := pure_ok h
    obtain ⟨name, phrase, attributes, hp, hd, h₁⟩ := hs
    refine ⟨.constraint name phrase attributes, hp, ?_, h₁⟩
    cases hd
    rfl
  | discarded =>
    obtain ⟨rfl, rfl⟩ := pure_ok h
    obtain ⟨name, h₁⟩ := hs
    exact ⟨.null name, trivial, rfl, h₁⟩
  | absent =>
    have h₁ : s.cursor.Passes [] s₁.cursor := hs
    obtain ⟨token, s₂, hp, h⟩ := bind_ok h
    obtain ⟨-, rfl⟩ := peek_ok hp
    cases hw : token.isWord with
    | true =>
      rw [hw] at h
      obtain ⟨column, s₃, he, h⟩ := bind_ok h
      obtain ⟨phrase, ha, rfl, h₂⟩ := columnEntry_ok (h₁.closed hc) he
      obtain ⟨rfl, rfl⟩ := pure_ok h
      exact ⟨.column phrase, ha, rfl, h₁.trans h₂⟩
    | false =>
      rw [hw] at h
      exact (reject_ok h).elim

/-- An entry is read where it stands, if it ends there. -/
theorem tableEntry_reads (settings : Settings) (phrase : EntryPhrase) (hs : s.nesting = 0)
    (hp : phrase.Admissible settings.maxExpressionDepth)
    (hend : rest.headD .eof = .comma ∨ rest.headD .eof = .rightParen)
    (h : s.cursor.ahead = phrase.tokens ++ rest) :
    Reads (tableEntry settings) s phrase.tokens rest (phrase.entry settings) := by
  cases phrase with
  | column phrase =>
    have ha : s.cursor.ahead = phrase.tokens ++ rest := h
    obtain ⟨s₁, ht, h₁, ha₁⟩ := tableConstraint_reads_word settings ha
    have hpeek : peek s₁ = .ok (.word phrase.name.word) s₁ := run_peek ha₁
    obtain ⟨s₂, hc, h₂, ha₂⟩ := columnEntry_reads settings phrase (h₁.nesting.trans hs) hp
      (endsColumn_of_closes hend) ha₁
    refine ⟨s₂, ?_, h₁.trans h₂, ha₂⟩
    rw [tableEntry, run_bind ht]
    dsimp only
    rw [run_bind hpeek]
    exact run_bind hc
  | constraint name phrase attributes =>
    obtain ⟨s₁, ht, h₁⟩ := tableConstraint_reads settings name phrase attributes hp
      hend h
    refine ⟨s₁, ?_, h₁⟩
    rw [tableEntry, run_bind ht]
    rfl
  | null name =>
    obtain ⟨s₁, ht, h₁⟩ := tableConstraint_reads_null settings name h
    refine ⟨s₁, ?_, h₁⟩
    rw [tableEntry, run_bind ht]
    rfl

/-- No entry begins with a closing parenthesis. -/
theorem first_of_entry_ne_rightParen (phrase : EntryPhrase) (rest : List Token) :
    (phrase.tokens ++ rest).headD .eof ≠ .rightParen := by
  cases phrase with
  | column phrase => exact nofun
  | constraint name phrase attributes =>
    cases name with
    | none => cases phrase <;> exact nofun
    | some name => exact nofun
  | null name => cases name <;> exact nofun

/-- The entries of a table are the list behind its opening parenthesis. -/
theorem tableEntries_eq :
    tableEntries settings = (do
      if ← consume .leftParen then listRest (tableEntry settings) .entrySeparator
      else return []) :=
  rfl

/-- Entries that were read are entries that are written, or there is no parenthesis. -/
theorem tableEntries_ok {values : List TableEntry} (hc : s.cursor.Closed)
    (h : tableEntries settings s = .ok values s') :
    ∃ entries : Option (List EntryPhrase),
      (∀ entry ∈ entries.getD [], entry.Admissible settings.maxExpressionDepth) ∧
      (entries.getD []).map (·.entry settings) = values ∧
      s.cursor.Passes (Sentence.entryTokens entries) s'.cursor := by
  rw [tableEntries_eq] at h
  obtain ⟨found, s₁, hp, h⟩ := bind_ok h
  rcases consume_ok hp (by decide) with ⟨rfl, h₁⟩ | ⟨rfl, rfl⟩
  · obtain ⟨entries, hg, rfl, h₂⟩ := listRest_ok tableEntry_ok (h₁.closed hc) h
    exact ⟨some entries, hg, rfl, h₁.trans h₂⟩
  · obtain ⟨rfl, rfl⟩ := pure_ok h
    exact ⟨none, fun _ => (absurd · List.not_mem_nil), rfl, .refl _⟩

/-- Entries are read where they stand, and none where no parenthesis follows. -/
theorem tableEntries_reads (entries : Option (List EntryPhrase)) (hs : s.nesting = 0)
    (hp : ∀ entry ∈ entries.getD [], entry.Admissible settings.maxExpressionDepth)
    (hr : rest.headD .eof ≠ .leftParen)
    (h : s.cursor.ahead = Sentence.entryTokens entries ++ rest) :
    Reads (tableEntries settings) s (Sentence.entryTokens entries) rest
      ((entries.getD []).map (·.entry settings)) := by
  cases entries with
  | none =>
    have hm : s.cursor.peek ≠ .leftParen := peek_eq_headD h ▸ hr
    refine ⟨s, ?_, .refl _, h⟩
    rw [tableEntries_eq, run_bind (consume_miss hm)]
    rfl
  | some entries =>
    rw [Sentence.entryTokens, List.append_assoc] at h
    obtain ⟨s₁, hc, h₁, ha₁⟩ := consume_reads h (by decide)
    obtain ⟨s₂, hl, h₂, ha₂⟩ := listRest_reads
      (fun entry hm _ _ hs hend ha => tableEntry_reads settings entry hs (hp entry hm) hend ha)
      first_of_entry_ne_rightParen (h₁.nesting.trans hs) ha₁
    refine ⟨s₂, ?_, h₁.trans h₂, ha₂⟩
    rw [tableEntries_eq, run_bind hc]
    exact hl

end Grammar

end SqlDdl
