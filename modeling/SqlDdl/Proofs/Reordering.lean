import Mathlib.Data.List.Induction
import Mathlib.Data.List.Nodup
import SqlDdl.Proofs.Columns

/-!
# The order of options and clauses

The options of a column may stand in any order, and so may the `ON` clauses of a
reference: each ends where the next one begins, whatever that is. What is read does not
depend on the order but for the list of constraints, which has the order of the options.
What must not repeat is refused in every order, at the beginning of the option or clause
that repeats first.
-/

namespace SqlDdl

open Grammar (ColumnEntry)

/-- Where occasions repeat, one clause is the first for an occasion that was taken before. -/
theorem ActionClause.exists_firstRepeat {clauses : List ActionClause}
    (h : ¬ (clauses.map (·.occasion)).Nodup) :
    ∃ before clause behind, clauses = before ++ clause :: behind ∧
      (before.map (·.occasion)).Nodup ∧ clause.occasion ∈ before.map (·.occasion) := by
  induction clauses using List.reverseRecOn with
  | nil => exact absurd List.nodup_nil h
  | append_singleton front last ih =>
    by_cases hfront : (front.map (·.occasion)).Nodup
    · refine ⟨front, last, [], rfl, hfront, Decidable.of_not_not fun hlast => h ?_⟩
      have hnodup : (last.occasion :: front.map (·.occasion)).Nodup :=
        List.nodup_cons.mpr ⟨hlast, hfront⟩
      rw [List.map_append, List.map_singleton]
      exact (List.perm_append_singleton _ _).nodup_iff.mpr hnodup
    · obtain ⟨before, clause, behind, rfl, hb, hc⟩ := ih hfront
      exact ⟨before, clause, behind ++ [last], by rw [List.append_assoc]; rfl, hb, hc⟩

/-- Where two options or more give a default, one of them is the second. -/
theorem NamedOptionPhrase.exists_secondDefault {options : List NamedOptionPhrase}
    (h : 2 ≤ (options.filterMap (·.option.default?)).length) :
    ∃ before named behind, options = before ++ named :: behind ∧
      (before.filterMap (·.option.default?)).length = 1 ∧
      named.option.default?.isSome = true := by
  induction options using List.reverseRecOn with
  | nil => cases h
  | append_singleton front last ih =>
    by_cases hfront : 2 ≤ (front.filterMap (·.option.default?)).length
    · obtain ⟨before, named, behind, rfl, hb, hn⟩ := ih hfront
      exact ⟨before, named, behind ++ [last], by rw [List.append_assoc]; rfl, hb, hn⟩
    · rw [List.filterMap_append, List.length_append, Grammar.length_defaults_cons,
        List.filterMap_nil, List.length_nil] at h
      cases hlast : last.option.default?.isSome with
      | false =>
        rw [hlast, Bool.toNat_false] at h
        omega
      | true =>
        rw [hlast, Bool.toNat_true] at h
        exact ⟨front, last, [], rfl, by omega, hlast⟩

/-- The constraint that an option declares on a column, if it declares one. -/
def NamedOptionPhrase.constraint? (settings : Settings) (column : Identifier)
    (named : NamedOptionPhrase) : Option Constraint :=
  (named.option.kind? settings).map fun kind =>
    .plain (named.name.map (·.meaning settings)) kind [column.meaning settings]

namespace ColumnPhrase

variable {settings : Settings} {phrase : ColumnPhrase} {options : List NamedOptionPhrase}

/-- A column with one default or none has the same default with its options in another order. -/
theorem defaults_perm (h : phrase.options.Perm options) (hone : phrase.defaults.length ≤ 1) :
    ({ phrase with options := options } : ColumnPhrase).defaults = phrase.defaults := by
  have hperm : phrase.defaults.Perm ({ phrase with options := options } : ColumnPhrase).defaults :=
    h.filterMap _
  cases hd : phrase.defaults with
  | nil =>
    rw [hd] at hperm
    exact hperm.nil_eq.symm
  | cons first others =>
    rw [hd] at hperm hone
    obtain rfl : others = [] :=
      List.eq_nil_of_length_eq_zero (Nat.le_zero.mp (Nat.le_of_succ_le_succ hone))
    exact hperm.singleton_eq.symm

/-- A column with one default or none is the same with its options in another order. -/
theorem column_perm (h : phrase.options.Perm options) (hone : phrase.defaults.length ≤ 1) :
    ({ phrase with options := options } : ColumnPhrase).column settings =
      phrase.column settings := by
  rw [column, column, defaults_perm h hone, h.any_eq]

end ColumnPhrase

namespace ReferencePhrase

variable {settings : Settings} {phrase : ReferencePhrase} {clauses : List ActionClause}

/-- Where occasions do not repeat, the action for an occasion is the one of the clause for it. -/
theorem action?_eq_some_iff (hp : phrase.Admissible) {occasion : Occasion}
    {action : ReferentialAction} :
    phrase.action? occasion = some action ↔ ⟨occasion, action⟩ ∈ phrase.clauses := by
  constructor
  · intro h
    obtain ⟨clause, hf, rfl⟩ := Option.map_eq_some_iff.mp h
    have ho := List.find?_some hf
    rw [← of_decide_eq_true ho]
    exact List.mem_of_find?_eq_some hf
  · intro hm
    have hsome : (phrase.clauses.find? (·.occasion = occasion)).isSome = true :=
      List.find?_isSome.mpr ⟨_, hm, decide_eq_true rfl⟩
    obtain ⟨clause, hf⟩ := Option.isSome_iff_exists.mp hsome
    have ho := List.find?_some hf
    -- No other clause is for the occasion, so this is the one that was found.
    have hc : clause = ⟨occasion, action⟩ :=
      List.inj_on_of_nodup_map hp (List.mem_of_find?_eq_some hf) hm (of_decide_eq_true ho)
    rw [action?, hf, hc]
    rfl

/-- A reference whose occasions do not repeat means the same with its clauses in another order. -/
theorem meaning_perm (h : phrase.clauses.Perm clauses) (hp : phrase.Admissible) :
    ({ phrase with clauses := clauses } : ReferencePhrase).meaning settings =
      phrase.meaning settings := by
  have hother : ({ phrase with clauses := clauses } : ReferencePhrase).Admissible :=
    (h.map _).nodup_iff.mp hp
  have haction (occasion : Occasion) :
      ({ phrase with clauses := clauses } : ReferencePhrase).action? occasion =
        phrase.action? occasion := by
    refine Option.ext fun action => ?_
    rw [action?_eq_some_iff hother, action?_eq_some_iff hp]
    exact h.mem_iff.symm
  rw [meaning, meaning, haction, haction]

end ReferencePhrase

namespace Grammar

/-- A column stands ahead with its end behind it, and no expression is begun. -/
structure AtColumn (s : State) (phrase : ColumnPhrase) (rest : List Token) : Prop where
  /-- No expression is begun. -/
  nesting : s.nesting = 0
  /-- The tokens of the column come next. -/
  ahead : s.cursor.ahead = phrase.tokens ++ rest
  /-- What stands behind them ends a column. -/
  ends : endsColumn (rest.headD .eof) = true

/-- A reference stands ahead with a token behind it that ends it. -/
structure AtReference (s : State) (phrase : ReferencePhrase) (rest : List Token) : Prop where
  /-- The tokens of the reference come next. -/
  ahead : s.cursor.ahead = phrase.tokens ++ rest
  /-- What stands behind them goes on with no part of the reference. -/
  ends : endsPart (rest.headD .eof) = true

/-- The reading of a column fails at its second default, where that option begins. -/
def RefusesSecondDefault (settings : Settings) (phrase : ColumnPhrase) (s : State) : Prop :=
  ∃ before named behind s', phrase.options = before ++ named :: behind ∧
    (before.filterMap (·.option.default?)).length = 1 ∧
    named.option.default?.isSome = true ∧
    columnEntry settings s = .error (.error (.duplicateClause .default
      (s.cursor.stream.position (s.cursor.index +
        ({ phrase with options := before } : ColumnPhrase).tokens.length)))) s'

/-- The reading of a reference fails at the first clause whose occasion was taken before, where that
clause begins. -/
def RefusesFirstRepeat (settings : Settings) (phrase : ReferencePhrase) (s : State) : Prop :=
  ∃ before clause behind s', phrase.clauses = before ++ clause :: behind ∧
    (before.map (·.occasion)).Nodup ∧ clause.occasion ∈ before.map (·.occasion) ∧
    foreignKey settings s = .error (.error (.duplicateClause clause.occasion.clause
      (s.cursor.stream.position (s.cursor.index +
        ({ phrase with clauses := before } : ReferencePhrase).tokens.length)))) s'

variable {settings : Settings} {s t : State} {rest more : List Token}

/-- A column with one default or none is read with its options in any order. -/
theorem AtColumn.reads {phrase : ColumnPhrase} (hs : AtColumn s phrase rest)
    (hp : ∀ named ∈ phrase.options, named.option.Admissible settings.maxExpressionDepth)
    (hone : phrase.defaults.length ≤ 1) :
    Reads (columnEntry settings) s phrase.tokens rest (phrase.entry settings) :=
  columnEntry_reads settings phrase hs.nesting ⟨hp, hone⟩ hs.ends hs.ahead

/-- Where options give a default, one is found among them. -/
theorem anyDefault_of_defaults {options : List NamedOptionPhrase}
    (h : 0 < (options.filterMap (·.option.default?)).length) :
    anyDefault (options.map (·.named settings)).reverse = true := by
  obtain ⟨value, hv⟩ := List.exists_mem_of_length_pos h
  obtain ⟨named, hm, hd⟩ := List.mem_filterMap.mp hv
  refine List.any_eq_true.mpr ⟨named.named settings, ?_, ?_⟩
  · exact List.mem_reverse.mpr (List.mem_map_of_mem hm)
  · rw [named.isSome_default?_named, hd]
    rfl

/-- A column with two defaults or more is refused at the second of them. -/
theorem AtColumn.refusesSecondDefault {phrase : ColumnPhrase} (hs : AtColumn s phrase rest)
    (hp : ∀ named ∈ phrase.options, named.option.Admissible settings.maxExpressionDepth)
    (htwo : 2 ≤ phrase.defaults.length) : RefusesSecondDefault settings phrase s := by
  obtain ⟨before, named, behind, hoptions, hone, hnamed⟩ :=
    NamedOptionPhrase.exists_secondDefault htwo
  obtain ⟨s₁, hc, h₁, ha₁⟩ := columnEntry_upToOptions settings phrase hs.ends hs.ahead
  have hp₁ : s₁.nesting = 0 := h₁.nesting.trans hs.nesting
  rw [hoptions] at hp
  rw [hoptions, List.flatMap_append, List.flatMap_cons, List.append_assoc, List.append_assoc] at ha₁
  obtain ⟨hpb, hpn⟩ := List.forall_mem_append.mp hp
  obtain ⟨hpn, -⟩ := List.forall_mem_cons.mp hpn
  have hfollowed : endsPart ((behind.flatMap NamedOptionPhrase.tokens ++ rest).headD .eof) = true :=
    (first_of_options behind hs.ends).1
  obtain ⟨s₂, hgo, h₂, ha₂⟩ := columnOptions_goOn before [] hp₁ hpb (Nat.le_of_eq hone)
    (first_of_option named _).1 ha₁
  have hsecond : (named.option.default?.isSome &&
      anyDefault ((before.map (·.named settings)).reverse ++ [])) = true := by
    rw [hnamed, List.append_nil, anyDefault_of_defaults (by rw [hone]; decide)]
    rfl
  obtain ⟨s₃, hstep⟩ := columnStep_repeated named _ (h₂.nesting.trans hp₁) hpn hsecond hfollowed ha₂
  have hpass : s.Passes ({ phrase with options := before } : ColumnPhrase).tokens s₂ := by
    rw [← ColumnPhrase.plain_tokens]
    exact h₁.trans h₂
  refine ⟨before, named, behind, s₃, hoptions, hone, hnamed, ?_⟩
  rw [hc, columnRest, ← hpass.position]
  exact run_bind_error (hgo.trans (repeatStep_failed hstep))

/-- The clauses of a reference are read in any order, if no occasion repeats. -/
theorem AtReference.reads {phrase : ReferencePhrase} (hs : AtReference s phrase rest)
    (hp : phrase.Admissible) :
    Reads (foreignKey settings) s phrase.tokens rest (phrase.meaning settings) :=
  foreignKey_reads settings phrase hp hs.ends hs.ahead

/-- A reference whose occasions repeat is refused at the clause that repeats first. -/
theorem AtReference.refusesFirstRepeat {phrase : ReferencePhrase} (hs : AtReference s phrase rest)
    (hp : ¬ phrase.Admissible) : RefusesFirstRepeat settings phrase s := by
  obtain ⟨before, clause, behind, hclauses, hn, hm⟩ := ActionClause.exists_firstRepeat hp
  obtain ⟨s₁, hc, h₁, ha₁⟩ := foreignKey_upToClauses settings phrase hs.ends hs.ahead
  rw [hclauses, List.flatMap_append, List.flatMap_cons, List.append_assoc, List.append_assoc] at ha₁
  obtain ⟨s₂, hgo, h₂, ha₂⟩ := referenceClauses_goOn before (phrase.plain.meaning settings) hn
    (by intro clause _; cases clause.occasion <;> rfl) ha₁
  have htaken : ((before.foldl ForeignKey.withClause (phrase.plain.meaning settings)).action?
      clause.occasion).isSome = true := by
    obtain ⟨taken, ht, ho⟩ := List.mem_map.mp hm
    rw [ForeignKey.action?_foldl_withClause before _ hn, Option.isSome_or, Option.isSome_map,
      List.find?_isSome.mpr ⟨taken, ht, decide_eq_true ho⟩]
    rfl
  obtain ⟨s₃, hstep⟩ := referenceClause_repeated clause htaken ha₂
  refine ⟨before, clause, behind, s₃, hclauses, hn, hm, ?_⟩
  have hpass : s.Passes ({ phrase with clauses := before } : ReferencePhrase).tokens s₂ := by
    rw [← ReferencePhrase.plain_tokens]
    exact h₁.trans h₂
  rw [hc, ← hpass.position]
  exact hgo.trans (repeatStep_failed hstep)

/-- The options of a column may be reordered: with one default or none both columns are read, they
are the same, and their constraints stand in the order of the options; with more defaults both are
refused at the second of them. The clauses of a reference may be reordered: it is read when no
occasion repeats, to the same reference in every order, and is else refused at the first clause
that repeats an occasion. -/
theorem clauses_reordered (settings : Settings) :
    (∀ {phrase : ColumnPhrase} {options : List NamedOptionPhrase} {s t : State}
        {rest more : List Token}, phrase.options.Perm options →
      (∀ named ∈ phrase.options, named.option.Admissible settings.maxExpressionDepth) →
      AtColumn s phrase rest → AtColumn t { phrase with options := options } more →
      (phrase.defaults.length ≤ 1 → ∃ column,
        Reads (columnEntry settings) s phrase.tokens rest
          ⟨column, phrase.options.filterMap (·.constraint? settings phrase.name)⟩ ∧
        Reads (columnEntry settings) t ({ phrase with options := options } : ColumnPhrase).tokens
          more ⟨column, options.filterMap (·.constraint? settings phrase.name)⟩) ∧
      (2 ≤ phrase.defaults.length → RefusesSecondDefault settings phrase s ∧
        RefusesSecondDefault settings { phrase with options := options } t)) ∧
    (∀ {phrase : ReferencePhrase} {s : State} {rest : List Token}, AtReference s phrase rest →
      ((∃ reference s', foreignKey settings s = .ok reference s') ↔
        (phrase.clauses.map (·.occasion)).Nodup) ∧
      ((phrase.clauses.map (·.occasion)).Nodup → ∀ {clauses : List ActionClause} {t : State}
          {more : List Token}, phrase.clauses.Perm clauses →
        AtReference t { phrase with clauses := clauses } more →
        Reads (foreignKey settings) s phrase.tokens rest (phrase.meaning settings) ∧
        Reads (foreignKey settings) t ({ phrase with clauses := clauses } : ReferencePhrase).tokens
          more (phrase.meaning settings)) ∧
      (¬ (phrase.clauses.map (·.occasion)).Nodup → RefusesFirstRepeat settings phrase s)) := by
  refine ⟨fun {phrase options s t rest more} hperm hp hs ht => ?_, fun {phrase s rest} hs => ?_⟩
  · have hp' : ∀ named ∈ options, named.option.Admissible settings.maxExpressionDepth :=
      fun named hm => hp named (hperm.mem_iff.mpr hm)
    have hdefaults : phrase.defaults.length =
        ({ phrase with options := options } : ColumnPhrase).defaults.length :=
      (hperm.filterMap _).length_eq
    refine ⟨fun hone => ⟨phrase.column settings, hs.reads hp hone, ?_⟩, fun htwo => ?_⟩
    · rw [← ColumnPhrase.column_perm hperm hone]
      exact ht.reads hp' (hdefaults ▸ hone)
    · exact ⟨hs.refusesSecondDefault hp htwo, ht.refusesSecondDefault hp' (hdefaults ▸ htwo)⟩
  · refine ⟨⟨fun ⟨reference, s', hok⟩ => ?_, fun hn => ?_⟩, fun hn clauses t more hperm ht => ?_,
      fun hn => hs.refusesFirstRepeat hn⟩
    · by_contra hn
      have hrefuses : RefusesFirstRepeat settings phrase s := hs.refusesFirstRepeat hn
      obtain ⟨_, _, _, _, -, -, -, herror⟩ := hrefuses
      rw [hok] at herror
      cases herror
    · have hreads : Reads (foreignKey settings) s phrase.tokens rest (phrase.meaning settings) :=
        hs.reads hn
      obtain ⟨s', hok, -⟩ := hreads
      exact ⟨_, s', hok⟩
    · have hn' : ({ phrase with clauses := clauses } : ReferencePhrase).Admissible :=
        (hperm.map _).nodup_iff.mp hn
      refine ⟨hs.reads hn, ?_⟩
      rw [← ReferencePhrase.meaning_perm hperm hn]
      exact ht.reads hn'

/-- A column stands ahead in the reading of its tokens. -/
theorem atColumn_stateOf (phrase : ColumnPhrase) : AtColumn (stateOf phrase.tokens) phrase [.eof] :=
  ⟨rfl, ahead_stateOf _, rfl⟩

/-- A reference stands ahead in the reading of its tokens. -/
theorem atReference_stateOf (phrase : ReferencePhrase) :
    AtReference (stateOf phrase.tokens) phrase [.eof] :=
  ⟨ahead_stateOf _, rfl⟩

/-- A column of whole numbers with the given options. -/
def amount (options : List NamedOptionPhrase) : ColumnPhrase where
  name := ⟨⟨"amount", false⟩, by decide⟩
  dataType := .plain .bigInt ⟨⟨"bigint", false⟩, rfl, by decide +kernel⟩
  collation := none
  options := options

/-- A reference to a table of owners with the given clauses. -/
def owners (clauses : List ActionClause) : ReferencePhrase where
  table := ⟨⟨⟨"owners", false⟩, by decide⟩, []⟩
  columns := none
  clauses := clauses

/-- A reference that sets a default, `NULL`, and a default. -/
def amountOptions : List NamedOptionPhrase :=
  [⟨none, .references (owners [⟨.delete, .setDefault⟩])⟩, ⟨none, .null⟩,
    ⟨none, .default (.literal (.number "1"))⟩]

/-- A clause for each occasion. -/
def ownersClauses : List ActionClause := [⟨.delete, .setNull⟩, ⟨.update, .cascade⟩]

/-- The options and the clauses are read in both directions, and refused when they are written
twice. -/
theorem clauses_reordered_amount :
    (∃ column,
      Reads (columnEntry .standard) (stateOf (amount amountOptions).tokens)
        (amount amountOptions).tokens [.eof]
        ⟨column, amountOptions.filterMap (·.constraint? .standard (amount []).name)⟩ ∧
      Reads (columnEntry .standard) (stateOf (amount amountOptions.reverse).tokens)
        (amount amountOptions.reverse).tokens [.eof]
        ⟨column, amountOptions.reverse.filterMap (·.constraint? .standard (amount []).name)⟩) ∧
    (RefusesSecondDefault .standard (amount (amountOptions ++ amountOptions))
        (stateOf (amount (amountOptions ++ amountOptions)).tokens) ∧
      RefusesSecondDefault .standard (amount (amountOptions ++ amountOptions).reverse)
        (stateOf (amount (amountOptions ++ amountOptions).reverse).tokens)) ∧
    (Reads (foreignKey .standard) (stateOf (owners ownersClauses).tokens)
        (owners ownersClauses).tokens [.eof]
        ⟨⟨["owners"]⟩, [], some .setNull, some .cascade⟩ ∧
      Reads (foreignKey .standard) (stateOf (owners ownersClauses.reverse).tokens)
        (owners ownersClauses.reverse).tokens [.eof]
        ⟨⟨["owners"]⟩, [], some .setNull, some .cascade⟩) ∧
    RefusesFirstRepeat .standard (owners (ownersClauses ++ ownersClauses))
      (stateOf (owners (ownersClauses ++ ownersClauses)).tokens) := by
  obtain ⟨hoptions, hclauses⟩ := clauses_reordered .standard
  refine ⟨?_, ?_, ?_, ?_⟩
  · exact (hoptions (List.reverse_perm _).symm (by decide) (atColumn_stateOf (amount amountOptions))
      (atColumn_stateOf (amount amountOptions.reverse))).1 (by decide)
  · exact (hoptions (List.reverse_perm _).symm (by decide)
      (atColumn_stateOf (amount (amountOptions ++ amountOptions)))
      (atColumn_stateOf (amount (amountOptions ++ amountOptions).reverse))).2 (by decide)
  · exact (hclauses (atReference_stateOf (owners ownersClauses))).2.1 (by decide)
      (List.reverse_perm _).symm (atReference_stateOf (owners ownersClauses.reverse))
  · exact (hclauses (atReference_stateOf (owners (ownersClauses ++ ownersClauses)))).2.2 (by decide)

end Grammar

end SqlDdl
