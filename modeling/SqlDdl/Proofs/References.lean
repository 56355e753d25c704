import SqlDdl.Grammar.Constraint
import SqlDdl.Proofs.Names

/-!
# Reading references in both directions

The clauses of a reference fill its two actions one after another. A clause is read
only while its action is open, so the clauses that were read have different
occasions, and any clauses with different occasions are read.
-/

namespace SqlDdl

/-- The clause that an error names for an occasion. -/
def Occasion.clause : Occasion → Clause
  | .delete => .onDelete
  | .update => .onUpdate

/-- A reference without its clauses. -/
def ReferencePhrase.plain (phrase : ReferencePhrase) : ReferencePhrase :=
  { phrase with clauses := [] }

/-- A reference is written with its clauses behind the rest of it. -/
theorem ReferencePhrase.plain_tokens (phrase : ReferencePhrase) :
    phrase.plain.tokens ++ phrase.clauses.flatMap ActionClause.tokens = phrase.tokens := by
  simp only [tokens, plain, List.flatMap_nil, List.append_nil, List.append_assoc]

/-- The action that a reference has for an occasion. -/
def ForeignKey.action? (reference : ForeignKey) : Occasion → Option ReferentialAction
  | .delete => reference.onDelete
  | .update => reference.onUpdate

/-- A reference with the action of a clause. -/
def ForeignKey.withClause (reference : ForeignKey) (clause : ActionClause) : ForeignKey :=
  match clause.occasion with
  | .delete => { reference with onDelete := some clause.action }
  | .update => { reference with onUpdate := some clause.action }

/-- A clause gives the action for its occasion and no other. -/
theorem ForeignKey.action?_withClause (reference : ForeignKey) (clause : ActionClause)
    (occasion : Occasion) :
    (reference.withClause clause).action? occasion =
      if clause.occasion = occasion then some clause.action else reference.action? occasion := by
  rcases clause with ⟨given, action⟩
  cases given <;> cases occasion <;> rfl

/-- Clauses leave the table and the columns of a reference as they are. -/
theorem ForeignKey.foldl_withClause (clauses : List ActionClause) (reference : ForeignKey) :
    (clauses.foldl withClause reference).foreignTable = reference.foreignTable ∧
      (clauses.foldl withClause reference).referredColumns = reference.referredColumns := by
  induction clauses generalizing reference with
  | nil => exact ⟨rfl, rfl⟩
  | cons clause clauses ih =>
    have hc := ih (reference.withClause clause)
    rcases clause with ⟨given, action⟩
    cases given <;> exact hc

/-- Clauses for different occasions, none of them taken before, give each its action. -/
theorem ForeignKey.action?_foldl_withClause (clauses : List ActionClause) (reference : ForeignKey)
    (hn : (clauses.map (·.occasion)).Nodup) (occasion : Occasion) :
    (clauses.foldl withClause reference).action? occasion =
      ((clauses.find? (·.occasion = occasion)).map (·.action)).or
        (reference.action? occasion) := by
  induction clauses generalizing reference with
  | nil => rfl
  | cons clause clauses ih =>
    rw [List.map_cons, List.nodup_cons] at hn
    rw [List.foldl_cons, ih _ hn.2, action?_withClause, List.find?_cons]
    by_cases ho : clause.occasion = occasion
    · have hnone : clauses.find? (·.occasion = occasion) = none := by
        rw [List.find?_eq_none]
        intro other hm he
        refine hn.1 (List.mem_map.mpr ⟨other, hm, ?_⟩)
        rw [ho]
        exact of_decide_eq_true he
      rw [hnone, if_pos ho, decide_eq_true ho]
      rfl
    · rw [if_neg ho, decide_eq_false ho]

namespace Grammar

variable {settings : Settings} {s s' : State} {rest : List Token}

/-- A referential action that was read is written with its words. -/
theorem referentialAction_ok {action : ReferentialAction}
    (h : referentialAction s = .ok action s') : s.cursor.Passes action.tokens s'.cursor := by
  obtain ⟨token, s₁, hn, h⟩ := bind_ok h
  obtain ⟨-, -, h₁⟩ := next_ok hn
  cases token with
  | keyword keyword =>
    have h₁ := h₁ nofun
    cases keyword with
    | restrict =>
      obtain ⟨rfl, rfl⟩ := pure_ok h
      exact h₁
    | cascade =>
      obtain ⟨rfl, rfl⟩ := pure_ok h
      exact h₁
    | «set» =>
      obtain ⟨found, s₂, hc, h⟩ := bind_ok h
      rcases consume_ok hc (by decide) with ⟨rfl, h₂⟩ | ⟨rfl, rfl⟩
      · obtain ⟨rfl, rfl⟩ := pure_ok h
        exact h₁.trans h₂
      · obtain ⟨found, s₃, hc, h⟩ := bind_ok h
        rcases consume_ok hc (by decide) with ⟨rfl, h₂⟩ | ⟨rfl, rfl⟩
        · obtain ⟨rfl, rfl⟩ := pure_ok h
          exact h₁.trans h₂
        · exact (reject_ok h).elim
    | no =>
      obtain ⟨_, s₂, hr, h⟩ := bind_ok h
      obtain ⟨rfl, rfl⟩ := pure_ok h
      exact h₁.trans (require_ok hr (by decide))
    | _ => exact (rejectRead_ok h).elim
  | _ => exact (rejectRead_ok h).elim

/-- A referential action is read where it stands. -/
theorem referentialAction_reads (action : ReferentialAction)
    (h : s.cursor.ahead = action.tokens ++ rest) :
    Reads referentialAction s action.tokens rest action := by
  cases action with
  | restrict =>
    obtain ⟨s₁, hn, h₁⟩ := next_reads h (by decide)
    exact ⟨s₁, run_bind hn, h₁⟩
  | cascade =>
    obtain ⟨s₁, hn, h₁⟩ := next_reads h (by decide)
    exact ⟨s₁, run_bind hn, h₁⟩
  | setNull =>
    obtain ⟨s₁, hn, h₁, ha₁⟩ := next_reads h (by decide)
    obtain ⟨s₂, hc, h₂, ha₂⟩ := consume_reads ha₁ (by decide)
    refine ⟨s₂, ?_, h₁.trans h₂, ha₂⟩
    rw [referentialAction, run_bind hn]
    exact run_bind hc
  | setDefault =>
    obtain ⟨s₁, hn, h₁, ha₁⟩ := next_reads h (by decide)
    have hp : s₁.cursor.peek ≠ .keyword .null := by
      rw [Cursor.peek_of_ahead ha₁]
      decide
    obtain ⟨s₂, hc, h₂, ha₂⟩ := consume_reads ha₁ (by decide)
    refine ⟨s₂, ?_, h₁.trans h₂, ha₂⟩
    rw [referentialAction, run_bind hn]
    exact (run_bind (consume_miss hp)).trans (run_bind hc)
  | noAction =>
    obtain ⟨s₁, hn, h₁, ha₁⟩ := next_reads h (by decide)
    obtain ⟨s₂, hr, h₂, ha₂⟩ := require_reads ha₁ (by decide)
    refine ⟨s₂, ?_, h₁.trans h₂, ha₂⟩
    rw [referentialAction, run_bind hn]
    exact run_bind hr

/-- A step through the clauses of a reference ended, or it read a clause whose action was
open. -/
theorem referenceClause_ok {reference : ForeignKey} {result : ForeignKey ⊕ ForeignKey}
    (h : referenceClause reference s = .ok result s') :
    (result = .inr reference ∧ s = s') ∨
      ∃ clause : ActionClause, reference.action? clause.occasion = none ∧
        result = .inl (reference.withClause clause) ∧
        s.cursor.Passes clause.tokens s'.cursor := by
  obtain ⟨found, s₁, hc, h⟩ := bind_ok h
  rcases consume_ok hc (by decide) with ⟨rfl, h₁⟩ | ⟨rfl, rfl⟩
  · refine Or.inr ?_
    obtain ⟨start, s₂, hp, h⟩ := bind_ok h
    cases hp
    obtain ⟨found, s₂, hc, h⟩ := bind_ok h
    rcases consume_ok hc (by decide) with ⟨rfl, h₂⟩ | ⟨rfl, rfl⟩
    · cases hd : reference.onDelete with
      | some action =>
        rw [hd] at h
        obtain ⟨_, _, hf, -⟩ := bind_ok h
        exact (fail_ok hf).elim
      | none =>
        rw [hd] at h
        obtain ⟨action, s₃, ha, h⟩ := bind_ok h
        obtain ⟨rfl, rfl⟩ := pure_ok h
        exact ⟨⟨.delete, action⟩, hd, rfl, h₁.trans (h₂.trans (referentialAction_ok ha))⟩
    · obtain ⟨found, s₂, hc, h⟩ := bind_ok h
      rcases consume_ok hc (by decide) with ⟨rfl, h₂⟩ | ⟨rfl, rfl⟩
      · cases hd : reference.onUpdate with
        | some action =>
          rw [hd] at h
          obtain ⟨_, _, hf, -⟩ := bind_ok h
          exact (fail_ok hf).elim
        | none =>
          rw [hd] at h
          obtain ⟨action, s₃, ha, h⟩ := bind_ok h
          obtain ⟨rfl, rfl⟩ := pure_ok h
          exact ⟨⟨.update, action⟩, hd, rfl, h₁.trans (h₂.trans (referentialAction_ok ha))⟩
      · exact (reject_ok h).elim
  · obtain ⟨rfl, rfl⟩ := pure_ok h
    exact Or.inl ⟨rfl, rfl⟩

/-- A clause of a reference behind its occasion, where the clause began at a place. -/
def clauseRest (reference : ForeignKey) (occasion : Occasion) (start : Position) :
    Reading (ForeignKey ⊕ ForeignKey) := do
  if (reference.action? occasion).isSome then fail (.duplicateClause occasion.clause start)
  return .inl (reference.withClause ⟨occasion, ← referentialAction⟩)

/-- A clause is read up to its action where it stands. -/
theorem referenceClause_upToAction (reference : ForeignKey) (clause : ActionClause)
    (h : s.cursor.ahead = clause.tokens ++ rest) :
    ∃ s₁, referenceClause reference s =
        clauseRest reference clause.occasion s.cursor.position s₁ ∧
      s.Passes [.keyword .on, .keyword clause.occasion.keyword] s₁ ∧
      s₁.cursor.ahead = clause.action.tokens ++ rest := by
  rcases clause with ⟨occasion, action⟩
  obtain ⟨s₁, hc, h₁, ha₁⟩ := consume_reads (show _ = Token.keyword .on :: _ from h) (by decide)
  have hp : previousPosition s₁ = .ok s.cursor.position s₁ :=
    congrArg (EStateM.Result.ok · s₁) h₁.previousPosition
  cases occasion with
  | delete =>
    obtain ⟨s₂, hd, h₂, ha₂⟩ :=
      consume_reads (show _ = Token.keyword .delete :: _ from ha₁) (by decide)
    refine ⟨s₂, ?_, h₁.trans h₂, ha₂⟩
    rw [referenceClause, consumeKeyword, run_bind hc]
    simp only [if_true]
    rw [run_bind hp, consumeKeyword, run_bind hd]
    rfl
  | update =>
    have hm : s₁.cursor.peek ≠ .keyword .delete := by
      rw [Cursor.peek_of_ahead ha₁]
      exact nofun
    obtain ⟨s₂, hu, h₂, ha₂⟩ :=
      consume_reads (show _ = Token.keyword .update :: _ from ha₁) (by decide)
    refine ⟨s₂, ?_, h₁.trans h₂, ha₂⟩
    rw [referenceClause, consumeKeyword, run_bind hc]
    simp only [if_true]
    rw [run_bind hp, consumeKeyword, run_bind (consume_miss hm)]
    simp only [Bool.false_eq_true, if_false]
    rw [consumeKeyword, run_bind hu]
    rfl

/-- A clause is read where it stands, if its action is open. -/
theorem referenceClause_reads {reference : ForeignKey} (clause : ActionClause)
    (ho : reference.action? clause.occasion = none)
    (h : s.cursor.ahead = clause.tokens ++ rest) :
    Reads (referenceClause reference) s clause.tokens rest
      (.inl (reference.withClause clause)) := by
  obtain ⟨s₁, hs, h₁, ha₁⟩ := referenceClause_upToAction reference clause h
  obtain ⟨s₂, hr, h₂, ha₂⟩ := referentialAction_reads clause.action ha₁
  refine ⟨s₂, ?_, h₁.trans h₂, ha₂⟩
  rw [hs, clauseRest, ho]
  exact run_bind hr

/-- A clause whose action is taken is refused where it begins. -/
theorem referenceClause_repeated {reference : ForeignKey} (clause : ActionClause)
    (ho : (reference.action? clause.occasion).isSome = true)
    (h : s.cursor.ahead = clause.tokens ++ rest) :
    ∃ s', referenceClause reference s =
      .error (.error (.duplicateClause clause.occasion.clause s.cursor.position)) s' := by
  obtain ⟨s₁, hs, -⟩ := referenceClause_upToAction reference clause h
  refine ⟨s₁, ?_⟩
  rw [hs, clauseRest, ho]
  rfl

/-- The clauses that were read had their actions open, and no two of them are for the same
occasion. -/
theorem referenceClauses_ok {reference result : ForeignKey}
    (h : repeatStep referenceClause reference s = .ok result s') :
    ∃ clauses : List ActionClause, result = clauses.foldl ForeignKey.withClause reference ∧
      (clauses.map (·.occasion)).Nodup ∧
      (∀ clause ∈ clauses, reference.action? clause.occasion = none) ∧
      s.cursor.Passes (clauses.flatMap ActionClause.tokens) s'.cursor := by
  refine repeatStep_ok (motive := fun reference s result s' => ∃ clauses : List ActionClause,
    result = clauses.foldl ForeignKey.withClause reference ∧
      (clauses.map (·.occasion)).Nodup ∧
      (∀ clause ∈ clauses, reference.action? clause.occasion = none) ∧
      s.cursor.Passes (clauses.flatMap ActionClause.tokens) s'.cursor) ?_ ?_ h
  · intro reference s result s' h
    rcases referenceClause_ok h with ⟨he, rfl⟩ | ⟨clause, -, he, -⟩
    · cases he
      exact ⟨[], rfl, List.nodup_nil, nofun, .refl _⟩
    · cases he
  · rintro reference s reference' s₁ result s' h ⟨clauses, hr, hn, ho, h₂⟩
    rcases referenceClause_ok h with ⟨he, -⟩ | ⟨clause, hc, he, h₁⟩
    · cases he
    · cases he
      -- A clause behind this one is for the other occasion, since its action was open here.
      have hopen : ∀ other ∈ clauses,
          clause.occasion ≠ other.occasion ∧ reference.action? other.occasion = none := by
        intro other hm
        have ha := ho other hm
        rw [ForeignKey.action?_withClause] at ha
        by_cases hs : clause.occasion = other.occasion
        · rw [if_pos hs] at ha
          cases ha
        · rw [if_neg hs] at ha
          exact ⟨hs, ha⟩
      refine ⟨clause :: clauses, hr, ?_, ?_, h₁.trans h₂⟩
      · rw [List.map_cons, List.nodup_cons]
        refine ⟨fun hm => ?_, hn⟩
        obtain ⟨other, hm, hs⟩ := List.mem_map.mp hm
        exact (hopen other hm).1 hs.symm
      · exact List.forall_mem_cons.mpr ⟨hc, fun other hm => (hopen other hm).2⟩

/-- Clauses for different occasions are passed over where they stand, whatever follows them. -/
theorem referenceClauses_goOn (clauses : List ActionClause) (reference : ForeignKey)
    (hn : (clauses.map (·.occasion)).Nodup)
    (ho : ∀ clause ∈ clauses, reference.action? clause.occasion = none)
    (h : s.cursor.ahead = clauses.flatMap ActionClause.tokens ++ rest) :
    GoesOn referenceClause reference s (clauses.flatMap ActionClause.tokens) rest
      (clauses.foldl ForeignKey.withClause reference) := by
  induction clauses generalizing s reference with
  | nil => exact .refl h
  | cons clause clauses ih =>
    rw [List.map_cons, List.nodup_cons] at hn
    rw [List.flatMap_cons, List.append_assoc] at h
    obtain ⟨hc, ho⟩ := List.forall_mem_cons.mp ho
    have hopen : ∀ other ∈ clauses,
        (reference.withClause clause).action? other.occasion = none := by
      intro other hm
      have hs : clause.occasion ≠ other.occasion := fun hs =>
        hn.1 (List.mem_map.mpr ⟨other, hm, hs.symm⟩)
      rw [ForeignKey.action?_withClause, if_neg hs]
      exact ho other hm
    exact .again (referenceClause_reads clause hc h) (List.cons_ne_nil _ _)
      fun _ _ ha => ih _ hn.2 hopen ha

/-- Clauses for different occasions are read where they stand, up to another token than
`ON`. -/
theorem referenceClauses_reads (clauses : List ActionClause) (reference : ForeignKey)
    (hn : (clauses.map (·.occasion)).Nodup)
    (ho : ∀ clause ∈ clauses, reference.action? clause.occasion = none)
    (hr : rest.headD .eof ≠ .keyword .on)
    (h : s.cursor.ahead = clauses.flatMap ActionClause.tokens ++ rest) :
    Reads (repeatStep referenceClause reference) s (clauses.flatMap ActionClause.tokens) rest
      (clauses.foldl ForeignKey.withClause reference) := by
  refine (referenceClauses_goOn clauses reference hn ho h).last fun s₁ ha => ?_
  have hp : s₁.cursor.peek ≠ .keyword .on := peek_eq_headD ha ▸ hr
  rw [referenceClause, consumeKeyword, run_bind (consume_miss hp)]
  rfl

/-- Clauses on a reference without actions give it the meaning of the written reference. -/
theorem foldl_withClause_eq_meaning (reference : ReferencePhrase) (h : reference.Admissible) :
    reference.clauses.foldl ForeignKey.withClause
      ⟨reference.table.name settings, reference.columns.elim [] (·.texts settings), none, none⟩ =
        reference.meaning settings := by
  have ha := ForeignKey.action?_foldl_withClause reference.clauses
    ⟨reference.table.name settings, reference.columns.elim [] (·.texts settings), none, none⟩ h
  obtain ⟨ht, hc⟩ := ForeignKey.foldl_withClause reference.clauses
    ⟨reference.table.name settings, reference.columns.elim [] (·.texts settings), none, none⟩
  have hd := ha .delete
  have hu := ha .update
  cases hf : reference.clauses.foldl ForeignKey.withClause
      ⟨reference.table.name settings, reference.columns.elim [] (·.texts settings), none, none⟩ with
  | mk foreignTable referredColumns onDelete onUpdate =>
    rw [hf] at ht hc hd hu
    simp only [ForeignKey.action?, Option.or_none] at hd hu
    subst ht hc hd hu
    rfl

/-- A reference that was read is a reference that is written. -/
theorem foreignKey_ok {reference : ForeignKey} (h : foreignKey settings s = .ok reference s') :
    ∃ phrase : ReferencePhrase, phrase.Admissible ∧ phrase.meaning settings = reference ∧
      s.cursor.Passes phrase.tokens s'.cursor := by
  obtain ⟨name, s₁, ht, h⟩ := bind_ok h
  obtain ⟨table, rfl, h₁⟩ := objectName_ok ht
  obtain ⟨texts, s₂, hc, h⟩ := bind_ok h
  obtain ⟨columns, rfl, h₂⟩ := optionalColumnList_ok hc
  obtain ⟨clauses, rfl, hn, -, h₃⟩ := referenceClauses_ok h
  refine ⟨⟨table, columns, clauses⟩, hn, ?_, h₁.trans (h₂.trans h₃)⟩
  exact (foldl_withClause_eq_meaning ⟨table, columns, clauses⟩ hn).symm

/-- A reference is read up to its clauses where it stands, if a token that ends a part follows
it. -/
theorem foreignKey_upToClauses (settings : Settings) (phrase : ReferencePhrase)
    (hr : endsPart (rest.headD .eof) = true) (h : s.cursor.ahead = phrase.tokens ++ rest) :
    ∃ s₁, foreignKey settings s = repeatStep referenceClause (phrase.plain.meaning settings) s₁ ∧
      s.Passes phrase.plain.tokens s₁ ∧
      s₁.cursor.ahead = phrase.clauses.flatMap ActionClause.tokens ++ rest := by
  rw [ReferencePhrase.tokens, List.append_assoc, List.append_assoc] at h
  -- What begins behind the columns is a clause, unless it is what follows the reference.
  have hclause : ∀ token, endsPart token = false → token ≠ .keyword .on →
      (phrase.clauses.flatMap ActionClause.tokens ++ rest).headD .eof ≠ token := by
    intro token ht ho
    cases phrase.clauses with
    | nil => exact ne_of_endsPart hr ht
    | cons clause clauses => exact ho.symm
  have hname : (phrase.columns.elim [] Identifiers.listed ++
      (phrase.clauses.flatMap ActionClause.tokens ++ rest)).headD .eof ≠ .period := by
    cases phrase.columns with
    | none => exact hclause .period rfl nofun
    | some columns => exact nofun
  obtain ⟨s₁, ht, h₁, ha₁⟩ := objectName_reads settings phrase.table hname h
  obtain ⟨s₂, hc, h₂, ha₂⟩ := optionalColumnList_reads settings phrase.columns
    (hclause .leftParen rfl nofun) ha₁
  have hpass := h₁.trans (h₂.trans (.refl s₂))
  refine ⟨s₂, ?_, hpass, ha₂⟩
  rw [foreignKey, run_bind ht, run_bind hc]
  rfl

/-- A reference is read where it stands, if a token that ends a part follows it. -/
theorem foreignKey_reads (settings : Settings) (phrase : ReferencePhrase) (hp : phrase.Admissible)
    (hr : endsPart (rest.headD .eof) = true) (h : s.cursor.ahead = phrase.tokens ++ rest) :
    Reads (foreignKey settings) s phrase.tokens rest (phrase.meaning settings) := by
  obtain ⟨s₁, hs, h₁, ha₁⟩ := foreignKey_upToClauses settings phrase hr h
  obtain ⟨s₂, hl, h₂, ha₂⟩ := referenceClauses_reads phrase.clauses
    (phrase.plain.meaning settings) hp
    (by intro clause _; cases clause.occasion <;> rfl) (ne_of_endsPart hr rfl) ha₁
  rw [← phrase.plain_tokens]
  refine ⟨s₂, ?_, h₁.trans h₂, ha₂⟩
  rw [hs, hl]
  exact congrArg (EStateM.Result.ok · s₂) (foldl_withClause_eq_meaning phrase hp)

end Grammar

end SqlDdl
