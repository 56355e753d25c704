import SqlDdl.Proofs.References

/-!
# Reading table constraints in both directions

The attributes of a table constraint are three marks in a fixed order, each of which
may be left out; two of them share their first keyword with something else and are
recognised as a whole. A table constraint that is absent leaves the cursor where the
constraint might have begun.
-/

namespace SqlDdl.Grammar

variable {settings : Settings} {s s₁ s₂ s' : State} {rest : List Token}

/-- A name that was read stands behind `CONSTRAINT`, or no name was read. -/
theorem constraintName?_ok {name : Option String} (h : constraintName? settings s = .ok name s') :
    ∃ phrase : Option Identifier, phrase.map (·.meaning settings) = name ∧
      s.cursor.Passes (namingTokens phrase) s'.cursor := by
  obtain ⟨found, s₁, hc, h⟩ := bind_ok h
  rcases consume_ok hc (by decide) with ⟨rfl, h₁⟩ | ⟨rfl, rfl⟩
  · obtain ⟨text, s₂, hi, h⟩ := bind_ok h
    obtain ⟨phrase, rfl, h₂⟩ := identifier_ok hi
    obtain ⟨rfl, rfl⟩ := pure_ok h
    exact ⟨some phrase, rfl, h₁.trans h₂⟩
  · obtain ⟨rfl, rfl⟩ := pure_ok h
    exact ⟨none, rfl, .refl _⟩

/-- A name is read where it stands, and none where `CONSTRAINT` does not follow. -/
theorem constraintName?_reads (settings : Settings) (phrase : Option Identifier)
    (hr : rest.headD .eof ≠ .keyword .constraint)
    (h : s.cursor.ahead = namingTokens phrase ++ rest) :
    Reads (constraintName? settings) s (namingTokens phrase) rest
      (phrase.map (·.meaning settings)) := by
  cases phrase with
  | none =>
    have hp : s.cursor.peek ≠ .keyword .constraint := peek_eq_headD h ▸ hr
    refine ⟨s, ?_, .refl _, h⟩
    rw [constraintName?, consumeKeyword, run_bind (consume_miss hp)]
    rfl
  | some name =>
    obtain ⟨s₁, hc, h₁, ha₁⟩ :=
      consume_reads (show _ = Token.keyword .constraint :: _ from h) (by decide)
    obtain ⟨s₂, hi, h₂, ha₂⟩ := identifier_reads settings
      .constraintName name ha₁
    refine ⟨s₂, ?_, h₁.trans h₂, ha₂⟩
    rw [constraintName?, consumeKeyword, run_bind hc]
    exact run_bind hi

/-- A run of keywords is not touched where its first keyword does not stand. -/
theorem consumeKeywords_miss_first {keyword : Keyword} {keywords : List Keyword}
    (h : s.cursor.ahead = rest) (hr : rest.headD .eof ≠ .keyword keyword) :
    consumeKeywords (keyword :: keywords) s = .ok false s := by
  refine consumeKeywords_miss ?_
  rintro ⟨behind, hb⟩
  rw [h] at hb
  rw [← hb] at hr
  exact hr rfl

/-- Whether a constraint is marked as deferrable. -/
def deferrableMark : Reading Bool := do
  if ← consumeKeywords [.not, .deferrable] then pure false else consumeKeyword .deferrable

/-- Whether a constraint is marked as deferred at first. -/
def deferredMark : Reading Bool := do
  if ← consumeKeywords [.initially, .deferred] then pure true
  else
    let _ ← consumeKeywords [.initially, .immediate]
    pure false

/-- The attributes of a constraint are its three marks one after another. -/
theorem constraintAttributes_eq (constraint : Constraint) :
    constraintAttributes constraint = (do
      let deferrable ← deferrableMark
      let initiallyDeferred ← deferredMark
      let noInherit ← consumeKeywords [.no, .inherit]
      return { constraint with
        deferrable := deferrable
        initiallyDeferred := initiallyDeferred
        noInherit := noInherit }) := by
  have hite : ∀ (found : Bool) (x y : Reading Bool) (f : Bool → Reading Constraint),
      (if found then x else y) >>= f = if found then x >>= f else y >>= f := by
    intro found x y f
    cases found <;> rfl
  simp only [constraintAttributes, deferrableMark, deferredMark, bind_assoc, hite]

/-- The first mark was read as it is written. -/
theorem deferrableMark_ok {deferrable : Bool} (h : deferrableMark s = .ok deferrable s') :
    ∃ mark : Option Bool, mark.getD false = deferrable ∧
      s.cursor.Passes (AttributesPhrase.deferrableTokens mark) s'.cursor := by
  obtain ⟨found, s₁, hk, h⟩ := bind_ok h
  rcases consumeKeywords_ok hk with ⟨rfl, h₁⟩ | ⟨rfl, rfl⟩
  · obtain ⟨rfl, rfl⟩ := pure_ok h
    exact ⟨some false, rfl, h₁⟩
  · rcases consume_ok h (by decide) with ⟨rfl, h₁⟩ | ⟨rfl, rfl⟩
    · exact ⟨some true, rfl, h₁⟩
    · exact ⟨none, rfl, .refl _⟩

/-- The first mark is read where it stands, if neither of its keywords follows it. -/
theorem deferrableMark_reads (mark : Option Bool) (hn : rest.headD .eof ≠ .keyword .not)
    (hd : rest.headD .eof ≠ .keyword .deferrable)
    (h : s.cursor.ahead = AttributesPhrase.deferrableTokens mark ++ rest) :
    Reads deferrableMark s (AttributesPhrase.deferrableTokens mark) rest (mark.getD false) := by
  cases mark with
  | none =>
    have hp : s.cursor.peek ≠ .keyword .deferrable := peek_eq_headD h ▸ hd
    refine ⟨s, ?_, .refl _, h⟩
    rw [deferrableMark, run_bind (consumeKeywords_miss_first h hn)]
    exact consume_miss hp
  | some deferrable =>
    cases deferrable with
    | true =>
      obtain ⟨s₁, hc, h₁⟩ :=
        consume_reads (show _ = Token.keyword .deferrable :: _ from h) (by decide)
      refine ⟨s₁, ?_, h₁⟩
      rw [deferrableMark, run_bind (consumeKeywords_miss_first h (by exact nofun))]
      exact hc
    | false =>
      obtain ⟨s₁, hk, h₁⟩ := consumeKeywords_reads [.not, .deferrable] h
      exact ⟨s₁, run_bind hk, h₁⟩

/-- The second mark was read as it is written. -/
theorem deferredMark_ok {deferred : Bool} (h : deferredMark s = .ok deferred s') :
    ∃ mark : Option Bool, mark.getD false = deferred ∧
      s.cursor.Passes (AttributesPhrase.deferredTokens mark) s'.cursor := by
  obtain ⟨found, s₁, hk, h⟩ := bind_ok h
  rcases consumeKeywords_ok hk with ⟨rfl, h₁⟩ | ⟨rfl, rfl⟩
  · obtain ⟨rfl, rfl⟩ := pure_ok h
    exact ⟨some true, rfl, h₁⟩
  · obtain ⟨found, s₁, hk, h⟩ := bind_ok h
    obtain ⟨rfl, rfl⟩ := pure_ok h
    rcases consumeKeywords_ok hk with ⟨-, h₁⟩ | ⟨-, rfl⟩
    · exact ⟨some false, rfl, h₁⟩
    · exact ⟨none, rfl, .refl _⟩

/-- The second mark is read where it stands, if its first keyword does not follow it. -/
theorem deferredMark_reads (mark : Option Bool) (hi : rest.headD .eof ≠ .keyword .initially)
    (h : s.cursor.ahead = AttributesPhrase.deferredTokens mark ++ rest) :
    Reads deferredMark s (AttributesPhrase.deferredTokens mark) rest (mark.getD false) := by
  cases mark with
  | none =>
    refine ⟨s, ?_, .refl _, h⟩
    rw [deferredMark, run_bind (consumeKeywords_miss_first h hi)]
    exact run_bind (consumeKeywords_miss_first h hi)
  | some deferred =>
    cases deferred with
    | true =>
      obtain ⟨s₁, hk, h₁⟩ := consumeKeywords_reads [.initially, .deferred] h
      exact ⟨s₁, run_bind hk, h₁⟩
    | false =>
      have hm : ¬ [Keyword.initially, .deferred].map Token.keyword <+: s.cursor.ahead := by
        rw [h]
        rintro ⟨behind, hb⟩
        cases hb
      obtain ⟨s₁, hk, h₁⟩ := consumeKeywords_reads [.initially, .immediate] h
      refine ⟨s₁, ?_, h₁⟩
      rw [deferredMark, run_bind (consumeKeywords_miss hm)]
      exact run_bind hk

/-- Attributes that were read are attributes that are written. -/
theorem constraintAttributes_ok {constraint complete : Constraint}
    (h : constraintAttributes constraint s = .ok complete s') :
    ∃ attributes : AttributesPhrase, attributes.apply constraint = complete ∧
      s.cursor.Passes attributes.tokens s'.cursor := by
  rw [constraintAttributes_eq] at h
  obtain ⟨_, s₁, hd, h⟩ := bind_ok h
  obtain ⟨deferrable, rfl, h₁⟩ := deferrableMark_ok hd
  obtain ⟨_, s₂, hi, h⟩ := bind_ok h
  obtain ⟨deferred, rfl, h₂⟩ := deferredMark_ok hi
  obtain ⟨found, s₃, hk, h⟩ := bind_ok h
  obtain ⟨rfl, rfl⟩ := pure_ok h
  refine ⟨⟨deferrable, deferred, found⟩, rfl, h₁.trans (h₂.trans ?_)⟩
  rcases consumeKeywords_ok hk with ⟨rfl, h₃⟩ | ⟨rfl, rfl⟩
  · exact h₃
  · exact .refl _

/-- Attributes are read where they stand, if no keyword follows them. -/
theorem constraintAttributes_reads (attributes : AttributesPhrase) (constraint : Constraint)
    (hr : ∀ keyword, rest.headD .eof ≠ .keyword keyword)
    (h : s.cursor.ahead = attributes.tokens ++ rest) :
    Reads (constraintAttributes constraint) s attributes.tokens rest
      (attributes.apply constraint) := by
  rcases attributes with ⟨deferrable, deferred, noInherit⟩
  rw [AttributesPhrase.tokens, List.append_assoc, List.append_assoc] at h
  have hinherit : ∀ keyword, keyword ≠ .no →
      (AttributesPhrase.inheritTokens noInherit ++ rest).headD .eof ≠ .keyword keyword := by
    intro keyword hk
    cases noInherit with
    | false => exact hr keyword
    | true => exact fun he => hk (by cases he; rfl)
  have hdeferred : ∀ keyword, keyword ≠ .no → keyword ≠ .initially →
      (AttributesPhrase.deferredTokens deferred ++
        (AttributesPhrase.inheritTokens noInherit ++ rest)).headD .eof ≠ .keyword keyword := by
    intro keyword hk hi
    rcases deferred with _ | _ | _
    · exact hinherit keyword hk
    · exact fun he => hi (by cases he; rfl)
    · exact fun he => hi (by cases he; rfl)
  obtain ⟨s₁, hd, h₁, ha₁⟩ := deferrableMark_reads deferrable
    (hdeferred .not (by decide) (by decide)) (hdeferred .deferrable (by decide) (by decide)) h
  obtain ⟨s₂, hi, h₂, ha₂⟩ := deferredMark_reads deferred (hinherit .initially (by decide)) ha₁
  have hno : Reads (consumeKeywords [.no, .inherit]) s₂ (AttributesPhrase.inheritTokens noInherit)
      rest noInherit := by
    cases noInherit with
    | false => exact ⟨s₂, consumeKeywords_miss_first ha₂ (hr .no), .refl _, ha₂⟩
    | true => exact consumeKeywords_reads [.no, .inherit] ha₂
  obtain ⟨s₃, hn, h₃, ha₃⟩ := hno
  refine ⟨s₃, ?_, h₁.trans (h₂.trans h₃), ha₃⟩
  rw [constraintAttributes_eq, run_bind hd, run_bind hi, run_bind hn]
  rfl

/-- A finished constraint has the attributes that stand behind it. -/
theorem finishTableConstraint_ok {constraint : Constraint} {result : TableConstraint}
    (h : finishTableConstraint constraint s = .ok result s') :
    ∃ attributes : AttributesPhrase, result = .found (attributes.apply constraint) ∧
      s.cursor.Passes attributes.tokens s'.cursor := by
  obtain ⟨complete, s₁, ha, h⟩ := bind_ok h
  obtain ⟨attributes, rfl, h₁⟩ := constraintAttributes_ok ha
  cases h
  exact ⟨attributes, rfl, h₁⟩

/-- A constraint is finished by reading its attributes where they stand. -/
theorem finishTableConstraint_reads (attributes : AttributesPhrase) (constraint : Constraint)
    (hr : ∀ keyword, rest.headD .eof ≠ .keyword keyword)
    (h : s.cursor.ahead = attributes.tokens ++ rest) :
    Reads (finishTableConstraint constraint) s attributes.tokens rest
      (.found (attributes.apply constraint)) := by
  obtain ⟨s₁, ha, h₁, ha₁⟩ := constraintAttributes_reads attributes constraint hr h
  obtain ⟨s₂, hrec, h₂, ha₂⟩ := record_reads (.tableConstraint (attributes.apply constraint)) ha₁
  refine ⟨s₂, ?_, h₁.stay h₂, ha₂⟩
  rw [finishTableConstraint, run_bind ha]
  exact run_bind hrec

/-- What stands between two cursors where a table constraint was found, discarded or
absent. -/
def TableConstraint.Spelled (settings : Settings) (c c' : Cursor) : TableConstraint → Prop
  | found declared => ∃ name phrase attributes, ConstraintPhrase.Admissible phrase ∧
      (EntryPhrase.constraint name phrase attributes).constraints settings = [declared] ∧
      c.Passes (EntryPhrase.constraint name phrase attributes).tokens c'
  | discarded => ∃ name, c.Passes (EntryPhrase.null name).tokens c'
  | absent => c.Passes [] c'

/-- Before the end of the input, going back behind a token leads to where it was read. -/
theorem next_rewind_ok {token : Token} (hc : s.cursor.Closed) (hn : next s = .ok token s₁)
    (hr : rewind s₁ = .ok () s₂) : s.cursor.Passes [] s₂.cursor := by
  obtain ⟨-, rfl, -⟩ := next_ok hn
  cases ha : s.cursor.ahead with
  | nil =>
    rw [Cursor.Closed, ha] at hc
    cases hc
  | cons first others =>
    obtain ⟨s₃, hr₃, h₃⟩ := rewind_reads ha
    rw [hr] at hr₃
    cases hr₃
    exact h₃.toPasses

/-- Another token than the first of a constraint was not passed over. -/
theorem absentConstraint_ok {name : Option Identifier} {token other : Token}
    {result : TableConstraint} (hc : s.cursor.Closed)
    (h₁ : s.cursor.Passes (namingTokens name) s₁.cursor) (hn : next s₁ = .ok token s₂)
    (h : (if (name.map (·.meaning settings)).isSome then rejectRead .namedConstraint other
      else do
        rewind
        return TableConstraint.absent) s₂ = .ok result s') :
    result.Spelled settings s.cursor s'.cursor := by
  cases name with
  | some name => exact (rejectRead_ok h).elim
  | none =>
    obtain ⟨_, s₃, hr, h⟩ := bind_ok h
    obtain ⟨rfl, rfl⟩ := pure_ok h
    exact h₁.trans (next_rewind_ok (h₁.closed hc) hn hr)

/-- A constraint that was found is written, and one that is absent left no trace. -/
theorem tableConstraint_ok {result : TableConstraint} (hc : s.cursor.Closed)
    (h : tableConstraint settings s = .ok result s') :
    result.Spelled settings s.cursor s'.cursor := by
  rw [tableConstraint, run_here] at h
  obtain ⟨_, s₁, hname, h⟩ := bind_ok h
  obtain ⟨name, rfl, h₁⟩ := constraintName?_ok hname
  rw [run_here] at h
  obtain ⟨token, s₂, hn, h⟩ := bind_ok h
  obtain ⟨-, -, h₂⟩ := next_ok hn
  cases token with
  | keyword keyword =>
    have h₂ := h₁.trans (h₂ nofun)
    cases keyword with
    | not =>
      obtain ⟨_, s₃, hnull, h⟩ := bind_ok h
      obtain ⟨attributes, rfl, h₄⟩ := finishTableConstraint_ok h
      have h₃ := h₂.trans ((require_ok hnull (by decide)).trans h₄)
      rw [List.append_assoc] at h₃
      exact ⟨name, .notNull, attributes, trivial, rfl, h₃⟩
    | null =>
      obtain ⟨rfl, rfl⟩ := pure_ok h
      exact ⟨name, h₂⟩
    | primary =>
      obtain ⟨_, s₃, hkey, h⟩ := bind_ok h
      obtain ⟨_, s₄, hcols, h⟩ := bind_ok h
      obtain ⟨columns, rfl, h₄⟩ := columnList_ok hcols
      obtain ⟨attributes, rfl, h₅⟩ := finishTableConstraint_ok h
      have h₃ := h₂.trans ((require_ok hkey (by decide)).trans (h₄.trans h₅))
      rw [List.append_assoc] at h₃
      exact ⟨name, .primaryKey columns, attributes, trivial, rfl, h₃⟩
    | unique =>
      obtain ⟨_, s₃, hcols, h⟩ := bind_ok h
      obtain ⟨columns, rfl, h₃⟩ := columnList_ok hcols
      obtain ⟨attributes, rfl, h₄⟩ := finishTableConstraint_ok h
      have h₅ := h₂.trans (h₃.trans h₄)
      rw [List.append_assoc] at h₅
      exact ⟨name, .unique columns, attributes, trivial, rfl, h₅⟩
    | foreign =>
      obtain ⟨_, s₃, hkey, h⟩ := bind_ok h
      obtain ⟨_, s₄, hcols, h⟩ := bind_ok h
      obtain ⟨columns, rfl, h₄⟩ := columnList_ok hcols
      obtain ⟨_, s₅, href, h⟩ := bind_ok h
      obtain ⟨_, s₆, hkind, h⟩ := bind_ok h
      obtain ⟨reference, hr, rfl, h₆⟩ := foreignKey_ok hkind
      obtain ⟨attributes, rfl, h₇⟩ := finishTableConstraint_ok h
      refine ⟨name, .foreignKey columns reference, attributes, hr, rfl, ?_⟩
      have h₃ := h₂.trans ((require_ok hkey (by decide)).trans (h₄.trans
        ((require_ok href (by decide)).trans (h₆.trans h₇))))
      simpa only [EntryPhrase.tokens, ConstraintPhrase.tokens, List.append_assoc,
        List.cons_append, List.nil_append] using h₃
    | check => exact (fail_ok h).elim
    | _ => exact absentConstraint_ok hc h₁ hn h
  | _ => exact absentConstraint_ok hc h₁ hn h

/-- A constraint is read behind its name where it stands, if its entry ends behind it. -/
theorem tableConstraint_reads (settings : Settings) (name : Option Identifier)
    (phrase : ConstraintPhrase) (attributes : AttributesPhrase) (hp : phrase.Admissible)
    (hend : rest.headD .eof = .comma ∨ rest.headD .eof = .rightParen)
    (h : s.cursor.ahead = (EntryPhrase.constraint name phrase attributes).tokens ++ rest) :
    Reads (tableConstraint settings) s (EntryPhrase.constraint name phrase attributes).tokens rest
      (.found (attributes.apply (.plain (name.map (·.meaning settings)) (phrase.kind settings)
        (phrase.columns settings)))) := by
  have hr : ∀ keyword, rest.headD .eof ≠ .keyword keyword := by
    intro keyword
    rcases hend with he | he <;> rw [he] <;> exact nofun
  rw [EntryPhrase.tokens, List.append_assoc] at h
  have hname : (phrase.tokens ++ attributes.tokens ++ rest).headD .eof ≠ .keyword .constraint := by
    cases phrase <;> exact nofun
  obtain ⟨s₁, hc, h₁, ha₁⟩ := constraintName?_reads settings name hname h
  rw [List.append_assoc] at ha₁
  cases phrase with
  | notNull =>
    obtain ⟨s₂, hn, h₂, ha₂⟩ := next_reads ha₁ (by decide)
    obtain ⟨s₃, hk, h₃, ha₃⟩ := require_reads ha₂ (by decide)
    obtain ⟨s₄, hf, h₄, ha₄⟩ := finishTableConstraint_reads attributes
      (.plain (name.map (·.meaning settings)) .notNull []) hr ha₃
    refine ⟨s₄, ?_, h₁.trans (h₂.trans (h₃.trans h₄)), ha₄⟩
    rw [tableConstraint, run_here, run_bind hc, run_here, run_bind hn]
    exact (run_bind hk).trans hf
  | primaryKey columns =>
    obtain ⟨s₂, hn, h₂, ha₂⟩ := next_reads ha₁ (by decide)
    obtain ⟨s₃, hk, h₃, ha₃⟩ := require_reads ha₂ (by decide)
    obtain ⟨s₄, hl, h₄, ha₄⟩ := columnList_reads settings columns ha₃
    obtain ⟨s₅, hf, h₅, ha₅⟩ := finishTableConstraint_reads attributes
      (.plain (name.map (·.meaning settings)) .primaryKey (columns.texts settings)) hr ha₄
    refine ⟨s₅, ?_, h₁.trans (h₂.trans (h₃.trans (h₄.trans h₅))), ha₅⟩
    rw [tableConstraint, run_here, run_bind hc, run_here, run_bind hn]
    exact (run_bind hk).trans ((run_bind hl).trans hf)
  | unique columns =>
    obtain ⟨s₂, hn, h₂, ha₂⟩ := next_reads ha₁ (by decide)
    obtain ⟨s₃, hl, h₃, ha₃⟩ := columnList_reads settings columns ha₂
    obtain ⟨s₄, hf, h₄, ha₄⟩ := finishTableConstraint_reads attributes
      (.plain (name.map (·.meaning settings)) .unique (columns.texts settings)) hr ha₃
    refine ⟨s₄, ?_, h₁.trans (h₂.trans (h₃.trans h₄)), ha₄⟩
    rw [tableConstraint, run_here, run_bind hc, run_here, run_bind hn]
    exact (run_bind hl).trans hf
  | foreignKey columns reference =>
    rw [ConstraintPhrase.tokens, List.cons_append, List.cons_append, List.append_assoc] at ha₁
    have href : endsPart ((attributes.tokens ++ rest).headD .eof) = true := by
      have hpart : endsPart (rest.headD .eof) = true := by
        rcases hend with he | he <;> rw [he] <;> rfl
      rcases attributes with ⟨_ | _ | _, _ | _ | _, _ | _⟩ <;> first | rfl | exact hpart
    obtain ⟨s₂, hn, h₂, ha₂⟩ := next_reads ha₁ (by decide)
    obtain ⟨s₃, hk, h₃, ha₃⟩ := require_reads ha₂ (by decide)
    obtain ⟨s₄, hl, h₄, ha₄⟩ := columnList_reads settings columns ha₃
    obtain ⟨s₅, hq, h₅, ha₅⟩ := require_reads ha₄ (by decide)
    obtain ⟨s₆, hg, h₆, ha₆⟩ := foreignKey_reads settings reference hp href ha₅
    obtain ⟨s₇, hf, h₇, ha₇⟩ := finishTableConstraint_reads attributes
      (.plain (name.map (·.meaning settings)) (.foreignKey (reference.meaning settings))
        (columns.texts settings)) hr ha₆
    refine ⟨s₇, ?_, ?_, ha₇⟩
    · rw [tableConstraint, run_here, run_bind hc, run_here, run_bind hn]
      exact (run_bind hk).trans ((run_bind hl).trans ((run_bind hq).trans ((run_bind hg).trans hf)))
    · have hall := h₁.trans (h₂.trans (h₃.trans (h₄.trans (h₅.trans (h₆.trans h₇)))))
      simpa only [EntryPhrase.tokens, ConstraintPhrase.tokens, List.append_assoc,
        List.cons_append, List.nil_append] using hall

/-- A constraint that means nothing is read and discarded. -/
theorem tableConstraint_reads_null (settings : Settings) (name : Option Identifier)
    (h : s.cursor.ahead = (EntryPhrase.null name).tokens ++ rest) :
    Reads (tableConstraint settings) s (EntryPhrase.null name).tokens rest .discarded := by
  rw [EntryPhrase.tokens, List.append_assoc] at h
  obtain ⟨s₁, hc, h₁, ha₁⟩ := constraintName?_reads settings name
    (by exact nofun) h
  obtain ⟨s₂, hn, h₂, ha₂⟩ := next_reads ha₁ (by decide)
  refine ⟨s₂, ?_, h₁.trans h₂, ha₂⟩
  rw [tableConstraint, run_here, run_bind hc, run_here, run_bind hn]
  rfl

/-- Where a word stands there is no constraint, and the word is still ahead. -/
theorem tableConstraint_reads_word (settings : Settings) {word : Word}
    (h : s.cursor.ahead = .word word :: rest) :
    Reads (tableConstraint settings) s [] (.word word :: rest) .absent := by
  have hm : (Token.word word :: rest).headD .eof ≠ .keyword .constraint := nofun
  obtain ⟨s₁, hc, h₁, ha₁⟩ := constraintName?_reads settings none hm h
  obtain ⟨s₂, hr, h₂⟩ := rewind_reads ha₁
  refine ⟨s₂, ?_, h₁.trans h₂, h₂.ahead_eq ha₁⟩
  rw [tableConstraint, run_here, run_bind hc, run_here, run_bind (run_next ha₁)]
  exact run_bind hr

end SqlDdl.Grammar
