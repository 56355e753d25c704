import SqlDdl.Proofs.Statements

/-!
# Laws of readings

Much of what holds of readings however they end is a law: it says which states may stand behind a
value, and which failures may come in its place. A sequence, a choice or a repetition obeys a law
if its parts do. A lenient law leaves it open where a reading stops and what it reports, and rules
out no failure but one for want of a modifier; every part of the grammar without data types obeys
every lenient law. Two readings that do the same wherever a law lets readings begin can be put in
each other's place in readings that obey it.
-/

namespace SqlDdl.Grammar

variable {α β : Type}

/-- What readings may do with the state that they begin in. -/
structure Law where
  /-- The states in which readings are considered to begin. -/
  begins : State → Prop
  /-- The states that a value may leave behind, by the state in which its reading began. -/
  gives : State → State → Prop
  /-- The failures that may end a reading and the states that they leave behind. -/
  fails : State → Failure → State → Prop
  /-- A reading may do nothing. -/
  stays : ∀ {s}, begins s → gives s s
  /-- A reading may begin behind the value of another one. -/
  begins_behind : ∀ {s s'}, begins s → gives s s' → begins s'
  /-- What a reading may leave behind another one may be left by both in a row. -/
  gives_behind : ∀ {s s₁ s'}, gives s s₁ → gives s₁ s' → gives s s'
  /-- A failure that may end a reading behind another one may end both in a row. -/
  fails_behind : ∀ {s s₁ failure s'}, gives s s₁ → fails s₁ failure s' → fails s failure s'
  /-- A repetition may be refused. -/
  stalls : ∀ {s s'}, gives s s' → fails s (.fault .stalled) s'

/-- A law allows that a reading from a state ends in some way. -/
def Law.Allows (law : Law) (s : State) : EStateM.Result Failure State α → Prop
  | .ok _ s' => law.gives s s'
  | .error failure s' => law.fails s failure s'

/-- Wherever a law lets a reading begin, it ends in a way that the law allows. -/
def Obeys (law : Law) (p : Reading α) : Prop := ∀ s, law.begins s → law.Allows s (p s)

/-- Wherever a law lets readings begin, two readings do the same. -/
def Agrees (law : Law) (p q : Reading α) : Prop := ∀ s, law.begins s → p s = q s

variable {law other : Law}

/-- What is allowed behind a value is allowed from where that value was read. -/
theorem Law.Allows.behind {s s₁ : State} {result : EStateM.Result Failure State α}
    (h : law.Allows s₁ result) (hg : law.gives s s₁) : law.Allows s result := by
  cases result with
  | ok a s' => exact law.gives_behind hg h
  | error failure s' => exact law.fails_behind hg h

namespace Obeys

/-- A run of a reading that obeys a law ends as the law allows. -/
theorem of_run {p : Reading α} {s : State} {result : EStateM.Result Failure State α}
    (h : Obeys law p) (hb : law.begins s) (hrun : p s = result) : law.Allows s result :=
  hrun ▸ h s hb

/-- A reading that obeys a law obeys one that demands less of it. -/
theorem mono {p : Reading α} (h : Obeys law p) (hb : ∀ {s}, other.begins s → law.begins s)
    (hg : ∀ {s s'}, other.begins s → law.gives s s' → other.gives s s')
    (hf : ∀ {s failure s'}, other.begins s → law.fails s failure s' → other.fails s failure s') :
    Obeys other p := by
  intro s hs
  have hp := h s (hb hs)
  cases hrun : p s with
  | ok a s' =>
    rw [hrun] at hp
    exact hg hs hp
  | error failure s' =>
    rw [hrun] at hp
    exact hf hs hp

/-- A reading that gives a value and leaves everything as it is obeys every law. -/
theorem of_looks {p : Reading α} (h : ∀ s, ∃ a, p s = .ok a s) : Obeys law p := by
  intro s hs
  obtain ⟨a, ha⟩ := h s
  rw [ha]
  exact law.stays hs

/-- Giving a value obeys every law. -/
theorem pure (a : α) : Obeys law (Pure.pure a : Reading α) := of_looks fun _ => ⟨a, rfl⟩

/-- Looking at the current token obeys every law. -/
theorem peek : Obeys law peek := of_looks fun _ => ⟨_, rfl⟩

/-- Looking where the cursor stands obeys every law. -/
theorem here : Obeys law here := of_looks fun _ => ⟨_, rfl⟩

/-- Taking the position obeys every law. -/
theorem position : Obeys law position := of_looks fun _ => ⟨_, rfl⟩

/-- Taking the position before obeys every law. -/
theorem previousPosition : Obeys law previousPosition := of_looks fun _ => ⟨_, rfl⟩

/-- A sequence of two readings obeys a law if both do. -/
theorem bind {x : Reading α} {f : α → Reading β} (hx : Obeys law x) (hf : ∀ a, Obeys law (f a)) :
    Obeys law (x >>= f) := by
  intro s hs
  cases hrun : x s with
  | ok a s₁ =>
    have hgives : law.gives s s₁ := hx.of_run hs hrun
    rw [run_bind hrun]
    exact (hf a s₁ (law.begins_behind hs hgives)).behind hgives
  | error failure s₁ =>
    rw [run_bind_error hrun]
    exact hx.of_run hs hrun

/-- A choice between two readings obeys a law if both do. -/
theorem ite {condition : Prop} [Decidable condition] {p q : Reading α} (hp : Obeys law p)
    (hq : Obeys law q) : Obeys law (if condition then p else q) := by
  split
  · exact hp
  · exact hq

/-- A repetition obeys a law if its steps do. -/
theorem repeatStep {step : α → Reading (α ⊕ β)} (h : ∀ a, Obeys law (step a)) (a : α) :
    Obeys law (repeatStep step a) := by
  intro s hs
  fun_induction Grammar.repeatStep step a s with
  | case1 a s failure s' hrun => exact (h a).of_run hs hrun
  | case2 a s b s' hrun => exact (h a).of_run hs hrun
  | case3 a s a' s' hrun _ ih =>
    have hgives : law.gives s s' := (h a).of_run hs hrun
    exact (ih (law.begins_behind hs hgives)).behind hgives
  | case4 a s a' s' hrun _ => exact law.stalls ((h a).of_run hs hrun)

/-- What stands behind an item of a list is read by a law under which the two separators may be
asked for and another token may be refused. -/
theorem afterItem_of {expectation : Expectation} (hclose : Obeys law (consume .rightParen))
    (hcomma : Obeys law (consume .comma))
    (hreject : Obeys law (reject expectation : Reading (List α ⊕ List α))) (found : List α) :
    Obeys law (afterItem expectation found) :=
  hclose.bind fun _ => ite (pure _) (hcomma.bind fun _ => ite (pure _) hreject)

end Obeys

namespace Agrees

/-- A reading does what it does. -/
theorem refl (p : Reading α) : Agrees law p p := fun _ _ => rfl

/-- Two sequences do the same if their first parts do, and go on in the same way. -/
theorem bind_left {x y : Reading α} {f : α → Reading β} (h : Agrees law x y) :
    Agrees law (x >>= f) (y >>= f) :=
  fun s hs => run_bind_congr (h s hs)

/-- Two sequences do the same if they begin in the same way and their second parts do. -/
theorem bind_right {x : Reading α} {f g : α → Reading β} (hx : Obeys law x)
    (h : ∀ a, Agrees law (f a) (g a)) : Agrees law (x >>= f) (x >>= g) := by
  intro s hs
  cases hrun : x s with
  | ok a s₁ =>
    have hs₁ : law.begins s₁ := law.begins_behind hs (hx.of_run hs hrun)
    rw [run_bind hrun, run_bind hrun]
    exact h a s₁ hs₁
  | error failure s₁ => rw [run_bind_error hrun, run_bind_error hrun]

/-- A choice does the same if what it chooses from does. -/
theorem ite {condition : Prop} [Decidable condition] {p p' q q' : Reading α} (hp : Agrees law p p')
    (hq : Agrees law q q') :
    Agrees law (if condition then p else q) (if condition then p' else q') := by
  split
  · exact hp
  · exact hq

/-- Repetitions do the same if their steps do. -/
theorem repeatStep {step step' : α → Reading (α ⊕ β)} (h : ∀ a, Agrees law (step a) (step' a))
    (hs : ∀ a, Obeys law (step' a)) (a : α) :
    Agrees law (repeatStep step a) (repeatStep step' a) := by
  intro s hb
  fun_induction Grammar.repeatStep step' a s with
  | case1 a s failure s' hrun => rw [Grammar.repeatStep, (h a s hb).trans hrun]
  | case2 a s b s' hrun => rw [Grammar.repeatStep, (h a s hb).trans hrun]
  | case3 a s a' s' hrun hr ih =>
    rw [repeatStep_inl ((h a s hb).trans hrun) hr]
    exact ih (law.begins_behind hb ((hs a).of_run hb hrun))
  | case4 a s a' s' hrun hr =>
    rw [Grammar.repeatStep, (h a s hb).trans hrun]
    exact if_neg hr

/-- Lists do the same if their items do. -/
theorem closedList {item item' : Reading α} {expectation : Expectation}
    (h : Agrees law item item') (hi : Obeys law item')
    (ha : ∀ found : List α, Obeys law (afterItem expectation found)) :
    Agrees law (closedList item expectation) (closedList item' expectation) :=
  repeatStep (fun _ => h.bind_left) (fun _ => hi.bind fun _ => ha _) []

end Agrees

/-- A failure says that a modifier is missing. -/
def Failure.lacksModifier : Failure → Bool
  | .error (.expected .typeModifier _ _) => true
  | _ => false

/-- Something else is missing where something else is expected. -/
theorem Failure.lacksModifier_expected {expectation : Expectation} (h : expectation ≠ .typeModifier)
    (found : Token) (position : Position) :
    (Failure.error (.expected expectation found position)).lacksModifier = false := by
  cases expectation with
  | typeModifier => exact absurd rfl h
  | _ => rfl

/-- A law that leaves the cursor and the events free, and the count of begun expressions where a
level counts one more and then one less. Only for want of a modifier readings may be forbidden to
fail. -/
class Law.Lenient (law : Law) : Prop where
  /-- Readings may begin anywhere. -/
  begins : ∀ s, law.begins s
  /-- The cursor may move, and events may be kept. -/
  moves : ∀ s cursor events, law.gives s { s with cursor := cursor, events := events }
  /-- A reading may fail where it is, but for want of a modifier. -/
  refuses : ∀ s {failure}, failure.lacksModifier = false → law.fails s failure s
  /-- What a value of a level may leave behind may be left by the level. -/
  gives_level : ∀ {s s'}, law.gives { s with nesting := s.nesting + 1 } s' →
    law.gives s { s' with nesting := s'.nesting - 1 }
  /-- What a failure inside a level may leave behind may be left by the level. -/
  fails_level : ∀ {s failure s'}, law.fails { s with nesting := s.nesting + 1 } failure s' →
    law.fails s failure { s' with nesting := s'.nesting - 1 }

namespace Obeys

variable [law.Lenient] {settings : Settings}

/-- Reading the current token obeys every lenient law. -/
theorem next : Obeys law next := fun s _ => Law.Lenient.moves s _ _

/-- Keeping an event obeys every lenient law. -/
theorem record (event : Event) : Obeys law (record event) := fun s _ => Law.Lenient.moves s _ _

/-- A conditional step obeys every lenient law. -/
theorem consume (token : Token) : Obeys law (consume token) := by
  intro s _
  unfold Grammar.consume moveTo
  split
  · exact Law.Lenient.moves s _ _
  · exact Law.Lenient.moves s _ _

/-- A conditional step over keywords obeys every lenient law. -/
theorem consumeKeywords (keywords : List Keyword) : Obeys law (consumeKeywords keywords) :=
  fun s _ => Law.Lenient.moves s _ _

/-- Going back obeys every lenient law, also where it is refused. -/
theorem rewind : Obeys law rewind := by
  intro s _
  rw [Grammar.rewind]
  split
  · exact Law.Lenient.moves s _ _
  · exact Law.Lenient.refuses s rfl

/-- Failing obeys every lenient law, but for want of a modifier. -/
theorem fail {error : Error} (h : (Failure.error error).lacksModifier = false) :
    Obeys law (fail error : Reading α) :=
  fun s _ => Law.Lenient.refuses s h

/-- Refusing the current token obeys every lenient law, but for want of a modifier. -/
theorem reject {expectation : Expectation} (h : expectation ≠ .typeModifier) :
    Obeys law (reject expectation : Reading α) :=
  fun s _ => Law.Lenient.refuses s (Failure.lacksModifier_expected h _ _)

/-- Refusing the token just read obeys every lenient law, but for want of a modifier. -/
theorem rejectRead (expectation : Expectation) (found : Token) (h : expectation ≠ .typeModifier) :
    Obeys law (rejectRead expectation found : Reading α) :=
  fun s _ => Law.Lenient.refuses s (Failure.lacksModifier_expected h _ _)

/-- A required token obeys every lenient law. -/
theorem require (token : Token) : Obeys law (require token) :=
  (consume token).bind fun _ => ite (pure ()) (reject nofun)

/-- A list with separators obeys a lenient law if its items do. -/
theorem separated {item : Reading α} (h : Obeys law item) (separator : Token) :
    Obeys law (separated item separator) :=
  h.bind fun _ => repeatStep (fun _ => (consume separator).bind fun _ =>
    ite (h.bind fun _ => pure _) (pure _)) _

/-- Reading what stands behind an item of a list obeys every lenient law. -/
theorem afterItem (expectation : Expectation) (he : expectation ≠ .typeModifier)
    (found : List α) : Obeys law (afterItem expectation found) :=
  afterItem_of (consume _) (consume _) (reject he) found

/-- A list up to a closing parenthesis obeys a lenient law if its items do. -/
theorem listRest {item : Reading α} (h : Obeys law item) (expectation : Expectation)
    (he : expectation ≠ .typeModifier) : Obeys law (listRest item expectation) :=
  (consume .rightParen).bind fun _ => ite (pure _)
    (repeatStep (fun _ => h.bind fun _ => afterItem expectation he _) _)

/-- An identifier obeys every lenient law, under whatever name it is expected. -/
theorem identifier (expectation : Expectation) (h : expectation ≠ .typeModifier) :
    Obeys law (identifier settings expectation) := by
  refine peek.bind fun token => ?_
  cases token with
  | word word => exact ite (reject h) (next.bind fun _ => pure _)
  | _ => exact reject h

/-- A dotted name obeys every lenient law. -/
theorem objectName : Obeys law (objectName settings) :=
  ((identifier .identifier nofun).separated _).bind fun _ => pure _

/-- A list of columns obeys every lenient law. -/
theorem columnNames : Obeys law (columnNames settings) :=
  ((identifier .columnName nofun).separated _).bind fun _ => (require _).bind fun _ => pure _

/-- A list of columns in parentheses obeys every lenient law. -/
theorem columnList : Obeys law (columnList settings) :=
  (consume _).bind fun _ => ite columnNames (reject nofun)

/-- An optional list of columns obeys every lenient law. -/
theorem optionalColumnList : Obeys law (optionalColumnList settings) :=
  (consume _).bind fun _ => ite columnNames (pure _)

/-- The name of a constraint obeys every lenient law. -/
theorem constraintName? : Obeys law (constraintName? settings) :=
  (consume _).bind fun _ => ite ((identifier .constraintName nofun).bind fun _ => pure _) (pure _)

/-- A referential action obeys every lenient law. -/
theorem referentialAction : Obeys law referentialAction := by
  refine next.bind fun token => ?_
  cases token with
  | keyword keyword =>
    cases keyword with
    | restrict => exact pure _
    | cascade => exact pure _
    | «set» =>
      exact (consume _).bind fun _ => ite (pure _)
        ((consume _).bind fun _ => ite (pure _) (reject nofun))
    | no => exact (require _).bind fun _ => pure _
    | _ => exact rejectRead .referentialAction _ nofun
  | _ => exact rejectRead .referentialAction _ nofun

/-- What a foreign key refers to obeys every lenient law. -/
theorem foreignKey : Obeys law (foreignKey settings) := by
  refine objectName.bind fun _ => optionalColumnList.bind fun _ =>
    repeatStep (fun reference => ?_) _
  refine (consume _).bind fun _ => ite (previousPosition.bind fun _ => ?_) (pure _)
  have hdelete : Obeys law (do
      return .inl { reference with onDelete := some (← Grammar.referentialAction) } :
      Reading (ForeignKey ⊕ ForeignKey)) := referentialAction.bind fun _ => pure _
  have hupdate : Obeys law (do
      return .inl { reference with onUpdate := some (← Grammar.referentialAction) } :
      Reading (ForeignKey ⊕ ForeignKey)) := referentialAction.bind fun _ => pure _
  refine (consume _).bind fun _ => ite (ite (fail rfl) hdelete)
    ((consume _).bind fun _ => ite (ite (fail rfl) hupdate) (reject nofun))

/-- Reading the attributes of a constraint obeys every lenient law. -/
theorem finishTableConstraint (constraint : Constraint) :
    Obeys law (finishTableConstraint constraint) := by
  have hdeferrable : Obeys law deferrableMark :=
    (consumeKeywords _).bind fun _ => ite (pure _) (consume _)
  have hdeferred : Obeys law deferredMark :=
    (consumeKeywords _).bind fun _ => ite (pure _) ((consumeKeywords _).bind fun _ => pure _)
  have hattributes : Obeys law (constraintAttributes constraint) := by
    rw [constraintAttributes_eq]
    exact hdeferrable.bind fun _ => hdeferred.bind fun _ => (consumeKeywords _).bind fun _ => pure _
  exact hattributes.bind fun _ => (record _).bind fun _ => pure _

/-- A table constraint obeys every lenient law. -/
theorem tableConstraint : Obeys law (tableConstraint settings) := by
  refine here.bind fun entered => constraintName?.bind fun name => ?_
  refine here.bind fun start => next.bind fun token => ?_
  have hother : ∀ token, Obeys law (if name.isSome then Grammar.rejectRead .namedConstraint token
      else do Retreat.back start; Retreat.absent entered; return TableConstraint.absent) :=
    fun token => ite (rejectRead .namedConstraint _ nofun) (rewind.bind fun _ => pure _)
  cases token with
  | keyword keyword =>
    cases keyword with
    | not => exact (require _).bind fun _ => finishTableConstraint _
    | null => exact pure _
    | primary => exact (require _).bind fun _ => columnList.bind fun _ => finishTableConstraint _
    | unique => exact columnList.bind fun _ => finishTableConstraint _
    | foreign =>
      exact (require _).bind fun _ => columnList.bind fun _ => (require _).bind fun _ =>
        foreignKey.bind fun _ => finishTableConstraint _
    | check => exact fail rfl
    | _ => exact hother _
  | _ => exact hother _

/-- What one level of an expression holds obeys a lenient law if what it nests does. -/
theorem operand {inner : Reading Expression} (h : Obeys law inner) :
    Obeys law (operand settings inner) := by
  refine here.bind fun start => next.bind fun token => ?_
  cases token with
  | number text => exact pure _
  | string value => exact pure _
  | keyword keyword =>
    cases keyword with
    | null => exact pure _
    | true => exact pure _
    | false => exact pure _
    | _ => exact rejectRead .expression _ nofun
  | minus => exact h.bind fun _ => pure _
  | leftParen => exact h.bind fun _ => (require .rightParen).bind fun _ => pure _
  | word word =>
    refine rewind.bind fun _ => (identifier .identifier nofun).bind fun name => ?_
    refine (consume .leftParen).bind fun _ => ite ?_ (pure _)
    exact (h.listRest .argumentSeparator nofun).bind fun _ => pure _
  | _ => exact rejectRead .expression _ nofun

/-- A level of its own obeys a lenient law if what it holds does: one more is counted, and one less
again. -/
theorem nested {level : Reading Expression} (h : Obeys law level) :
    Obeys law (nested settings level) := by
  intro s _
  have hlevel := h { s with nesting := s.nesting + 1 } (Law.Lenient.begins _)
  rw [Grammar.nested]
  split
  · cases hrun : level { s with nesting := s.nesting + 1 } with
    | ok value s' =>
      rw [hrun] at hlevel
      exact Law.Lenient.gives_level hlevel
    | error failure s' =>
      rw [hrun] at hlevel
      exact Law.Lenient.fails_level hlevel
  · exact Law.Lenient.refuses s rfl

/-- An expression obeys every lenient law. -/
theorem expressionWithin (levels : Nat) : Obeys law (expressionWithin settings levels) := by
  induction levels with
  | zero => exact fun s _ => Law.Lenient.refuses s rfl
  | succ levels ih => exact ih.operand.nested

/-- A step through the options of a column obeys every lenient law. -/
theorem columnStep (found : List NamedOption) : Obeys law (columnStep settings found) := by
  have hoption : Obeys law (columnOption settings) := by
    refine constraintName?.bind fun name => next.bind fun token => ?_
    cases token with
    | keyword keyword =>
      cases keyword with
      | not => exact (require _).bind fun _ => pure _
      | null => exact pure _
      | default => exact (expressionWithin _).bind fun _ => pure _
      | primary => exact (require _).bind fun _ => pure _
      | unique => exact pure _
      | references => exact foreignKey.bind fun _ => pure _
      | check => exact fail rfl
      | _ => exact rejectRead .columnOption _ nofun
    | _ => exact rejectRead .columnOption _ nofun
  refine peek.bind fun _ => ite (pure _) (position.bind fun _ => hoption.bind fun named => ?_)
  exact ite (fail rfl) (pure _)

/-- What stands behind the type of a column obeys every lenient law. -/
theorem columnRest (name : String) (dataType : DataType) :
    Obeys law (collation? settings >>= columnRest settings name dataType) := by
  have hcollation : Obeys law (collation? settings) :=
    (consume _).bind fun _ => ite (objectName.bind fun _ => pure _) (pure _)
  exact hcollation.bind fun _ => (repeatStep columnStep _).bind fun _ =>
    (record _).bind fun _ => pure _

/-- The creation of a schema obeys every lenient law. -/
theorem createSchema : Obeys law (createSchema settings) :=
  (consumeKeywords _).bind fun _ => objectName.bind fun _ => (record _).bind fun _ => pure _

/-- A removal obeys every lenient law. -/
theorem drop : Obeys law (drop settings) := by
  have hrule : Obeys law (do
      let ifExists ← Grammar.consumeKeywords [.«if», .«exists»]
      let name ← Grammar.objectName settings
      let cascade ← consumeKeyword .cascade
      unless cascade do let _ ← consumeKeyword .restrict
      Grammar.record (.droppedTable name)
      return Statement.dropTable ⟨name, ifExists, cascade⟩) := by
    refine (consumeKeywords _).bind fun _ => objectName.bind fun _ =>
      (consume _).bind fun cascade => ?_
    cases cascade with
    | true => exact (record _).bind fun _ => pure _
    | false => exact (consume _).bind fun _ => (record _).bind fun _ => pure _
  exact (consume _).bind fun _ => ite hrule (reject nofun)

/-- The end of a statement obeys every lenient law. -/
theorem endOfStatement : Obeys law endOfStatement :=
  (consume _).bind fun _ => peek.bind fun _ => ite (pure _) (reject nofun)

end Obeys

end SqlDdl.Grammar
