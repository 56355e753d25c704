import SqlDdl.Proofs.Modifiers

/-!
# Modifiers are asked for nowhere else

Whenever a statement is refused because a modifier is missing, what was read before is what stands
before one of the six places. The parts of the grammar that hold no data type never ask for a
modifier, so the refusal comes from the type of a column, and what was read before that column is
complete.
-/

namespace SqlDdl.Grammar

variable {α β : Type} {settings : Settings}

/-- No reading ends because a modifier is missing. -/
def Law.modifiers : Law where
  begins _ := True
  gives _ _ := True
  fails _ failure _ := failure.lacksModifier = false
  stays _ := trivial
  begins_behind _ _ := trivial
  gives_behind _ _ := trivial
  fails_behind _ hfails := hfails
  stalls _ := rfl

/-- Only a missing modifier is ruled out. -/
instance : Law.modifiers.Lenient where
  begins _ := trivial
  moves _ _ _ := trivial
  refuses _ _ hlacks := hlacks
  gives_level _ := trivial
  fails_level hlacks := hlacks

/-- Wherever a reading begins, it never ends because a modifier is missing. -/
def NeverLacks (p : Reading α) : Prop := Obeys .modifiers p

/-- Some tokens were passed over, and behind them a modifier is missing. -/
structure Misses (c : Cursor) (ts : List Token) (c' : Cursor) (failure : Failure) : Prop extends
    c.Passes ts c' where
  /-- The failure tells the token that stands in its place. -/
  failure_eq : failure = .error (c'.expected .typeModifier c'.peek)

/-- What is missing behind a passage is missing behind the tokens of both. -/
theorem Misses.behind {c c₁ c₂ : Cursor} {us ts : List Token} {failure : Failure}
    (h : Misses c₁ ts c₂ failure) (hpass : c.Passes us c₁) : Misses c (us ++ ts) c₂ failure :=
  ⟨hpass.trans h.toPasses, h.failure_eq⟩

/-- Whenever a reading ends because a modifier is missing, it is missing behind one of the given
runs of tokens. -/
def LacksBehind (p : Reading α) (before : List Token → Prop) : Prop :=
  ∀ (s s' : State) (failure : Failure), s.cursor.Closed → p s = .error failure s' →
    failure.lacksModifier = true → ∃ ts, before ts ∧ Misses s.cursor ts s'.cursor failure

variable {before earlier later : List Token → Prop}

/-- A reading that asks for no modifier does not fail because one is missing. -/
theorem NeverLacks.not_lacks {p : Reading α} (h : NeverLacks p) {s s' : State} {failure : Failure}
    (hfail : p s = .error failure s') : failure.lacksModifier ≠ true := by
  have hs := h s trivial
  rw [hfail] at hs
  exact Bool.eq_false_iff.mp hs

/-- A reading that asks for no modifier lacks none. -/
theorem NeverLacks.behind {p : Reading α} (h : NeverLacks p) : LacksBehind p before :=
  fun _ _ _ _ hfail hlacks => absurd hlacks (h.not_lacks hfail)

namespace LacksBehind

/-- The runs may be any that hold these. -/
theorem mono {p : Reading α} (h : LacksBehind p earlier) (hb : ∀ ts, earlier ts → before ts) :
    LacksBehind p before := by
  intro s s' failure hc hfail hlacks
  obtain ⟨ts, hts, hmiss⟩ := h _ _ _ hc hfail hlacks
  exact ⟨ts, hb ts hts, hmiss⟩

/-- A sequence lacks a modifier in its first part, or in its second behind what the first spells. -/
theorem bind {p : Reading α} {f : α → Reading β} {read : List Token → Prop}
    (hp : LacksBehind p earlier) (hs : Spells p read) (hf : ∀ a, LacksBehind (f a) later)
    (hfirst : ∀ ts, earlier ts → before ts)
    (hsecond : ∀ us vs, read us → later vs → before (us ++ vs)) : LacksBehind (p >>= f) before := by
  intro s s' failure hc hfail hlacks
  rcases bind_error hfail with hfail | ⟨a, s₁, ha, hfail⟩
  · obtain ⟨ts, hts, hmiss⟩ := hp _ _ _ hc hfail hlacks
    exact ⟨ts, hfirst ts hts, hmiss⟩
  · obtain ⟨us, hus, hpass⟩ := hs hc ha
    obtain ⟨vs, hvs, hmiss⟩ := hf a _ _ _ (hpass.closed hc) hfail hlacks
    exact ⟨us ++ vs, hsecond us vs hus hvs, hmiss.behind hpass⟩

/-- A sequence whose first part asks for no modifier lacks one in its second. -/
theorem second {p : Reading α} {f : α → Reading β} {read : List Token → Prop} (hp : NeverLacks p)
    (hs : Spells p read) (hf : ∀ a, LacksBehind (f a) later)
    (h : ∀ us vs, read us → later vs → before (us ++ vs)) : LacksBehind (p >>= f) before :=
  bind hp.behind hs hf (fun _ => False.elim) h

/-- A sequence whose second part asks for no modifier lacks one in its first. -/
theorem first {p : Reading α} {f : α → Reading β} (hp : LacksBehind p before)
    (hf : ∀ a, NeverLacks (f a)) : LacksBehind (p >>= f) before := by
  intro s s' failure hc hfail hlacks
  rcases bind_error hfail with hfail | ⟨a, s₁, -, hfail⟩
  · exact hp _ _ _ hc hfail hlacks
  · exact absurd hlacks ((hf a).not_lacks hfail)

/-- A choice by the current token lacks a modifier behind that token or in the other branch. -/
theorem choose {token : Token} {p q : Reading α} (ht : token ≠ .eof) (hp : LacksBehind p later)
    (h : ∀ ts, later ts → before (token :: ts)) (hq : LacksBehind q before) :
    LacksBehind (do if ← consume token then p else q) before := by
  intro s s' failure hc hfail hlacks
  obtain ⟨found, s₁, hf, hfail⟩ := bind_error_of_ok (consume_total token) hfail
  rcases consume_ok hf ht with ⟨rfl, hpass⟩ | ⟨rfl, rfl⟩
  · obtain ⟨ts, hts, hmiss⟩ := hp _ _ _ (hpass.closed hc) hfail hlacks
    exact ⟨token :: ts, h ts hts, hmiss.behind hpass⟩
  · exact hq _ _ _ hc hfail hlacks

/-- A reading that takes the current token and goes on for one token only lacks a modifier behind
that one. -/
theorem read (token : Token) {f : Token → Reading α} (ht : token ≠ .eof)
    (hf : LacksBehind (f token) later) (hother : ∀ other, other ≠ token → NeverLacks (f other))
    (h : ∀ ts, later ts → before (token :: ts)) : LacksBehind (next >>= f) before := by
  intro s s' failure hc hfail hlacks
  obtain ⟨found, s₁, hn, hfail⟩ := bind_error_of_ok (fun s => ⟨_, _, rfl⟩) hfail
  obtain ⟨-, -, hpass⟩ := next_ok hn
  by_cases he : found = token
  · subst he
    obtain ⟨ts, hts, hmiss⟩ := hf _ _ _ ((hpass ht).closed hc) hfail hlacks
    exact ⟨_, h ts hts, hmiss.behind (hpass ht)⟩
  · exact absurd hlacks ((hother found he).not_lacks hfail)

/-- A repetition lacks a modifier in one of its steps, if whatever the steps before it read can
stand before it. -/
theorem repeatStep {step : α → Reading (α ⊕ β)} (h : ∀ a, LacksBehind (step a) before)
    (hgo : ∀ {a a' : α} {s s' : State}, s.cursor.Closed → step a s = .ok (.inl a') s' →
      ∃ us, s.cursor.Passes us s'.cursor ∧ ∀ vs, before vs → before (us ++ vs)) (a : α) :
    LacksBehind (Grammar.repeatStep step a) before := by
  intro s s' failure hc hfail hlacks
  fun_induction Grammar.repeatStep step a s with
  | case1 a s failure s₁ hs =>
    cases hfail
    exact h a _ _ _ hc hs hlacks
  | case2 => cases hfail
  | case3 a s a' s₁ hs _ ih =>
    obtain ⟨us, hpass, hus⟩ := hgo hc hs
    obtain ⟨ts, hts, hmiss⟩ := ih (hpass.closed hc) hfail
    exact ⟨us ++ ts, hus ts hts, hmiss.behind hpass⟩
  | case4 =>
    cases hfail
    cases hlacks

end LacksBehind

/-- A modifier is missing where it is asked for. -/
theorem typeModifier_lacksBehind : LacksBehind typeModifier fun ts => ts = [] := by
  intro s s' failure hc hfail hlacks
  refine ⟨[], rfl, ?_⟩
  obtain ⟨token, s₁, hp, hfail⟩ := bind_error_of_ok (fun s => ⟨_, s, rfl⟩) hfail
  obtain ⟨ht, rfl⟩ := peek_ok hp
  cases token with
  | number text =>
    cases hv : Text.readDecimal? UInt32.size text with
    | some value =>
      simp only [hv] at hfail
      cases hfail
    | none =>
      simp only [hv] at hfail
      cases hfail
      exact ⟨.refl _, rfl⟩
  | _ =>
    cases hfail
    exact ⟨.refl _, rfl⟩

/-- A length is missing behind its opening parenthesis. -/
theorem typeLength_lacksBehind : LacksBehind typeLength fun ts => ts = [.leftParen] := by
  refine .choose (by decide) (typeModifier_lacksBehind.first fun _ =>
    (Obeys.require _).bind fun _ => .pure _) ?_ (NeverLacks.behind (.pure _))
  rintro _ rfl
  rfl

/-- A precision or a scale is missing behind the opening parenthesis or behind the comma. -/
theorem numericModifiers_lacksBehind : LacksBehind numericModifiers fun ts =>
    ts = [.leftParen] ∨ ∃ first : Modifier, ts = .leftParen :: (first.tokens ++ [.comma]) := by
  have hscale : ∀ precision : UInt32, LacksBehind (do
      let scale ← if ← consume .comma then some <$> typeModifier else Pure.pure none
      require .rightParen
      return (some precision, scale)) fun ts => ts = [.comma] := by
    intro precision
    have hmodifier : LacksBehind (some <$> typeModifier) fun ts => ts = [] :=
      typeModifier_lacksBehind.first fun _ => .pure _
    have hclose : ∀ scale, NeverLacks (do require .rightParen; return (some precision, scale) :
        Reading (Option UInt32 × Option UInt32)) := fun _ =>
      (Obeys.require _).bind fun _ => .pure _
    refine .choose (by decide) (hmodifier.first hclose) ?_ (hclose none).behind
    rintro _ rfl
    rfl
  have hboth : LacksBehind (do
      let precision ← typeModifier
      let scale ← if ← consume .comma then some <$> typeModifier else Pure.pure none
      require .rightParen
      return (some precision, scale)) fun ts =>
        ts = [] ∨ ∃ first : Modifier, ts = first.tokens ++ [.comma] := by
    refine typeModifier_lacksBehind.bind spells_typeModifier hscale (fun _ => .inl) ?_
    rintro _ _ ⟨first, rfl⟩ rfl
    exact .inr ⟨first, rfl⟩
  refine .choose (by decide) hboth ?_ (NeverLacks.behind (.pure _))
  rintro _ (rfl | ⟨first, rfl⟩)
  · exact .inl rfl
  · exact .inr ⟨first, rfl⟩

/-- The rest of a built-in type lacks a modifier at one of the places behind its word. -/
theorem typeRest_lacksBehind {head : TypeHead} (word : TypeWord head) :
    LacksBehind (typeRest head) fun ts =>
      ∃ begun : OpenType, begun.tokens = .word word.word :: ts := by
  have hlength : ∀ type : Option UInt32 → DataType,
      LacksBehind (do return type (← typeLength)) fun ts => ts = [.leftParen] := fun _ =>
    typeLength_lacksBehind.first fun _ => .pure _
  cases head with
  | plain dataType => exact NeverLacks.behind (.pure _)
  | float =>
    refine (hlength _).mono ?_
    rintro _ rfl
    exact ⟨.float word, rfl⟩
  | double =>
    have hsecond : NeverLacks (typeRest .double) :=
      .bind .peek fun _ => .ite (.bind .next fun _ => .pure _) (.reject nofun)
    exact hsecond.behind
  | numeric =>
    refine (numericModifiers_lacksBehind.first fun _ => .pure _).mono ?_
    rintro _ (rfl | ⟨first, rfl⟩)
    · exact ⟨.precision word, rfl⟩
    · exact ⟨.scale word first, rfl⟩
  | varchar =>
    refine (hlength _).mono ?_
    rintro _ rfl
    exact ⟨.varchar word, rfl⟩
  | character =>
    intro s s' failure hc hfail hlacks
    obtain ⟨token, s₁, hp, hfail⟩ := bind_error_of_ok (fun s => ⟨_, s, rfl⟩) hfail
    obtain ⟨ht, rfl⟩ := peek_ok hp
    split at hfail
    next hw =>
      obtain ⟨second, rfl⟩ := isWordNamed_iff.mp hw
      obtain ⟨_, s₂, hn, hfail⟩ := bind_error_of_ok (fun s => ⟨_, _, rfl⟩) hfail
      obtain ⟨ht', -, hpass⟩ := next_ok hn
      rw [ht] at ht'
      subst ht'
      obtain ⟨_, rfl, hmiss⟩ := hlength _ _ _ _ ((hpass nofun).closed hc) hfail hlacks
      exact ⟨_, ⟨.varying word second, rfl⟩, hmiss.behind (hpass nofun)⟩
    next =>
      obtain ⟨_, rfl, hmiss⟩ := hlength _ _ _ _ hc hfail hlacks
      exact ⟨_, ⟨.character word, rfl⟩, hmiss⟩

/-- A data type lacks a modifier where it breaks off. -/
theorem dataType_lacksBehind : LacksBehind (dataType settings) (Written OpenType.tokens) := by
  intro s s' failure hc hfail hlacks
  obtain ⟨token, s₁, hp, hfail⟩ := bind_error_of_ok (fun s => ⟨_, s, rfl⟩) hfail
  obtain ⟨ht, rfl⟩ := peek_ok hp
  cases token with
  | word word =>
    cases hh : typeHead? word with
    | some head =>
      simp only [hh] at hfail
      obtain ⟨hq, hk⟩ := typeHead?_eq_some_iff.mp hh
      obtain ⟨_, s₂, hn, hfail⟩ := bind_error_of_ok (fun s => ⟨_, _, rfl⟩) hfail
      obtain ⟨ht', -, hpass⟩ := next_ok hn
      rw [ht] at ht'
      subst ht'
      obtain ⟨ts, ⟨begun, hbegun⟩, hmiss⟩ :=
        typeRest_lacksBehind ⟨word, hq, hk⟩ _ _ _ ((hpass nofun).closed hc) hfail hlacks
      exact ⟨_, ⟨begun, hbegun⟩, hmiss.behind (hpass nofun)⟩
    | none =>
      simp only [hh] at hfail
      have hname : NeverLacks (do return DataType.custom (← objectName settings)) :=
        Obeys.objectName.bind fun _ => .pure _
      exact hname.behind _ _ _ hc hfail hlacks
  | _ =>
    cases hfail
    cases hlacks

/-- The tokens of a column that breaks off before a modifier. -/
def columnBefore (column : Identifier × OpenType) : List Token :=
  column.1.tokens ++ column.2.tokens

/-- A column lacks a modifier in its type. -/
theorem columnEntry_lacksBehind : LacksBehind (columnEntry settings) (Written columnBefore) := by
  refine LacksBehind.second (.identifier .columnName nofun) (spells_identifier _)
    (fun name => dataType_lacksBehind.first fun dataType => Obeys.columnRest name dataType) ?_
  rintro _ _ ⟨name, rfl⟩ ⟨begun, rfl⟩
  exact ⟨(name, begun), rfl⟩

/-- An entry of a table lacks a modifier where it is a column that does. -/
theorem tableEntry_lacksBehind : LacksBehind (tableEntry settings) (Written columnBefore) := by
  intro s s' failure hc hfail hlacks
  rcases bind_error hfail with hfail | ⟨result, s₁, ht, hfail⟩
  · exact NeverLacks.behind .tableConstraint _ _ _ hc hfail hlacks
  · cases result with
    | found declared => cases hfail
    | discarded => cases hfail
    | absent =>
      have hpass : s.cursor.Passes [] s₁.cursor := tableConstraint_ok hc ht
      have hword : LacksBehind (do return TableEntry.column (← columnEntry settings))
          (Written columnBefore) := columnEntry_lacksBehind.first fun _ => .pure _
      obtain ⟨token, s₂, hp, hfail⟩ := bind_error_of_ok (fun s => ⟨_, s, rfl⟩) hfail
      obtain ⟨-, rfl⟩ := peek_ok hp
      split at hfail
      next =>
        obtain ⟨ts, hts, hmiss⟩ := hword _ _ _ (hpass.closed hc) hfail hlacks
        exact ⟨ts, hts, hmiss.behind hpass⟩
      next =>
        cases hfail
        cases hlacks

/-- The tokens behind the parenthesis of a table that breaks off before a modifier: complete entries
and a column. -/
def EntriesBefore (settings : Settings) (ts : List Token) : Prop :=
  ∃ (entries : List EntryPhrase) (column : Identifier × OpenType),
    (∀ entry ∈ entries, entry.Admissible settings.maxExpressionDepth) ∧
      entries.flatMap (·.tokens ++ [.comma]) ++ columnBefore column = ts

/-- One more complete entry may stand before others. -/
theorem EntriesBefore.cons {entry : EntryPhrase} {ts : List Token}
    (hentry : entry.Admissible settings.maxExpressionDepth) (h : EntriesBefore settings ts) :
    EntriesBefore settings (entry.tokens ++ [.comma] ++ ts) := by
  obtain ⟨entries, column, hentries, rfl⟩ := h
  refine ⟨entry :: entries, column, List.forall_mem_cons.mpr ⟨hentry, hentries⟩, ?_⟩
  rw [List.flatMap_cons, List.append_assoc]

/-- The entries of a table lack a modifier in a column behind complete entries. -/
theorem tableEntries_lacksBehind : LacksBehind (tableEntries settings) fun ts =>
    ∃ behind, EntriesBefore settings behind ∧ ts = .leftParen :: behind := by
  have hspells : Spells (tableEntry settings) fun ts => ∃ entry : EntryPhrase,
      entry.Admissible settings.maxExpressionDepth ∧ entry.tokens = ts := by
    intro s s' value hc h
    obtain ⟨entry, hentry, -, hpass⟩ := tableEntry_ok hc h
    exact ⟨_, ⟨entry, hentry, rfl⟩, hpass⟩
  have hstep : ∀ found, LacksBehind (closedStep (tableEntry settings) .entrySeparator found)
      (EntriesBefore settings) := by
    intro found
    rw [closedStep_eq]
    refine (tableEntry_lacksBehind.first fun _ => .afterItem .entrySeparator nofun _).mono ?_
    rintro _ ⟨column, rfl⟩
    exact ⟨[], column, fun _ => (absurd · List.not_mem_nil), rfl⟩
  have hlist : LacksBehind (closedList (tableEntry settings) .entrySeparator)
      (EntriesBefore settings) := by
    refine LacksBehind.repeatStep hstep ?_ []
    intro found found' s s' hc h
    obtain ⟨_, ⟨entry, hentry, rfl⟩, hpass⟩ := hspells.closedStep hc h
    exact ⟨_, hpass, fun _ => EntriesBefore.cons hentry⟩
  have hrest : LacksBehind (listRest (tableEntry settings) .entrySeparator)
      (EntriesBefore settings) :=
    .choose (by decide) (NeverLacks.behind (.pure _)) (fun _ => False.elim) hlist
  rw [tableEntries_eq]
  exact .choose (by decide) hrest (fun ts hts => ⟨ts, hts, rfl⟩) (NeverLacks.behind (.pure _))

/-- The creation of a table lacks a modifier at one of the places for it. -/
theorem createTable_lacksBehind : LacksBehind (createTable settings) fun ts =>
    ∃ place : ModifierPlace, place.Admissible settings.maxExpressionDepth ∧
      place.tokens = .keyword .create :: .keyword .table :: ts := by
  have hfinish : ∀ (name : ObjectName) (ifNotExists : Bool) (entries : List TableEntry),
      NeverLacks (do
        let columns := entries.filterMap TableEntry.column?
        let constraints := entries.flatMap TableEntry.constraints
        record (.createdTable name columns.length constraints.length)
        return Statement.createTable ⟨name, ifNotExists, columns, constraints⟩) :=
    fun _ _ _ => .bind (.record _) fun _ => .pure _
  have hname : ∀ ifNotExists : Bool, LacksBehind (do
      let name ← objectName settings
      let entries ← tableEntries settings
      let columns := entries.filterMap TableEntry.column?
      let constraints := entries.flatMap TableEntry.constraints
      record (.createdTable name columns.length constraints.length)
      return Statement.createTable ⟨name, ifNotExists, columns, constraints⟩) fun ts =>
        ∃ (name : Identifiers) (behind : List Token), EntriesBefore settings behind ∧
          ts = name.dotted ++ .leftParen :: behind := by
    intro ifNotExists
    refine LacksBehind.second .objectName spells_objectName
      (fun name => tableEntries_lacksBehind.first (hfinish name ifNotExists)) ?_
    rintro _ _ ⟨name, rfl⟩ ⟨behind, hbehind, rfl⟩
    exact ⟨name, behind, hbehind, rfl⟩
  refine LacksBehind.second (.consumeKeywords _) (spells_keywordTokens _) hname ?_
  rintro _ _ ⟨ifNotExists, rfl⟩ ⟨name, _, ⟨entries, ⟨column, begun⟩, hentries, rfl⟩, rfl⟩
  exact ⟨⟨ifNotExists, name, entries, column, begun⟩, hentries, rfl⟩

/-- A statement lacks a modifier at one of the places for it. -/
theorem statement_lacksBehind : LacksBehind (statement settings) fun ts =>
    ∃ place : ModifierPlace, place.Admissible settings.maxExpressionDepth ∧ place.tokens = ts := by
  have hcreate : LacksBehind (create settings) fun ts => ∃ place : ModifierPlace,
      place.Admissible settings.maxExpressionDepth ∧ place.tokens = .keyword .create :: ts := by
    refine .read (.keyword .table) (by decide) createTable_lacksBehind (fun other hother => ?_)
      fun _ h => h
    cases other with
    | keyword keyword =>
      cases keyword with
      | table => exact absurd rfl hother
      | schema => exact .createSchema
      | view => exact .fail rfl
      | index => exact .fail rfl
      | _ => exact .rejectRead .afterCreate _ nofun
    | _ => exact .rejectRead .afterCreate _ nofun
  have hopen : LacksBehind (openStatement settings) fun ts => ∃ place : ModifierPlace,
      place.Admissible settings.maxExpressionDepth ∧ place.tokens = ts := by
    refine .read (.keyword .create) (by decide) hcreate (fun other hother => ?_) fun _ h => h
    cases other with
    | keyword keyword =>
      cases keyword with
      | create => exact absurd rfl hother
      | drop => exact .drop
      | _ => exact .rejectRead .statement _ nofun
    | _ => exact .rejectRead .statement _ nofun
  exact hopen.first fun tree => Obeys.endOfStatement.bind fun _ => .pure tree

/-- A statement that breaks off behind some tokens is refused because a modifier is missing
there. -/
def AwaitsModifier (settings : Settings) (ts : List Token) : Prop :=
  ∃ position s', statement settings (stateOf ts) =
    .error (.error (.expected .typeModifier .eof position)) s'

/-- A token that is no modifier is refused in the place of one. -/
theorem typeModifier_refuses {s : State} (h : ∀ modifier : Modifier,
    s.cursor.peek ≠ .number modifier.text) :
    typeModifier s = .error (.error (s.cursor.expected .typeModifier s.cursor.peek)) s := by
  have hpeek : peek s = .ok s.cursor.peek s := rfl
  have hreject : (reject .typeModifier : Reading UInt32) s =
      .error (.error (s.cursor.expected .typeModifier s.cursor.peek)) s := rfl
  rw [typeModifier, run_bind hpeek, ← hreject]
  cases ht : s.cursor.peek with
  | number text =>
    cases hv : Text.readDecimal? UInt32.size text with
    | some value => exact absurd ht (h ⟨text, value, hv⟩)
    | none => simp only [hv]
  | _ => rfl

/-- A modifier is awaited behind some tokens exactly if they stand before a place for one. -/
theorem awaitsModifier_iff {ts : List Token} (hend : .eof ∉ ts) :
    AwaitsModifier settings ts ↔ ∃ place : ModifierPlace,
      place.Admissible settings.maxExpressionDepth ∧ place.tokens = ts := by
  have hahead := ahead_stateOf ts
  have hclosed : (stateOf ts).cursor.Closed := by
    rw [Cursor.Closed, hahead]
    exact List.getLast?_concat
  constructor
  · rintro ⟨position, s', hfail⟩
    obtain ⟨us, ⟨place, hp, rfl⟩, hmiss⟩ := statement_lacksBehind _ _ _ hclosed hfail rfl
    have hpeek : s'.cursor.peek = .eof := by
      have hfailure := hmiss.failure_eq
      rw [Cursor.expected] at hfailure
      injection hfailure with herror
      injection herror with _ hfound _
      exact hfound.symm
    obtain ⟨token, rest, ha⟩ := (hmiss.closed hclosed).ahead_eq
    rw [Cursor.peek_of_ahead ha] at hpeek
    have hhead : s'.cursor.ahead.head? = some .eof := by rw [ha, hpeek]; rfl
    have hall := hmiss.takeWhile_ahead hhead
    rw [hahead] at hall
    refine ⟨place, hp, ?_⟩
    have hother : ∀ token ∈ ts, decide (token ≠ .eof) = true := fun token ht =>
      decide_eq_true (ne_of_mem_of_not_mem ht hend)
    rw [← hall, List.takeWhile_append_of_pos hother, List.takeWhile_cons_of_neg (by decide),
      List.append_nil]
  · rintro ⟨place, hp, rfl⟩
    obtain ⟨s₁, hpass, hfail, -⟩ :=
      statement_leadsTo place (s := stateOf place.tokens) rfl hp hahead
    have hpeek : s₁.cursor.peek = .eof := Cursor.peek_of_ahead (hpass.ahead_eq hahead)
    have hrefused := typeModifier_refuses fun modifier => by
      rw [hpeek]
      exact Token.noConfusion
    rw [hpeek] at hrefused
    exact ⟨_, _, hfail _ _ hrefused⟩

end SqlDdl.Grammar
