import SqlDdl.Proofs.Onward
import SqlDdl.Proofs.Stops.Grammar

/-!
# Where modifiers stand

A length, a precision or a scale is asked for at six places of a data type, each of them behind the
name of a column in a table. What stands before such a place is read as it is written, and then the
modifier is read: if it is none, the statement is refused there, and if it is one, it is what the
type of that column holds.
-/

namespace SqlDdl

open Grammar (TableEntry)

/-- A data type that breaks off before a modifier. -/
inductive OpenType where
  | float (word : TypeWord .float)
  | varchar (word : TypeWord .varchar)
  | character (word : TypeWord .character)
  | varying (word : TypeWord .character) (second : SecondWord "VARYING")
  /-- A numeric type before its precision. -/
  | precision (word : TypeWord .numeric)
  /-- A numeric type before its scale. -/
  | scale (word : TypeWord .numeric) (first : Modifier)

namespace OpenType

/-- The tokens before the modifier. -/
def tokens : OpenType → List Token
  | float word => [.word word.word, .leftParen]
  | varchar word => [.word word.word, .leftParen]
  | character word => [.word word.word, .leftParen]
  | varying word second => [.word word.word, .word second.word, .leftParen]
  | precision word => [.word word.word, .leftParen]
  | scale word first => .word word.word :: .leftParen :: (first.tokens ++ [.comma])

/-- A data type is the one that was begun, with the given modifier. -/
def Records : OpenType → UInt32 → DataType → Prop
  | float _, value, dataType => dataType = if value.toNat ≤ 24 then .real else .doublePrecision
  | varchar _, value, dataType => dataType = .varchar (some value)
  | character _, value, dataType => dataType = .char (some value)
  | varying _ _, value, dataType => dataType = .varchar (some value)
  | precision _, value, dataType => ∃ scale, dataType = .numeric (some value) scale
  | scale _ first, value, dataType => dataType = .numeric (some first.meaning) (some value)

end OpenType

/-- A creation of a table that breaks off before a modifier. -/
structure ModifierPlace where
  /-- Whether `IF NOT EXISTS` stands before the name of the table. -/
  ifNotExists : Bool
  /-- The name of the table. -/
  table : Identifiers
  /-- The entries before the column with the modifier, each with a comma behind it. -/
  entries : List EntryPhrase
  /-- The name of the column with the modifier. -/
  column : Identifier
  /-- The type of that column, as far as it is written. -/
  dataType : OpenType

namespace ModifierPlace

/-- The tokens from the parenthesis of the table on. -/
def entryTokens (place : ModifierPlace) : List Token :=
  .leftParen :: (place.entries.flatMap (·.tokens ++ [.comma]) ++
    (place.column.tokens ++ place.dataType.tokens))

/-- The tokens before the modifier. -/
def tokens (place : ModifierPlace) : List Token :=
  .keyword .create :: .keyword .table ::
    (Sentence.keywordTokens place.ifNotExists [.«if», .not, .«exists»] ++
      (place.table.dotted ++ place.entryTokens))

/-- The rules on what may not repeat and on depth hold in the entries before. -/
def Admissible (limit : Nat) (place : ModifierPlace) : Prop :=
  ∀ entry ∈ place.entries, entry.Admissible limit

/-- How many columns the table has before the one with the modifier. -/
def columnsBefore (place : ModifierPlace) : Nat := place.entries.countP (· matches .column _)

/-- A column has the name that stands before the modifier and the type that was begun. -/
def Keeps (settings : Settings) (place : ModifierPlace) (value : UInt32) (column : Column) : Prop :=
  column.name = place.column.meaning settings ∧ place.dataType.Records value column.dataType

/-- A statement creates a table in which the column with the modifier follows those before it. -/
def KeptBy (settings : Settings) (place : ModifierPlace) (value : UInt32) : Statement → Prop
  | .createTable table =>
    ∃ column, table.columns[place.columnsBefore]? = some column ∧ place.Keeps settings value column
  | _ => False

/-- Entries mean as many columns as are counted among them. -/
theorem length_columns (settings : Settings) (entries : List EntryPhrase) :
    ((entries.map (·.entry settings)).filterMap TableEntry.column?).length =
      entries.countP (· matches .column _) := by
  have hcolumn : ∀ entry : EntryPhrase,
      (entry.entry settings).column?.isSome = (entry matches .column _) := by
    intro entry
    cases entry <;> rfl
  rw [List.filterMap_map, List.length_filterMap_eq_countP]
  simp only [Function.comp_apply, hcolumn]

end ModifierPlace

namespace Grammar

variable {settings : Settings} {s : State} {rest : List Token}

/-- A closing parenthesis and a value are read onward. -/
theorem closing_onward {α : Type} (a : α) :
    Onward (do require .rightParen; return a : Reading α) :=
  (Onward.require (by decide)).bind fun _ => .pure a

/-- A modifier is read onward. -/
theorem typeModifier_onward : Onward typeModifier :=
  .of_stops typeModifier_stops spells_typeModifier

/-- A length in parentheses is read as a modifier. -/
theorem typeLength_leadsTo (h : s.cursor.ahead = .leftParen :: rest) :
    LeadsTo typeModifier typeLength s [.leftParen] fun value length => length = some value := by
  refine LeadsTo.afterRead (consume_reads h (by decide)) fun s₁ _ _ => ?_
  refine (LeadsTo.self typeModifier s₁).bind (fun length => closing_onward (some length)) ?_
  rintro value _ length s₂ s₃ rfl hrun
  obtain ⟨_, s₄, -, hrun⟩ := bind_ok hrun
  exact (pure_ok hrun).1.symm

/-- A precision is read as a modifier. -/
theorem numericModifiers_leadsTo_precision (h : s.cursor.ahead = .leftParen :: rest) :
    LeadsTo typeModifier numericModifiers s [.leftParen] fun value modifiers =>
      modifiers.1 = some value := by
  have hscale : Onward (some <$> typeModifier) := typeModifier_onward.bind fun _ => .pure _
  refine LeadsTo.afterRead (consume_reads h (by decide)) fun s₁ _ _ => ?_
  refine (LeadsTo.self typeModifier s₁).bind (fun precision => ?_) ?_
  · refine (Onward.consume (by decide)).bind fun found => ?_
    cases found with
    | true => exact hscale.bind fun scale => closing_onward (some precision, scale)
    | false => exact closing_onward (some precision, none)
  · rintro value _ modifiers s₂ s₃ rfl hrun
    obtain ⟨found, s₄, -, hrun⟩ := bind_ok hrun
    cases found with
    | true =>
      obtain ⟨scale, s₅, -, hrun⟩ := bind_ok hrun
      obtain ⟨_, s₆, -, hrun⟩ := bind_ok hrun
      exact congrArg Prod.fst (pure_ok hrun).1.symm
    | false =>
      obtain ⟨_, s₅, -, hrun⟩ := bind_ok hrun
      obtain ⟨_, s₆, -, hrun⟩ := bind_ok hrun
      exact congrArg Prod.fst (pure_ok hrun).1.symm

/-- A scale is read as a modifier behind the precision and a comma. -/
theorem numericModifiers_leadsTo_scale (precision : Modifier)
    (h : s.cursor.ahead = .leftParen :: (precision.tokens ++ .comma :: rest)) :
    LeadsTo typeModifier numericModifiers s (.leftParen :: (precision.tokens ++ [.comma]))
      fun value modifiers => modifiers = (some precision.meaning, some value) := by
  refine LeadsTo.afterRead (consume_reads h (by decide)) fun s₁ _ ha₁ => ?_
  refine LeadsTo.afterRead (typeModifier_reads precision ha₁) fun s₂ _ ha₂ => ?_
  refine LeadsTo.afterRead (consume_reads ha₂ (by decide)) fun s₃ _ _ => ?_
  have hscale : LeadsTo typeModifier (some <$> typeModifier) s₃ []
      fun value scale => scale = some value := by
    refine (LeadsTo.self typeModifier s₃).bind (fun _ => .pure _) ?_
    rintro value _ scale s₄ s₅ rfl hrun
    exact (pure_ok hrun).1.symm
  refine hscale.bind (fun scale => closing_onward (some precision.meaning, scale)) ?_
  rintro value _ modifiers s₄ s₅ rfl hrun
  obtain ⟨_, s₆, -, hrun⟩ := bind_ok hrun
  exact (pure_ok hrun).1.symm

/-- A type with one of the lengths is read up to its modifier. -/
theorem typeOf_leadsTo {type : Option UInt32 → DataType}
    (h : s.cursor.ahead = .leftParen :: rest) :
    LeadsTo typeModifier (do return type (← typeLength)) s [.leftParen]
      fun value dataType => dataType = type (some value) := by
  refine (typeLength_leadsTo h).bind (fun _ => .pure _) ?_
  rintro value _ dataType s₁ s₂ rfl hrun
  exact (pure_ok hrun).1.symm

/-- Behind a first word that stands in the table of types the reading goes on by its entry. -/
theorem dataType_leadsTo_of_head {head : TypeHead} (word : TypeWord head) {ts : List Token}
    {Fits : UInt32 → DataType → Prop} (h : s.cursor.ahead = .word word.word :: (ts ++ rest))
    (hrest : ∀ s₁ : State, s₁.cursor.ahead = ts ++ rest →
      LeadsTo typeModifier (typeRest head) s₁ ts Fits) :
    LeadsTo typeModifier (dataType settings) s (.word word.word :: ts) Fits := by
  have hh := typeHead?_eq_some_iff.mpr ⟨word.unquoted, word.known⟩
  have hrun : dataType settings s = (next >>= fun _ => typeRest head) s := by
    rw [dataType, run_bind (run_peek h)]
    simp only [hh]
  refine LeadsTo.of_run ?_ hrun
  exact LeadsTo.afterRead (next_reads h Token.noConfusion) fun s₁ _ ha₁ => hrest s₁ ha₁

/-- A data type is read up to its modifier and holds it. -/
theorem dataType_leadsTo (begun : OpenType) (h : s.cursor.ahead = begun.tokens ++ rest) :
    LeadsTo typeModifier (dataType settings) s begun.tokens begun.Records := by
  cases begun with
  | float word =>
    refine dataType_leadsTo_of_head word h fun s₁ ha₁ => ?_
    refine (typeLength_leadsTo ha₁).bind (fun _ => .pure _) ?_
    rintro value _ dataType s₂ s₃ rfl hrun
    exact (pure_ok hrun).1.symm
  | varchar word => exact dataType_leadsTo_of_head word h fun s₁ ha₁ => typeOf_leadsTo ha₁
  | character word =>
    refine dataType_leadsTo_of_head word h fun s₁ ha₁ => ?_
    have hpeek : peek s₁ = .ok .leftParen s₁ := run_peek ha₁
    exact (typeOf_leadsTo ha₁).of_run (run_bind hpeek)
  | varying word second =>
    refine dataType_leadsTo_of_head word h fun s₁ ha₁ => ?_
    have hrun : typeRest .character s₁ =
        (next >>= fun _ => do return .varchar (← typeLength)) s₁ := by
      rw [typeRest, run_bind (run_peek ha₁), if_pos (isWordNamed_iff.mpr ⟨second, rfl⟩)]
    refine LeadsTo.of_run ?_ hrun
    exact LeadsTo.afterRead (next_reads ha₁ Token.noConfusion) fun s₂ _ ha₂ => typeOf_leadsTo ha₂
  | precision word =>
    refine dataType_leadsTo_of_head word h fun s₁ ha₁ => ?_
    refine (numericModifiers_leadsTo_precision ha₁).bind (fun _ => .pure _) ?_
    rintro value ⟨_, scale⟩ dataType s₂ s₃ rfl hrun
    exact ⟨scale, (pure_ok hrun).1.symm⟩
  | scale word first =>
    refine dataType_leadsTo_of_head word h fun s₁ ha₁ => ?_
    rw [List.cons_append, List.append_assoc] at ha₁
    refine (numericModifiers_leadsTo_scale first ha₁).bind (fun _ => .pure _) ?_
    rintro value _ dataType s₂ s₃ rfl hrun
    exact (pure_ok hrun).1.symm

/-- A collation is read onward. -/
theorem collation?_onward : Onward (collation? settings) :=
  .of_stops collation?_stops spells_collation?

/-- What follows the collation of a column is read onward. -/
theorem columnRest_onward (name : String) (dataType : DataType) (collation : Option ObjectName) :
    Onward (columnRest settings name dataType collation) := by
  have hspells : Spells (repeatStep (columnStep settings) []) fun _ => True := by
    intro s s' options hc h
    obtain ⟨phrases, -, -, -, hpass⟩ := columnOptions_ok hc h
    exact ⟨_, trivial, hpass⟩
  have hoptions := Onward.of_stops columnOptions_stops hspells
  exact hoptions.bind fun options => (Onward.record _).bind fun _ => .pure _

/-- A column is read up to the modifier of its type and holds it. -/
theorem columnEntry_leadsTo (place : ModifierPlace)
    (h : s.cursor.ahead = place.column.tokens ++ (place.dataType.tokens ++ rest)) :
    LeadsTo typeModifier (columnEntry settings) s (place.column.tokens ++ place.dataType.tokens)
      fun value entry => place.Keeps settings value entry.column := by
  refine LeadsTo.afterRead (identifier_reads settings .columnName place.column h)
    fun s₁ _ ha₁ => ?_
  refine (dataType_leadsTo place.dataType ha₁).bind
    (fun dataType => collation?_onward.bind fun collation => columnRest_onward _ dataType _) ?_
  intro value dataType entry s₂ s₃ htype hrun
  obtain ⟨collation, s₄, -, hrun⟩ := bind_ok hrun
  obtain ⟨options, s₅, -, hrun⟩ := bind_ok hrun
  obtain ⟨_, s₆, -, hrun⟩ := bind_ok hrun
  obtain ⟨rfl, -⟩ := pure_ok hrun
  exact ⟨rfl, htype⟩

/-- An entry that is a column is read up to the modifier of its type and holds it. -/
theorem tableEntry_leadsTo (place : ModifierPlace)
    (h : s.cursor.ahead = place.column.tokens ++ (place.dataType.tokens ++ rest)) :
    LeadsTo typeModifier (tableEntry settings) s (place.column.tokens ++ place.dataType.tokens)
      fun value entry => ∃ column, entry.column? = some column ∧
        place.Keeps settings value column := by
  have hword : s.cursor.ahead = .word place.column.word :: (place.dataType.tokens ++ rest) := h
  change LeadsTo _ _ s ([] ++ (place.column.tokens ++ place.dataType.tokens)) _
  refine LeadsTo.afterRead (tableConstraint_reads_word settings hword) fun s₁ _ ha₁ => ?_
  have hpeek : peek s₁ = .ok (.word place.column.word) s₁ := run_peek ha₁
  have hcolumn : LeadsTo typeModifier (do return TableEntry.column (← columnEntry settings)) s₁
      (place.column.tokens ++ place.dataType.tokens) fun value entry =>
        ∃ column, entry.column? = some column ∧ place.Keeps settings value column := by
    refine (columnEntry_leadsTo place ha₁).bind (fun _ => .pure _) ?_
    intro value column entry s₂ s₃ hkeeps hrun
    obtain ⟨rfl, -⟩ := pure_ok hrun
    exact ⟨column.column, rfl, hkeeps⟩
  exact hcolumn.of_run (run_bind hpeek)

/-- The entries of a table are read up to the modifier of a type, and one of the columns holds
it. -/
theorem tableEntries_leadsTo (place : ModifierPlace) (hs : s.nesting = 0)
    (hp : place.Admissible settings.maxExpressionDepth)
    (h : s.cursor.ahead = place.entryTokens ++ rest) :
    LeadsTo typeModifier (tableEntries settings) s place.entryTokens fun value values =>
      ∃ entry, (∃ column, entry.column? = some column ∧ place.Keeps settings value column) ∧
        place.entries.map (·.entry settings) ++ [entry] <+: values := by
  rw [ModifierPlace.entryTokens, List.cons_append, List.append_assoc, List.append_assoc] at h
  rw [tableEntries_eq]
  refine LeadsTo.afterRead (consume_reads h (by decide)) fun s₁ hn₁ ha₁ => ?_
  have hopen : s₁.cursor.peek ≠ .rightParen := by
    rw [peek_eq_headD ha₁]
    cases place.entries with
    | nil => exact nofun
    | cons entry entries =>
      rw [List.flatMap_cons, List.append_assoc, List.append_assoc]
      exact first_of_entry_ne_rightParen entry _
  have hentry : ∀ entry ∈ place.entries, ∀ {s : State} {rest : List Token}, s.nesting = 0 →
      s.cursor.ahead = entry.tokens ++ .comma :: rest →
      Reads (tableEntry settings) s entry.tokens (.comma :: rest) (entry.entry settings) :=
    fun entry he _ _ hn ha => tableEntry_reads settings entry hn (hp entry he) (.inl rfl) ha
  have hlist := closedList_leadsTo .entrySeparator hentry (hn₁.trans hs)
    (.of_stops tableEntry_stops spells_tableEntry)
    (fun s₂ _ ha₂ => tableEntry_leadsTo place ha₂) ha₁
  exact hlist.of_run (run_bind (consume_miss hopen))

/-- The creation of a table is read up to the modifier of a type, and the table holds it. -/
theorem createTable_leadsTo (place : ModifierPlace) (hs : s.nesting = 0)
    (hp : place.Admissible settings.maxExpressionDepth)
    (h : s.cursor.ahead = Sentence.keywordTokens place.ifNotExists [.«if», .not, .«exists»] ++
      (place.table.dotted ++ (place.entryTokens ++ rest))) :
    LeadsTo typeModifier (createTable settings) s
      (Sentence.keywordTokens place.ifNotExists [.«if», .not, .«exists»] ++
        (place.table.dotted ++ place.entryTokens)) (place.KeptBy settings) := by
  refine LeadsTo.afterRead (keywordTokens_reads place.ifNotExists .«if» [.not, .«exists»]
    (by exact nofun) h) fun s₁ hn₁ ha₁ => ?_
  refine LeadsTo.afterRead (objectName_reads settings place.table (by exact nofun) ha₁)
    fun s₂ hn₂ ha₂ => ?_
  refine (tableEntries_leadsTo place (hn₂.trans (hn₁.trans hs)) hp ha₂).bind
    (fun entries => (Onward.record _).bind fun _ => .pure _) ?_
  rintro value entries statement s₃ s₄ ⟨entry, ⟨column, hcolumn, hkeeps⟩, more, rfl⟩ hrun
  obtain ⟨_, s₅, -, hrun⟩ := bind_ok hrun
  obtain ⟨rfl, -⟩ := pure_ok hrun
  refine ⟨column, ?_, hkeeps⟩
  have hbefore := ModifierPlace.length_columns settings place.entries
  simp only [List.append_assoc, List.filterMap_append]
  rw [ModifierPlace.columnsBefore, ← hbefore, List.getElem?_append_right (Nat.le_refl _),
    Nat.sub_self]
  simp [hcolumn]

/-- A statement is read up to the modifier of a type: it is refused there if the modifier is, and
else holds it or is refused behind it. -/
theorem statement_leadsTo (place : ModifierPlace) (hs : s.nesting = 0)
    (hp : place.Admissible settings.maxExpressionDepth)
    (h : s.cursor.ahead = place.tokens ++ rest) :
    LeadsTo typeModifier (statement settings) s place.tokens (place.KeptBy settings) := by
  simp only [ModifierPlace.tokens, List.cons_append, List.append_assoc] at h
  have hend : Onward endOfStatement :=
    (Onward.consume (by decide)).bind fun _ => Obeys.peek.bind fun _ =>
      .ite (.pure _) (Onward.reject _)
  have hopen : LeadsTo typeModifier (openStatement settings) s place.tokens
      (place.KeptBy settings) := by
    refine LeadsTo.afterRead (next_reads h (by decide)) fun s₁ hn₁ ha₁ => ?_
    refine LeadsTo.afterRead (next_reads ha₁ (by decide)) fun s₂ hn₂ ha₂ => ?_
    exact createTable_leadsTo place (hn₂.trans (hn₁.trans hs)) hp ha₂
  refine hopen.bind (fun tree => hend.bind fun _ => .pure tree) ?_
  intro value tree result s₁ s₂ hkept hrun
  obtain ⟨_, s₃, -, hrun⟩ := bind_ok hrun
  obtain ⟨rfl, -⟩ := pure_ok hrun
  exact hkept

end Grammar

end SqlDdl
