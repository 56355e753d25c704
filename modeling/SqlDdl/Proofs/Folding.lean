import Mathlib.Data.List.Basic
import SqlDdl.Proofs.SentenceWords
import SqlDdl.Proofs.SideBySide.Settings
import SqlDdl.Proofs.TreeNames
import SqlDdl.Proofs.WellFormed

/-!
# Folding changes names only

A stream is read with and without folding of identifiers. The two sessions go through
the stream in the same steps and fail together with the same errors. Where they give
statements, both are the meaning of one sentence, and every name in them is taken from
one of its words: without folding it is the text of the word, with folding that text in
lower case unless the word was quoted. In all else the statements are the same.
-/

namespace SqlDdl

open HasNames (names anonymous)

/-- The name that a word gives where identifiers are folded. -/
def Word.folded (word : Word) : String :=
  if word.quoted then word.value else Text.toLowerCase word.value

/-- A value that depends on settings takes its names from words: whatever the settings are, its
names are the texts that the words are kept as, and the rest of it is the same. -/
structure TakenFrom {α : Type} [HasNames α] (words : List Word) (meaning : Settings → α) :
    Prop where
  /-- Each name is the text that the word in its place is kept as. -/
  names (settings : Settings) : names (meaning settings) = words.map settings.identifier
  /-- But for its names the value is the same under all settings. -/
  rest (settings other : Settings) : anonymous (meaning settings) = anonymous (meaning other)

namespace TakenFrom

variable {α β : Type} [HasNames α]

/-- A value without names takes none from anywhere. -/
theorem const {value : α} (h : HasNames.names value = []) : TakenFrom [] fun _ => value :=
  ⟨fun _ => h, fun _ _ => rfl⟩

/-- What is put around a value, with no names of its own, leaves its names where they are. -/
theorem within {γ : Type} [HasNames γ] {words : List Word} {value : Settings → α} (f : α → γ)
    (hf : ∀ a, HasNames.names (f a) = HasNames.names a ∧ anonymous (f a) = f (anonymous a))
    (h : TakenFrom words value) : TakenFrom words fun settings => f (value settings) := by
  constructor
  · intro settings
    rw [(hf _).1, h.names settings]
  · intro settings other
    rw [(hf _).2, (hf _).2, h.rest settings other]

/-- Two lists, one behind the other, take their names from the words of the one and of the other. -/
theorem append {words others : List Word} {first second : Settings → List α}
    (hfirst : TakenFrom words first) (hsecond : TakenFrom others second) :
    TakenFrom (words ++ others) fun settings => first settings ++ second settings := by
  constructor
  · intro settings
    change (first settings ++ second settings).flatMap HasNames.names = _
    rw [List.flatMap_append, List.map_append, ← hfirst.names, ← hsecond.names]
    rfl
  · intro settings other
    change (first settings ++ second settings).map anonymous = (first other ++ second other).map _
    rw [List.map_append, List.map_append]
    exact congrArg₂ _ (hfirst.rest settings other) (hsecond.rest settings other)

/-- A list of one member takes its names from where the member does. -/
theorem singleton {words : List Word} {member : Settings → α} (h : TakenFrom words member) :
    TakenFrom words fun settings => [member settings] :=
  h.within (fun member => [member]) fun _ => ⟨List.append_nil _, rfl⟩

/-- What may be missing, as a list, takes its names from where it takes them. -/
theorem toList {words : List Word} {value : Settings → Option α} (h : TakenFrom words value) :
    TakenFrom words fun settings => (value settings).toList := by
  constructor
  · intro settings
    rw [← h.names settings]
    cases value settings with
    | none => rfl
    | some member => exact List.append_nil _
  · intro settings other
    have hrest : (value settings).map anonymous = (value other).map anonymous :=
      h.rest settings other
    change (value settings).toList.map anonymous = (value other).toList.map anonymous
    rw [← Option.toList_map, ← Option.toList_map, hrest]

variable {words : β → List Word} {members : List β}

/-- What the members of a list give takes its names from the words of the members. -/
theorem flatMap {given : Settings → β → List α}
    (h : ∀ member, TakenFrom (words member) (given · member)) :
    TakenFrom (members.flatMap words) fun settings => members.flatMap (given settings) := by
  induction members with
  | nil => exact const rfl
  | cons member members ih => exact (h member).append ih

/-- What each member of a list means takes its names from the words of the members. -/
theorem map {meaning : Settings → β → α}
    (h : ∀ member, TakenFrom (words member) (meaning · member)) :
    TakenFrom (members.flatMap words) fun settings => members.map (meaning settings) := by
  simp only [List.map_eq_flatMap]
  exact flatMap fun member => (h member).singleton

/-- What some members of a list mean takes its names from the words of the members. -/
theorem filterMap {meaning : Settings → β → Option α}
    (h : ∀ member, TakenFrom (words member) (meaning · member)) :
    TakenFrom (members.flatMap words) fun settings => members.filterMap (meaning settings) := by
  simp only [List.filterMap_eq_flatMap_toList]
  exact flatMap fun member => (h member).toList

/-- What may be missing takes its names from its words. -/
theorem option {meaning : Settings → β → α} {value : Option β}
    (h : ∀ member, TakenFrom (words member) (meaning · member)) :
    TakenFrom (value.elim [] words) fun settings => value.map (meaning settings) := by
  cases value with
  | none => exact const rfl
  | some member => exact (h member).within some fun _ => ⟨rfl, rfl⟩

end TakenFrom

/-- An identifier takes its name from its word. -/
theorem Identifier.takenFrom (name : Identifier) : TakenFrom name.words (name.meaning ·) :=
  ⟨fun _ => rfl, fun _ _ => rfl⟩

namespace Identifiers

/-- Identifiers take their names from their words. -/
theorem takenFrom_texts (names : Identifiers) : TakenFrom names.words (names.texts ·) :=
  TakenFrom.map fun name => name.takenFrom

/-- A name takes its parts from its words. -/
theorem takenFrom_name (names : Identifiers) : TakenFrom names.words (names.name ·) :=
  names.takenFrom_texts.within ObjectName.mk fun _ => ⟨rfl, rfl⟩

end Identifiers

/-- A built-in type has no names. -/
theorem names_of_typeHeads :
    ∀ entry ∈ Grammar.typeHeads, ∀ dataType ∈ entry.2.plain?, names dataType = [] := by
  decide

/-- A data type takes its names from its words. -/
theorem TypePhrase.takenFrom (phrase : TypePhrase) : TakenFrom phrase.words (phrase.meaning ·) := by
  cases phrase with
  | custom names unknown =>
    exact names.takenFrom_name.within DataType.custom fun _ => ⟨rfl, rfl⟩
  | plain dataType word => exact .const (names_of_typeHeads _ word.known dataType rfl)
  | float word length =>
    refine .const ?_
    rcases length with _ | length
    · rfl
    · change names (if length.meaning ≤ 24 then DataType.real else .doublePrecision) = []
      split <;> rfl
  | double | numeric | varchar | character | varying => exact .const rfl

namespace ExpressionPhrase

mutual

/-- An expression takes its names from its words. -/
theorem takenFrom : (phrase : ExpressionPhrase) → TakenFrom phrase.words (phrase.meaning ·)
  | literal _ => .const rfl
  | identifier _ => ⟨fun _ => rfl, fun _ _ => rfl⟩
  | call name arguments => by
    have hnames := (takenFrom_meaningOfEach arguments).names
    have hrest := (takenFrom_meaningOfEach arguments).rest
    constructor
    · intro settings
      change name.meaning settings :: Expression.namesInEach (meaningOfEach settings arguments) =
        settings.identifier name.word :: (wordsOfEach arguments).map settings.identifier
      rw [Expression.namesInEach_eq, hnames settings]
      rfl
    · intro settings other
      change Expression.call "" (Expression.eachWithoutNames (meaningOfEach settings arguments)) =
        .call "" (Expression.eachWithoutNames (meaningOfEach other arguments))
      rw [Expression.eachWithoutNames_eq, Expression.eachWithoutNames_eq, hrest settings other]
  | negate operand => (takenFrom operand).within Expression.negate fun _ => ⟨rfl, rfl⟩
  | group inner => takenFrom inner

/-- Some expressions take their names from their words. -/
theorem takenFrom_meaningOfEach : (phrases : List ExpressionPhrase) →
    TakenFrom (wordsOfEach phrases) (meaningOfEach · phrases)
  | [] => .const rfl
  | first :: others => (takenFrom first).singleton.append (takenFrom_meaningOfEach others)

end

end ExpressionPhrase

namespace ReferencePhrase

/-- A reference takes its names from its words. -/
theorem takenFrom (reference : ReferencePhrase) :
    TakenFrom reference.words (reference.meaning ·) := by
  have htable := reference.table.takenFrom_name
  have hcolumns : TakenFrom (reference.columns.elim [] Identifiers.words)
      fun settings => reference.columns.elim [] (·.texts settings) := by
    cases reference.columns with
    | none => exact .const rfl
    | some columns => exact columns.takenFrom_texts
  constructor
  · intro settings
    rw [words, List.map_append, ← htable.names, ← hcolumns.names]
    rfl
  · intro settings other
    have htable := htable.rest settings other
    have hcolumns := hcolumns.rest settings other
    exact congrArg₂ (fun table columns => ForeignKey.mk table columns _ _) htable hcolumns

/-- A foreign key takes its names from the words of its reference. -/
theorem takenFrom_foreignKey (reference : ReferencePhrase) :
    TakenFrom reference.words
      fun settings => ConstraintKind.foreignKey (reference.meaning settings) :=
  reference.takenFrom.within ConstraintKind.foreignKey fun _ => ⟨rfl, rfl⟩

end ReferencePhrase

/-- A constraint without conditions takes its names from the words of its parts. -/
theorem Constraint.takenFrom_plain {ofName ofKind ofColumns : List Word}
    {name : Settings → Option String} {kind : Settings → ConstraintKind}
    {columns : Settings → List String} (hname : TakenFrom ofName name)
    (hkind : TakenFrom ofKind kind) (hcolumns : TakenFrom ofColumns columns) :
    TakenFrom (ofName ++ (ofKind ++ ofColumns))
      fun settings => plain (name settings) (kind settings) (columns settings) := by
  constructor
  · intro settings
    rw [List.map_append, List.map_append, ← hname.names, ← hkind.names, ← hcolumns.names]
    rfl
  · intro settings other
    change plain (anonymous (name settings)) (anonymous (kind settings))
        (anonymous (columns settings)) =
      plain (anonymous (name other)) (anonymous (kind other)) (anonymous (columns other))
    rw [hname.rest settings other, hkind.rest settings other, hcolumns.rest settings other]

/-- The name given to something is taken from its words. -/
theorem takenFrom_name (name : Option Identifier) :
    TakenFrom (nameWords name) fun settings => name.map (·.meaning settings) :=
  .option fun name => name.takenFrom

namespace ColumnPhrase

/-- A column takes its names from its words. -/
theorem takenFrom_column (phrase : ColumnPhrase) : TakenFrom phrase.words (phrase.column ·) := by
  have hname := phrase.name.takenFrom
  have htype := phrase.dataType.takenFrom
  have hcollation : TakenFrom (phrase.collation.elim [] Identifiers.words)
      fun settings => phrase.collation.map (·.name settings) :=
    .option fun names => names.takenFrom_name
  have hdefault : TakenFrom (phrase.defaults.head?.elim [] ExpressionPhrase.words)
      fun settings => phrase.defaults.head?.map (·.meaning settings) :=
    .option fun value => value.takenFrom
  constructor
  · intro settings
    simp only [words, List.map_append]
    rw [← hname.names, ← htype.names, ← hcollation.names, ← hdefault.names]
    rfl
  · intro settings other
    have hname := hname.rest settings other
    have htype := htype.rest settings other
    have hcollation := hcollation.rest settings other
    have hdefault := hdefault.rest settings other
    exact Column.mk.injEq .. ▸ ⟨hname, htype, hcollation, hdefault, rfl⟩

/-- The constraints of a column take their names from their words. -/
theorem takenFrom_constraints (phrase : ColumnPhrase) :
    TakenFrom phrase.constraintWords (phrase.constraints ·) := by
  refine .filterMap fun named => ?_
  have hname := takenFrom_name named.name
  have hcolumn := phrase.name.takenFrom.singleton
  have declared : ∀ {ofKind : List Word} {kind : Settings → ConstraintKind},
      TakenFrom ofKind kind →
        TakenFrom (nameWords named.name ++ (ofKind ++ phrase.name.words)) fun settings =>
          some (Constraint.plain (named.name.map (·.meaning settings)) (kind settings)
            [phrase.name.meaning settings]) :=
    fun hkind => (Constraint.takenFrom_plain hname hkind hcolumn).within some fun _ => ⟨rfl, rfl⟩
  rcases named with ⟨name, _ | _ | value | _ | _ | reference⟩
  · exact declared (.const rfl)
  · exact .const rfl
  · exact .const rfl
  · exact declared (.const rfl)
  · exact declared (.const rfl)
  · exact declared reference.takenFrom_foreignKey

end ColumnPhrase

namespace ConstraintPhrase

/-- The kind of a table constraint takes its names from its words. -/
theorem takenFrom_kind (phrase : ConstraintPhrase) :
    TakenFrom phrase.kindWords (phrase.kind ·) := by
  cases phrase with
  | foreignKey columns reference => exact reference.takenFrom_foreignKey
  | notNull | primaryKey | unique => exact .const rfl

/-- The columns of a table constraint are taken from their words. -/
theorem takenFrom_columns (phrase : ConstraintPhrase) :
    TakenFrom phrase.columnWords (phrase.columns ·) := by
  cases phrase with
  | notNull => exact .const rfl
  | primaryKey columns | unique columns | foreignKey columns => exact columns.takenFrom_texts

end ConstraintPhrase

namespace EntryPhrase

/-- The column of an entry takes its names from its words. -/
theorem takenFrom_column? (entry : EntryPhrase) :
    TakenFrom entry.columnWords (entry.column? ·) := by
  cases entry with
  | column phrase => exact phrase.takenFrom_column.within some fun _ => ⟨rfl, rfl⟩
  | constraint | null => exact .const rfl

/-- The constraints of an entry take their names from their words. -/
theorem takenFrom_constraints (entry : EntryPhrase) :
    TakenFrom entry.constraintWords (entry.constraints ·) := by
  cases entry with
  | column phrase => exact phrase.takenFrom_constraints
  | constraint name phrase attributes =>
    have h := Constraint.takenFrom_plain (takenFrom_name name) phrase.takenFrom_kind
      phrase.takenFrom_columns
    exact TakenFrom.singleton (h.within attributes.apply fun _ => ⟨rfl, rfl⟩)
  | null name => exact .const rfl

end EntryPhrase

/-- A statement takes its names from the words of its sentence. -/
theorem Sentence.takenFrom (sentence : Sentence) :
    TakenFrom sentence.words (sentence.meaning ·) := by
  cases sentence with
  | createTable ifNotExists name entries =>
    have hname := name.takenFrom_name
    have hcolumns : TakenFrom ((entries.getD []).flatMap EntryPhrase.columnWords)
        fun settings => (entries.getD []).filterMap (·.column? settings) :=
      .filterMap fun entry => entry.takenFrom_column?
    have hconstraints : TakenFrom ((entries.getD []).flatMap EntryPhrase.constraintWords)
        fun settings => (entries.getD []).flatMap (·.constraints settings) :=
      .flatMap fun entry => entry.takenFrom_constraints
    constructor
    · intro settings
      rw [words, List.map_append, List.map_append, ← hname.names, ← hcolumns.names,
        ← hconstraints.names]
      rfl
    · intro settings other
      have hname := hname.rest settings other
      have hcolumns := hcolumns.rest settings other
      have hconstraints := hconstraints.rest settings other
      refine congrArg Statement.createTable ?_
      exact CreateTable.mk.injEq .. ▸ ⟨hname, rfl, hcolumns, hconstraints⟩
  | createSchema ifNotExists name =>
    exact name.takenFrom_name.within (fun name => Statement.createSchema ⟨name, ifNotExists⟩)
      fun _ => ⟨rfl, rfl⟩
  | dropTable ifExists name rule =>
    exact name.takenFrom_name.within (fun name => Statement.dropTable ⟨name, ifExists, _⟩)
      fun _ => ⟨rfl, rfl⟩

namespace Settings

/-- The settings with the choice that identifiers are kept as they are written. -/
def plain (settings : Settings) : Settings := { settings with foldIdentifiers := false }

/-- The settings with the choice that identifiers are folded. -/
def folding (settings : Settings) : Settings := { settings with foldIdentifiers := true }

/-- Where identifiers are kept as they are written a word is kept as its text. -/
theorem identifier_plain (settings : Settings) : settings.plain.identifier = Word.value := rfl

/-- Where identifiers are folded a word is kept as what it is folded to. -/
theorem identifier_folding (settings : Settings) :
    settings.folding.identifier = Word.folded := by
  funext ⟨value, quoted⟩
  cases quoted <;> rfl

end Settings

namespace Session

/-- After as many calls a session that folds identifiers stands where one that does not stands. -/
theorem index_after_folding (settings : Settings) (stream : TokenStream) (calls : Nat) :
    ((ofStream settings.folding stream).after calls).index =
      ((ofStream settings.plain stream).after calls).index := by
  induction calls with
  | zero => rfl
  | succ calls ih =>
    have hr := reached_after settings.plain stream calls
    have ho := reached_after settings.folding stream calls
    cases hr.endsBeside ho ih (Nat.le_refl _) with
    | statements _ _ _ index => exact index
    | errors _ _ index => exact index
    | cutShort lower => exact absurd lower (Nat.lt_irrefl _)

/-- Folding changes names and nothing else. With and without it every call starts at the same index
and stops at the same index. Both calls fail with the same error, or both read one sentence, all
that stands before the next end of the input but for a semicolon: then the names in the statement
given without folding are the texts of the words of the sentence, and the statement given with
folding is the one that has these texts in lower case, but for those of quoted words, as its names
and is the same in all else. -/
theorem parse_folding (settings : Settings) (stream : TokenStream) (calls : Nat) :
    let session := (ofStream settings.plain stream).after calls
    let other := (ofStream settings.folding stream).after calls
    other.index = session.index ∧ other.parse.2.index = session.parse.2.index ∧
    ((∃ error, session.parse.1 = .error (.error error) ∧ other.parse.1 = .error (.error error)) ∨
      ∃ (sentence : Sentence) (semicolon : Bool) (tree beside : Statement),
        session.upcoming = sentence.tokens ++ endTokens semicolon ∧
        (∀ word ∈ sentence.words, .word word ∈ sentence.tokens) ∧
        session.parse.1 = .ok tree ∧ other.parse.1 = .ok beside ∧
        names tree = sentence.words.map Word.value ∧
        ∀ statement, statement = beside ↔
          anonymous statement = anonymous tree ∧
            names statement = sentence.words.map Word.folded) := by
  intro session other
  have hr : session.Reached settings.plain stream := reached_after settings.plain stream calls
  have ho : other.Reached settings.folding stream := reached_after settings.folding stream calls
  have hindex : other.index = session.index := index_after_folding settings stream calls
  refine ⟨hindex, index_after_folding settings stream (calls + 1), ?_⟩
  have hupcoming : other.upcoming = session.upcoming := by
    rw [upcoming, upcoming, hindex, ho.tokens, hr.tokens]
  cases hr.endsBeside ho hindex (Nat.le_refl _) with
  | cutShort lower => exact absurd lower (Nat.lt_irrefl _)
  | errors given givenBeside => exact .inl ⟨_, given, givenBeside⟩
  | @statements tree beside given givenBeside =>
    -- The sentence that one side has read is read by the other side too.
    obtain ⟨sentence, semicolon, hp, rfl, hwritten⟩ := hr.written_of_ok given
    have hbeside := ho.parse_of_written hp (hupcoming.trans hwritten)
    obtain rfl : beside = sentence.meaning settings.folding :=
      Except.ok.inj (givenBeside.symm.trans hbeside)
    have hplain := sentence.takenFrom.names settings.plain
    have hnames := sentence.takenFrom.names settings.folding
    have hrest := sentence.takenFrom.rest settings.folding settings.plain
    rw [settings.identifier_plain] at hplain
    rw [settings.identifier_folding] at hnames
    refine .inr ⟨sentence, semicolon, _, _, hwritten, fun _ => Sentence.mem_tokens_of_mem_words,
      given, givenBeside, hplain, fun statement => ⟨?_, fun h => ?_⟩⟩
    · rintro rfl
      exact ⟨hrest, hnames⟩
    · exact HasNames.ext (h.1.trans hrest.symm) (h.2.trans hnames.symm)

end Session

end SqlDdl
