import SqlDdl.Proofs.Sentence

/-!
# Words of a sentence

The words that the names in a statement are taken from, in the order in which the names
stand in the tree. A word counts as often as it gives a name: the name of a column stands
in the column and in every constraint declared on it. Every such word is written in the
sentence.
-/

namespace SqlDdl

/-- What stands in one of some runs stands in the runs with separators between them. -/
theorem mem_joined {separator token : Token} {run : List Token} {runs : List (List Token)}
    (ht : token ∈ run) (hr : run ∈ runs) : token ∈ joined separator runs := by
  cases runs with
  | nil => cases hr
  | cons first others =>
    rcases List.mem_cons.mp hr with rfl | hr
    · exact List.mem_append_left _ ht
    · exact List.mem_append_right _
        (List.mem_flatMap.mpr ⟨run, hr, List.mem_cons_of_mem separator ht⟩)

variable {word : Word}

namespace Identifier

/-- The word that an identifier is taken from. -/
def words (name : Identifier) : List Word := [name.word]

/-- The word of an identifier is written. -/
theorem mem_tokens_of_mem_words {name : Identifier} (h : word ∈ name.words) :
    .word word ∈ name.tokens := by
  obtain rfl := List.mem_singleton.mp h
  exact List.mem_singleton_self _

end Identifier

namespace Identifiers

/-- The words that identifiers are taken from. -/
def words (names : Identifiers) : List Word := names.toList.flatMap Identifier.words

/-- The words of identifiers are written with any separator between them. -/
theorem mem_joined_of_mem_words {names : Identifiers} {separator : Token} (h : word ∈ names.words) :
    .word word ∈ joined separator (names.toList.map Identifier.tokens) := by
  obtain ⟨name, hn, hw⟩ := List.mem_flatMap.mp h
  exact mem_joined (Identifier.mem_tokens_of_mem_words hw) (List.mem_map_of_mem hn)

/-- The words of a list of columns are written in it. -/
theorem mem_listed_of_mem_words {names : Identifiers} (h : word ∈ names.words) :
    .word word ∈ names.listed :=
  List.mem_cons_of_mem _ (List.mem_append_left _ (mem_joined_of_mem_words h))

end Identifiers

namespace TypePhrase

/-- The words that the names in a data type are taken from. -/
def words : TypePhrase → List Word
  | custom names _ => names.words
  | _ => []

/-- The words of a data type are written in it. -/
theorem mem_tokens_of_mem_words {phrase : TypePhrase} (h : word ∈ phrase.words) :
    .word word ∈ phrase.tokens := by
  cases phrase with
  | custom names unknown => exact Identifiers.mem_joined_of_mem_words h
  | _ => cases h

end TypePhrase

namespace ExpressionPhrase

mutual

/-- The words that the names in an expression are taken from. -/
def words : ExpressionPhrase → List Word
  | literal _ => []
  | identifier name => name.words
  | call name arguments => name.words ++ wordsOfEach arguments
  | negate operand => operand.words
  | group inner => inner.words

/-- The words that the names in some expressions are taken from. -/
def wordsOfEach : List ExpressionPhrase → List Word
  | [] => []
  | first :: others => first.words ++ wordsOfEach others

end

mutual

/-- The words of an expression are written in it. -/
theorem mem_tokens_of_mem_words : (phrase : ExpressionPhrase) → word ∈ phrase.words →
    .word word ∈ phrase.tokens
  | literal _, h => by cases h
  | identifier _, h => Identifier.mem_tokens_of_mem_words h
  | call name arguments, h => by
    rcases List.mem_append.mp h with h | h
    · exact List.mem_append_left _
        (List.mem_append_left _ (Identifier.mem_tokens_of_mem_words h))
    · obtain ⟨run, hr, ht⟩ := exists_mem_of_mem_wordsOfEach arguments h
      refine List.mem_append_left _ (List.mem_append_right _ (List.mem_cons_of_mem _ ?_))
      exact mem_joined ht hr
  | negate operand, h => List.mem_cons_of_mem _ (mem_tokens_of_mem_words operand h)
  | group inner, h =>
    List.mem_cons_of_mem _ (List.mem_append_left _ (mem_tokens_of_mem_words inner h))

/-- The words of some expressions are written in one of them. -/
theorem exists_mem_of_mem_wordsOfEach : (phrases : List ExpressionPhrase) →
    word ∈ wordsOfEach phrases → ∃ run ∈ tokensOfEach phrases, .word word ∈ run
  | [], h => by cases h
  | first :: others, h => by
    rcases List.mem_append.mp h with h | h
    · exact ⟨_, List.mem_cons_self, mem_tokens_of_mem_words first h⟩
    · obtain ⟨run, hr, ht⟩ := exists_mem_of_mem_wordsOfEach others h
      exact ⟨run, List.mem_cons_of_mem _ hr, ht⟩

end

end ExpressionPhrase

namespace ReferencePhrase

/-- The words that the names in a reference are taken from. -/
def words (reference : ReferencePhrase) : List Word :=
  reference.table.words ++ reference.columns.elim [] Identifiers.words

/-- The words of a reference are written in it. -/
theorem mem_tokens_of_mem_words {reference : ReferencePhrase} (h : word ∈ reference.words) :
    .word word ∈ reference.tokens := by
  rcases List.mem_append.mp h with h | h
  · exact List.mem_append_left _ (Identifiers.mem_joined_of_mem_words h)
  · rcases reference with ⟨table, _ | columns, clauses⟩
    · cases h
    · exact List.mem_append_right _
        (List.mem_append_left _ (Identifiers.mem_listed_of_mem_words h))

end ReferencePhrase

/-- The words that the name given to something is taken from. -/
def nameWords (name : Option Identifier) : List Word := name.elim [] Identifier.words

/-- The word of a name is written where the name is given. -/
theorem mem_namingTokens_of_mem_nameWords {name : Option Identifier} (h : word ∈ nameWords name) :
    .word word ∈ namingTokens name := by
  cases name with
  | none => cases h
  | some name => exact List.mem_cons_of_mem _ (Identifier.mem_tokens_of_mem_words h)

namespace NamedOptionPhrase

/-- The words that the names in the constraint are taken from that an option declares on a column,
if it declares one. -/
def words (column : Identifier) (named : NamedOptionPhrase) : List Word :=
  match named.option with
  | .notNull | .primaryKey | .unique => nameWords named.name ++ ([] ++ column.words)
  | .references reference => nameWords named.name ++ (reference.words ++ column.words)
  | .null | .default _ => []

/-- The words of a named option are written in it, but for the name of its column. -/
theorem mem_tokens_of_mem_words {column : Identifier} {named : NamedOptionPhrase}
    (h : word ∈ named.words column) : word ∈ column.words ∨ .word word ∈ named.tokens := by
  have given : word ∈ nameWords named.name → .word word ∈ named.tokens :=
    fun h => List.mem_append_left _ (mem_namingTokens_of_mem_nameWords h)
  rcases named with ⟨name, _ | _ | value | _ | _ | reference⟩
  case null | default => cases h
  case references =>
    rcases List.mem_append.mp h with h | h
    · exact .inr (given h)
    · rcases List.mem_append.mp h with h | h
      · exact .inr (List.mem_append_right _
          (List.mem_cons_of_mem _ (ReferencePhrase.mem_tokens_of_mem_words h)))
      · exact .inl h
  all_goals
    rcases List.mem_append.mp h with h | h
    · exact .inr (given h)
    · exact .inl h

end NamedOptionPhrase

namespace ColumnPhrase

/-- The words that the names in a column are taken from. -/
def words (phrase : ColumnPhrase) : List Word :=
  phrase.name.words ++ (phrase.dataType.words ++ (phrase.collation.elim [] Identifiers.words ++
    phrase.defaults.head?.elim [] ExpressionPhrase.words))

/-- The words that the names in the constraints of a column are taken from. -/
def constraintWords (phrase : ColumnPhrase) : List Word :=
  phrase.options.flatMap (·.words phrase.name)

/-- The words of a default are written among the options. -/
theorem mem_options_of_mem_default {phrase : ColumnPhrase} {value : ExpressionPhrase}
    (hv : value ∈ phrase.defaults) (h : word ∈ value.words) :
    .word word ∈ phrase.options.flatMap NamedOptionPhrase.tokens := by
  obtain ⟨named, hn, ho⟩ := List.mem_filterMap.mp hv
  refine List.mem_flatMap.mpr ⟨named, hn, List.mem_append_right _ ?_⟩
  rcases named with ⟨name, _ | _ | written | _ | _ | _⟩ <;> cases ho
  exact List.mem_cons_of_mem _ (value.mem_tokens_of_mem_words h)

/-- The words of a column are written in it. -/
theorem mem_tokens_of_mem_words {phrase : ColumnPhrase} (h : word ∈ phrase.words) :
    .word word ∈ phrase.tokens := by
  simp only [words, tokens, List.mem_append] at h ⊢
  rcases h with h | h | h | h
  · exact .inl (Identifier.mem_tokens_of_mem_words h)
  · exact .inr (.inl (TypePhrase.mem_tokens_of_mem_words h))
  · refine .inr (.inr (.inl ?_))
    rcases hc : phrase.collation with _ | names <;> rw [hc] at h
    · cases h
    · exact List.mem_cons_of_mem _ (Identifiers.mem_joined_of_mem_words h)
  · refine .inr (.inr (.inr ?_))
    rcases hd : phrase.defaults.head? with _ | value <;> rw [hd] at h
    · cases h
    · exact mem_options_of_mem_default (List.mem_of_head? hd) h

/-- The words of the constraints of a column are written in it. -/
theorem mem_tokens_of_mem_constraintWords {phrase : ColumnPhrase}
    (h : word ∈ phrase.constraintWords) : .word word ∈ phrase.tokens := by
  obtain ⟨named, hn, hw⟩ := List.mem_flatMap.mp h
  simp only [tokens, List.mem_append]
  rcases NamedOptionPhrase.mem_tokens_of_mem_words hw with hw | hw
  · exact .inl (Identifier.mem_tokens_of_mem_words hw)
  · exact .inr (.inr (.inr (List.mem_flatMap.mpr ⟨named, hn, hw⟩)))

end ColumnPhrase

namespace ConstraintPhrase

/-- The words that the names in the kind of a table constraint are taken from. -/
def kindWords : ConstraintPhrase → List Word
  | foreignKey _ reference => reference.words
  | _ => []

/-- The words that the columns of a table constraint are taken from. -/
def columnWords : ConstraintPhrase → List Word
  | notNull => []
  | primaryKey columns => columns.words
  | unique columns => columns.words
  | foreignKey columns _ => columns.words

/-- The words of a table constraint are written in it. -/
theorem mem_tokens_of_mem_words {phrase : ConstraintPhrase}
    (h : word ∈ phrase.kindWords ∨ word ∈ phrase.columnWords) : .word word ∈ phrase.tokens := by
  rcases h with h | h
  · cases phrase with
    | foreignKey columns reference =>
      have hreference := ReferencePhrase.mem_tokens_of_mem_words h
      simp only [tokens, List.mem_cons, List.mem_append, hreference, or_true]
    | _ => cases h
  · cases phrase with
    | notNull => cases h
    | primaryKey columns | unique columns | foreignKey columns =>
      have hcolumns := Identifiers.mem_listed_of_mem_words h
      simp only [tokens, List.mem_cons, List.mem_append, hcolumns, or_true, true_or]

end ConstraintPhrase

namespace EntryPhrase

/-- The words that the names in the column of an entry are taken from. -/
def columnWords : EntryPhrase → List Word
  | column phrase => phrase.words
  | _ => []

/-- The words that the names in the constraints of an entry are taken from. -/
def constraintWords : EntryPhrase → List Word
  | column phrase => phrase.constraintWords
  | constraint name phrase _ => nameWords name ++ (phrase.kindWords ++ phrase.columnWords)
  | null _ => []

/-- The words of an entry are written in it. -/
theorem mem_tokens_of_mem_words {entry : EntryPhrase}
    (h : word ∈ entry.columnWords ∨ word ∈ entry.constraintWords) : .word word ∈ entry.tokens := by
  cases entry with
  | column phrase =>
    rcases h with h | h
    · exact ColumnPhrase.mem_tokens_of_mem_words h
    · exact ColumnPhrase.mem_tokens_of_mem_constraintWords h
  | constraint name phrase attributes =>
    rcases h with h | h
    · cases h
    · simp only [constraintWords, tokens, List.mem_append] at h ⊢
      rcases h with h | h
      · exact .inl (mem_namingTokens_of_mem_nameWords h)
      · exact .inr (.inl (ConstraintPhrase.mem_tokens_of_mem_words h))
  | null name => rcases h with h | h <;> cases h

end EntryPhrase

namespace Sentence

/-- The words that the names in a statement are taken from, in the order of the names. -/
def words : Sentence → List Word
  | createTable _ name entries =>
    name.words ++ ((entries.getD []).flatMap EntryPhrase.columnWords ++
      (entries.getD []).flatMap EntryPhrase.constraintWords)
  | createSchema _ name => name.words
  | dropTable _ name _ => name.words

/-- The words of entries are written in them. -/
theorem mem_entryTokens_of_mem_words {entries : Option (List EntryPhrase)} {entry : EntryPhrase}
    (he : entry ∈ entries.getD [])
    (h : word ∈ entry.columnWords ∨ word ∈ entry.constraintWords) :
    .word word ∈ entryTokens entries := by
  cases entries with
  | none => cases he
  | some entries =>
    refine List.mem_cons_of_mem _ (List.mem_append_left _ ?_)
    exact mem_joined (EntryPhrase.mem_tokens_of_mem_words h) (List.mem_map_of_mem he)

/-- The words that the names in a statement are taken from are written in its sentence. -/
theorem mem_tokens_of_mem_words {sentence : Sentence} (h : word ∈ sentence.words) :
    .word word ∈ sentence.tokens := by
  cases sentence with
  | createTable ifNotExists name entries =>
    simp only [words, tokens, List.mem_cons, List.mem_append] at h ⊢
    refine .inr (.inr (.inr ?_))
    rcases h with h | h | h
    · exact .inl (Identifiers.mem_joined_of_mem_words h)
    · obtain ⟨entry, he, hw⟩ := List.mem_flatMap.mp h
      exact .inr (mem_entryTokens_of_mem_words he (.inl hw))
    · obtain ⟨entry, he, hw⟩ := List.mem_flatMap.mp h
      exact .inr (mem_entryTokens_of_mem_words he (.inr hw))
  | createSchema ifNotExists name =>
    simp only [tokens, List.mem_cons, List.mem_append]
    exact .inr (.inr (.inr (Identifiers.mem_joined_of_mem_words h)))
  | dropTable ifExists name rule =>
    simp only [tokens, List.mem_cons, List.mem_append]
    exact .inr (.inr (.inr (.inl (Identifiers.mem_joined_of_mem_words h))))

end Sentence

end SqlDdl
