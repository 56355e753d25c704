import Mathlib.Data.List.Basic
import SqlDdl.Proofs.Sentence

/-!
# Levels along the tokens

An expression stands at a level: the value of a `DEFAULT` at the first one, and what a
minus sign, a pair of parentheses or a call holds one level further down. Here every
token of a sentence is marked with the level of the expression that begins at it, if
one does. Some expression nests deeper than a limit exactly if the level behind the
limit has a mark, so the marks tell whether a limit is kept and where it is first
exceeded. Nothing here refers to the way tokens are read.
-/

namespace SqlDdl

/-- The marks of tokens at which no expression begins. -/
def unmarked (tokens : List Token) : List (Option Nat) := tokens.map fun _ => none

/-- There is a mark for every token. -/
theorem length_unmarked (tokens : List Token) : (unmarked tokens).length = tokens.length :=
  List.length_map _

/-- No level is marked. -/
theorem notMem_unmarked (level : Nat) (tokens : List Token) : some level ∉ unmarked tokens := by
  intro h
  obtain ⟨_, -, hm⟩ := List.mem_map.mp h
  cases hm

/-- Runs of marks with an unmarked separator between one and the next. -/
def joinedMarks : List (List (Option Nat)) → List (Option Nat)
  | [] => []
  | first :: others => first ++ others.flatMap (none :: ·)

/-- Behind the first of two runs of marks stand the separator and the rest. -/
theorem joinedMarks_cons_cons (first second : List (Option Nat))
    (others : List (List (Option Nat))) :
    joinedMarks (first :: second :: others) =
      first ++ none :: joinedMarks (second :: others) := by
  simp only [joinedMarks, List.flatMap_cons, List.cons_append]

/-- A level is marked among joined runs if it is in one of them. -/
theorem mem_joinedMarks {level : Nat} {runs : List (List (Option Nat))} :
    some level ∈ joinedMarks runs ↔ ∃ run ∈ runs, some level ∈ run := by
  cases runs with
  | nil => simp only [joinedMarks, List.not_mem_nil, false_and, exists_false]
  | cons first others =>
    simp only [joinedMarks, List.mem_append, List.mem_flatMap, List.mem_cons, reduceCtorEq,
      false_or, exists_eq_or_imp]

/-- Joined runs of marks and of tokens are equally long if the runs are. -/
theorem length_joinedMarks (separator : Token) {marks : List (List (Option Nat))}
    {runs : List (List Token)} (h : marks.map List.length = runs.map List.length) :
    (joinedMarks marks).length = (joined separator runs).length := by
  cases marks with
  | nil =>
    rw [List.map_eq_nil_iff.mp h.symm]
    rfl
  | cons mark marks =>
    cases runs with
    | nil => cases h
    | cons run runs =>
      obtain ⟨hfirst, hothers⟩ := List.cons_eq_cons.mp h
      have hlengths := congrArg (List.map (· + 1)) hothers
      rw [List.map_map, List.map_map] at hlengths
      rw [joinedMarks, joined, List.length_append, List.length_append, hfirst,
        List.length_flatMap, List.length_flatMap]
      exact congrArg (run.length + ·.sum) hlengths

namespace ExpressionPhrase

mutual

/-- The marks of an expression that stands at a level. -/
def levels (level : Nat) : ExpressionPhrase → List (Option Nat)
  | literal _ => [some level]
  | identifier _ => [some level]
  | call _ arguments =>
    some level :: none :: joinedMarks (levelsOfEach (level + 1) arguments) ++ [none]
  | negate operand => some level :: operand.levels (level + 1)
  | group inner => some level :: inner.levels (level + 1) ++ [none]

/-- The marks of each of some expressions that stand at a level. -/
def levelsOfEach (level : Nat) : List ExpressionPhrase → List (List (Option Nat))
  | [] => []
  | first :: others => first.levels level :: levelsOfEach level others

end

/-- The marks of each member are the members of the list of marks. -/
theorem levelsOfEach_eq_map (level : Nat) (phrases : List ExpressionPhrase) :
    levelsOfEach level phrases = phrases.map (levels level) := by
  induction phrases with
  | nil => rfl
  | cons first others ih => rw [levelsOfEach, ih, List.map_cons]

/-- The first token of an expression has the mark of its level. -/
theorem levels_eq_cons (level : Nat) (phrase : ExpressionPhrase) :
    ∃ others, phrase.levels level = some level :: others := by
  cases phrase <;> exact ⟨_, rfl⟩

mutual

/-- Every token of an expression has a mark. -/
theorem length_levels (level : Nat) : (phrase : ExpressionPhrase) →
    (phrase.levels level).length = phrase.tokens.length
  | literal _ => rfl
  | identifier _ => rfl
  | call name arguments => by
    have h := length_joinedMarks .comma (lengths_levelsOfEach (level + 1) arguments)
    rw [levels, tokens, Identifier.tokens]
    simp only [List.length_append, List.length_cons, List.length_nil, h]
    omega
  | negate operand => congrArg (· + 1) (length_levels (level + 1) operand)
  | group inner => by
    have h := length_levels (level + 1) inner
    rw [levels, tokens]
    simp only [List.length_append, List.length_cons, List.length_nil, h]

/-- Every token of each of some expressions has a mark. -/
theorem lengths_levelsOfEach (level : Nat) : (phrases : List ExpressionPhrase) →
    (levelsOfEach level phrases).map List.length = (tokensOfEach phrases).map List.length
  | [] => rfl
  | first :: others =>
    List.cons_eq_cons.mpr ⟨length_levels level first, lengths_levelsOfEach level others⟩

end

mutual

/-- The levels that are marked in an expression are as many as it is deep, from its own on. -/
theorem mem_levels_iff (marked level : Nat) : (phrase : ExpressionPhrase) →
    (some marked ∈ phrase.levels level ↔ level ≤ marked ∧ marked < level + phrase.depth)
  | literal _ => by
    simp only [levels, depth, List.mem_singleton, Option.some.injEq]
    omega
  | identifier _ => by
    simp only [levels, depth, List.mem_singleton, Option.some.injEq]
    omega
  | call _ arguments => by
    have h := mem_levelsOfEach_iff marked (level + 1) arguments
    rw [← mem_joinedMarks] at h
    simp only [levels, depth, List.mem_append, List.mem_cons, Option.some.injEq, reduceCtorEq,
      List.not_mem_nil, false_or, or_false, h]
    omega
  | negate operand => by
    have h := mem_levels_iff marked (level + 1) operand
    simp only [levels, depth, List.mem_cons, Option.some.injEq, h]
    omega
  | group inner => by
    have h := mem_levels_iff marked (level + 1) inner
    simp only [levels, depth, List.mem_append, List.mem_cons, Option.some.injEq, reduceCtorEq,
      List.not_mem_nil, or_false, h]
    omega

/-- The levels that are marked in some expressions are as many as the deepest is deep. -/
theorem mem_levelsOfEach_iff (marked level : Nat) : (phrases : List ExpressionPhrase) →
    ((∃ run ∈ levelsOfEach level phrases, some marked ∈ run) ↔
      level ≤ marked ∧ marked < level + deepest phrases)
  | [] => by
    simp only [levelsOfEach, deepest, List.not_mem_nil, false_and, exists_false, false_iff]
    omega
  | first :: others => by
    have hfirst := mem_levels_iff marked level first
    have hothers := mem_levelsOfEach_iff marked level others
    simp only [levelsOfEach, deepest, List.mem_cons, exists_eq_or_imp, hfirst, hothers]
    omega

end

/-- An expression that begins a default nests deeper than a limit exactly if the level behind the
limit is marked in it. -/
theorem mem_levels_one_iff {limit : Nat} (phrase : ExpressionPhrase) :
    some (limit + 1) ∈ phrase.levels 1 ↔ limit < phrase.depth := by
  rw [mem_levels_iff]
  omega

end ExpressionPhrase

namespace OptionPhrase

/-- The marks of an option. -/
def levels : OptionPhrase → List (Option Nat)
  | default value => none :: value.levels 1
  | option => unmarked option.tokens

/-- Every token of an option has a mark. -/
theorem length_levels (option : OptionPhrase) : option.levels.length = option.tokens.length := by
  cases option with
  | default value => exact congrArg (· + 1) (value.length_levels 1)
  | _ => exact length_unmarked _

/-- The level behind a limit is marked in an option exactly if its default nests deeper. -/
theorem mem_levels_iff {limit : Nat} (option : OptionPhrase) :
    some (limit + 1) ∈ option.levels ↔
      ∃ value, option.default? = some value ∧ limit < value.depth := by
  cases option with
  | default value =>
    simp only [levels, default?, List.mem_cons, reduceCtorEq, false_or, Option.some.injEq,
      exists_eq_left', value.mem_levels_one_iff]
  | _ =>
    refine ⟨fun h => absurd h (notMem_unmarked _ _), ?_⟩
    rintro ⟨_, ⟨⟩, -⟩

/-- An option that is admissible within some limit is so within any that its default keeps. -/
theorem Admissible.within {higher limit : Nat} {option : OptionPhrase}
    (hp : option.Admissible higher) (h : some (limit + 1) ∉ option.levels) :
    option.Admissible limit := by
  cases option with
  | default value =>
    refine Nat.le_of_not_lt fun hd => h ?_
    exact List.mem_cons_of_mem _ (value.mem_levels_one_iff.mpr hd)
  | _ => exact hp

end OptionPhrase

namespace NamedOptionPhrase

/-- The marks of a named option. -/
def levels (named : NamedOptionPhrase) : List (Option Nat) :=
  unmarked (namingTokens named.name) ++ named.option.levels

/-- Every token of a named option has a mark. -/
theorem length_levels (named : NamedOptionPhrase) : named.levels.length = named.tokens.length := by
  rw [levels, tokens, List.length_append, List.length_append, length_unmarked,
    named.option.length_levels]

/-- A level is marked in a named option if it is in the option. -/
theorem mem_levels_iff {level : Nat} (named : NamedOptionPhrase) :
    some level ∈ named.levels ↔ some level ∈ named.option.levels := by
  simp only [levels, List.mem_append, notMem_unmarked, false_or]

end NamedOptionPhrase

namespace ColumnPhrase

/-- The marks of a column. -/
def levels (column : ColumnPhrase) : List (Option Nat) :=
  unmarked column.name.tokens ++ (unmarked column.dataType.tokens ++
    (unmarked (collationTokens column.collation) ++
      column.options.flatMap NamedOptionPhrase.levels))

/-- Every token of a column has a mark. -/
theorem length_levels (column : ColumnPhrase) :
    column.levels.length = column.tokens.length := by
  simp only [levels, tokens, List.length_append, length_unmarked, List.length_flatMap,
    NamedOptionPhrase.length_levels]

/-- A level is marked in a column if it is in one of its options. -/
theorem mem_levels_iff_options {level : Nat} (column : ColumnPhrase) :
    some level ∈ column.levels ↔ ∃ named ∈ column.options, some level ∈ named.levels := by
  simp only [levels, List.mem_append, notMem_unmarked, false_or, List.mem_flatMap]

/-- The level behind a limit is marked in a column exactly if a default of it nests deeper. -/
theorem mem_levels_iff {limit : Nat} (column : ColumnPhrase) :
    some (limit + 1) ∈ column.levels ↔ ∃ value ∈ column.defaults, limit < value.depth := by
  simp only [mem_levels_iff_options, NamedOptionPhrase.mem_levels_iff,
    OptionPhrase.mem_levels_iff, defaults, List.mem_filterMap]
  constructor
  · rintro ⟨named, hn, value, hv, hd⟩
    exact ⟨value, ⟨named, hn, hv⟩, hd⟩
  · rintro ⟨value, ⟨named, hn, hv⟩, hd⟩
    exact ⟨named, hn, value, hv, hd⟩

/-- A column that is admissible within some limit is so within any that its defaults keep. -/
theorem Admissible.within {higher limit : Nat} {column : ColumnPhrase}
    (hp : column.Admissible higher) (h : some (limit + 1) ∉ column.levels) :
    column.Admissible limit where
  options := by
    intro named hn
    refine (hp.options named hn).within fun ho => h ?_
    rw [mem_levels_iff_options]
    exact ⟨named, hn, named.mem_levels_iff.mpr ho⟩
  oneDefault := hp.oneDefault

end ColumnPhrase

namespace EntryPhrase

/-- The marks of an entry. -/
def levels : EntryPhrase → List (Option Nat)
  | column phrase => phrase.levels
  | entry => unmarked entry.tokens

/-- The expressions of the `DEFAULT` options of an entry. -/
def defaults : EntryPhrase → List ExpressionPhrase
  | column phrase => phrase.defaults
  | _ => []

/-- Every token of an entry has a mark. -/
theorem length_levels (entry : EntryPhrase) : entry.levels.length = entry.tokens.length := by
  cases entry with
  | column phrase => exact phrase.length_levels
  | _ => exact length_unmarked _

/-- The level behind a limit is marked in an entry exactly if a default of it nests deeper. -/
theorem mem_levels_iff {limit : Nat} (entry : EntryPhrase) :
    some (limit + 1) ∈ entry.levels ↔ ∃ value ∈ entry.defaults, limit < value.depth := by
  cases entry with
  | column phrase => exact phrase.mem_levels_iff
  | _ =>
    refine ⟨fun h => absurd h (notMem_unmarked _ _), ?_⟩
    rintro ⟨_, ⟨⟩, -⟩

/-- An entry that is admissible within some limit is so within any that its defaults keep. -/
theorem Admissible.within {higher limit : Nat} {entry : EntryPhrase}
    (hp : entry.Admissible higher) (h : some (limit + 1) ∉ entry.levels) :
    entry.Admissible limit := by
  cases entry with
  | column phrase => exact ColumnPhrase.Admissible.within hp h
  | _ => exact hp

end EntryPhrase

namespace Sentence

/-- The marks of the entries of a table. -/
def entryLevels : Option (List EntryPhrase) → List (Option Nat)
  | none => []
  | some entries => none :: joinedMarks (entries.map EntryPhrase.levels) ++ [none]

/-- The marks of a sentence: for every token the level of the expression that begins there. -/
def levels : Sentence → List (Option Nat)
  | createTable ifNotExists name entries =>
    none :: none :: (unmarked (keywordTokens ifNotExists [.«if», .not, .«exists»]) ++
      (unmarked name.dotted ++ entryLevels entries))
  | sentence => unmarked sentence.tokens

/-- The expressions of the `DEFAULT` options of a sentence, in the order of writing. -/
def defaults : Sentence → List ExpressionPhrase
  | createTable _ _ entries => (entries.getD []).flatMap EntryPhrase.defaults
  | _ => []

/-- Every token of the entries has a mark. -/
theorem length_entryLevels (entries : Option (List EntryPhrase)) :
    (entryLevels entries).length = (entryTokens entries).length := by
  cases entries with
  | none => rfl
  | some entries =>
    have hlengths : (entries.map EntryPhrase.levels).map List.length =
        (entries.map EntryPhrase.tokens).map List.length := by
      rw [List.map_map, List.map_map]
      exact List.map_congr_left fun entry _ => entry.length_levels
    have h := length_joinedMarks .comma hlengths
    simp only [entryLevels, entryTokens, List.length_append, List.length_cons, List.length_nil, h]

/-- Every token of a sentence has a mark. -/
theorem length_levels (sentence : Sentence) :
    sentence.levels.length = sentence.tokens.length := by
  cases sentence with
  | createTable ifNotExists name entries =>
    simp only [levels, tokens, List.length_append, List.length_cons, length_unmarked,
      length_entryLevels]
  | _ => exact length_unmarked _

/-- A level is marked among the entries of a table if it is in one of them. -/
theorem mem_entryLevels_iff {level : Nat} (entries : Option (List EntryPhrase)) :
    some level ∈ entryLevels entries ↔ ∃ entry ∈ entries.getD [], some level ∈ entry.levels := by
  cases entries with
  | none => simp only [entryLevels, Option.getD_none, List.not_mem_nil, false_and, exists_false]
  | some entries =>
    simp only [entryLevels, List.mem_append, List.mem_cons, reduceCtorEq, List.not_mem_nil,
      false_or, or_false, mem_joinedMarks, Option.getD_some]
    constructor
    · rintro ⟨_, hr, hm⟩
      obtain ⟨entry, he, rfl⟩ := List.mem_map.mp hr
      exact ⟨entry, he, hm⟩
    · rintro ⟨entry, he, hm⟩
      exact ⟨_, List.mem_map_of_mem he, hm⟩

/-- The level behind a limit is marked in a sentence exactly if a default of it nests deeper. -/
theorem mem_levels_iff {limit : Nat} (sentence : Sentence) :
    some (limit + 1) ∈ sentence.levels ↔ ∃ value ∈ sentence.defaults, limit < value.depth := by
  cases sentence with
  | createTable ifNotExists name entries =>
    simp only [levels, defaults, List.mem_cons, List.mem_append, notMem_unmarked, reduceCtorEq,
      false_or, mem_entryLevels_iff, EntryPhrase.mem_levels_iff, List.mem_flatMap]
    constructor
    · rintro ⟨entry, he, value, hv, hd⟩
      exact ⟨value, ⟨entry, he, hv⟩, hd⟩
    · rintro ⟨value, ⟨entry, he, hv⟩, hd⟩
      exact ⟨entry, he, value, hv, hd⟩
  | _ =>
    refine ⟨fun h => absurd h (notMem_unmarked _ _), ?_⟩
    rintro ⟨_, ⟨⟩, -⟩

/-- A sentence that is admissible within some limit is so within any that its defaults keep. -/
theorem Admissible.within {higher limit : Nat} {sentence : Sentence}
    (hp : sentence.Admissible higher) (h : some (limit + 1) ∉ sentence.levels) :
    sentence.Admissible limit := by
  cases sentence with
  | createTable ifNotExists name entries =>
    cases entries with
    | none => trivial
    | some entries =>
      intro entry he
      refine (hp entry he).within fun hm => h ?_
      simp only [levels, List.mem_cons, List.mem_append, notMem_unmarked, reduceCtorEq, false_or]
      exact (mem_entryLevels_iff (some entries)).mpr ⟨entry, he, hm⟩
  | _ => trivial

end Sentence

/-- The default values of the columns of a statement. -/
def Statement.defaults : Statement → List Expression
  | createTable table => table.columns.filterMap (·.default)
  | _ => []

/-- An admissible column has the default that is written, if one is. -/
theorem ColumnPhrase.toList_default {limit : Nat} {column : ColumnPhrase}
    (hp : column.Admissible limit) (settings : Settings) :
    (column.column settings).default.toList = column.defaults.map (·.meaning settings) := by
  have hone := hp.oneDefault
  rw [ColumnPhrase.column]
  match column.defaults, hone with
  | [], _ => rfl
  | [_], _ => rfl

/-- An admissible entry gives a column the default that is written, if one is. -/
theorem EntryPhrase.toList_default {limit : Nat} {entry : EntryPhrase}
    (hp : entry.Admissible limit) (settings : Settings) :
    ((entry.column? settings).bind (·.default)).toList =
      entry.defaults.map (·.meaning settings) := by
  cases entry with
  | column phrase => exact ColumnPhrase.toList_default hp settings
  | _ => rfl

/-- The default values of an admissible sentence are what its defaults mean. -/
theorem Sentence.defaults_meaning {limit : Nat} {sentence : Sentence}
    (hp : sentence.Admissible limit) (settings : Settings) :
    (sentence.meaning settings).defaults = sentence.defaults.map (·.meaning settings) := by
  cases sentence with
  | createTable ifNotExists name entries =>
    rw [meaning, Statement.defaults, defaults, List.filterMap_filterMap,
      List.filterMap_eq_flatMap_toList, List.map_flatMap]
    exact List.flatMap_congr fun entry he =>
      EntryPhrase.toList_default (hp.entries entry he) settings
  | _ => rfl

end SqlDdl
