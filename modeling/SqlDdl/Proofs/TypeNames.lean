import SqlDdl.Proofs.DataTypes
import SqlDdl.Proofs.LetterCase

/-!
# The names of built-in types

A built-in type has a name of one or two words. The first word is told by its upper-case
form and may not be quoted; the second is told by its capitals alone. Ten characters outside
ASCII have an upper-case form in ASCII, and a quoted word may have the same letters as a
listed one, so a built-in type may be read from words that are not spelled as its name. It
is spelled so exactly where all its words are unquoted and of ASCII characters. Where no
listed name begins, the type is the dotted name that is written.
-/

namespace SqlDdl

namespace Text

/-- The characters outside ASCII whose upper-case form is made of ASCII letters. -/
def lookalikes : List Char :=
  ['\u00DF', '\u0131', '\u017F', '\uFB00', '\uFB01', '\uFB02', '\uFB03', '\uFB04', '\uFB05',
    '\uFB06']

/-- No lookalike is an ASCII character. -/
theorem lt_of_mem_lookalikes {c : Char} (h : c ∈ lookalikes) : 127 < c.toNat := by
  have hall : lookalikes.all (127 < ·.toNat) = true := by decide
  exact of_decide_eq_true (List.all_eq_true.mp hall c h)

/-- A character that is no lookalike has its capital as its upper-case form. -/
theorem upperForm_of_notMem {c : Char} (h : c ∉ lookalikes) : upperForm c = [c.toUpper] := by
  by_cases hc : c.toNat ≤ 127
  · exact if_pos hc
  · have hupper : c.toUpper = c := toUpper_of_le (by omega)
    rw [upperForm, if_neg hc, hupper]
    -- The table is asked for each lookalike in turn, and none of them is the character.
    all_goals
      rintro rfl
      exact h (by decide)

/-- A text is made of ASCII characters. -/
def IsASCII (text : String) : Prop := ∀ c ∈ text.toList, c.toNat ≤ 127

instance (text : String) : Decidable (IsASCII text) :=
  List.decidableBAll (fun c : Char => c.toNat ≤ 127) text.toList

variable {text : String}

/-- A text without lookalikes has its capitals as its upper-case form. -/
theorem toUpperCase_of_notMem (h : ∀ c ∈ text.toList, c ∉ lookalikes) :
    toUpperCase text = toUpperASCII text := by
  have hforms : text.toList.flatMap upperForm = text.toList.map Char.toUpper := by
    rw [← List.flatMap_singleton' (text.toList.map _), List.flatMap_map]
    exact List.flatMap_congr fun c hc => upperForm_of_notMem (h c hc)
  rw [toUpperCase, toUpperASCII, hforms]

/-- An ASCII text has its capitals as its upper-case form. -/
theorem IsASCII.toUpperCase_eq (h : IsASCII text) : toUpperCase text = toUpperASCII text :=
  toUpperCase_of_notMem fun c hc hm => Nat.not_lt.mpr (h c hc) (lt_of_mem_lookalikes hm)

/-- A text with ASCII capitals is an ASCII text. -/
theorem IsASCII.of_toUpperASCII (h : IsASCII (toUpperASCII text)) : IsASCII text := by
  intro c hc
  by_contra hlt
  have hupper : c.toUpper = c := toUpper_of_le (by omega)
  refine hlt (h c ?_)
  rw [toUpperASCII, String.toList_ofList]
  exact List.mem_map.mpr ⟨c, hc, hupper⟩

end Text

open Text (IsASCII)
open Grammar (TypeHead typeHeads floatOf)

/-- The names of the built-in types in capitals, word by word. -/
def builtInNames : List (List String) :=
  [["SMALLINT"], ["INT2"], ["INT"], ["INTEGER"], ["INT4"], ["BIGINT"], ["INT8"], ["REAL"],
    ["FLOAT4"], ["FLOAT8"], ["FLOAT"], ["DOUBLE", "PRECISION"], ["NUMERIC"], ["DECIMAL"],
    ["BOOLEAN"], ["BOOL"], ["TEXT"], ["VARCHAR"], ["CHAR"], ["CHAR", "VARYING"], ["CHARACTER"],
    ["CHARACTER", "VARYING"], ["DATE"], ["TIME"], ["TIMESTAMP"], ["BYTEA"], ["UUID"], ["JSON"],
    ["JSONB"]]

/-- Whether some words are spelled as a name in capitals: they are unquoted and have the letters of
its parts, in any mix of ASCII case. -/
def SpelledAs (words : List Word) (name : List String) : Prop :=
  (∀ word ∈ words, word.quoted = false) ∧ words.map (Text.toUpperASCII ·.value) = name

instance (words : List Word) (name : List String) : Decidable (SpelledAs words name) :=
  inferInstanceAs (Decidable (_ ∧ _))

/-- Whether some words are taken for a name in capitals: the first is unquoted and has the first
part as its upper-case form, and the others have the letters of the other parts. -/
def TakenAs (words : List Word) (name : List String) : Prop :=
  ∃ first others, words = first :: others ∧ first.quoted = false ∧
    Text.toUpperCase first.value :: others.map (Text.toUpperASCII ·.value) = name

/-- Whether a word begins a built-in type: it is unquoted, and its upper-case form begins a listed
name. -/
def BeginsBuiltIn (word : Word) : Prop :=
  word.quoted = false ∧ ∃ parts, Text.toUpperCase word.value :: parts ∈ builtInNames

/-- The words among some tokens. -/
def wordsOf (tokens : List Token) : List Word :=
  tokens.filterMap fun
    | .word word => some word
    | _ => none

/-- The listed names are made of ASCII characters. -/
theorem isASCII_of_mem_builtInNames :
    ∀ name ∈ builtInNames, ∀ capitals ∈ name, IsASCII capitals := by
  decide +kernel

/-- Words that are taken for a listed name are spelled as that name exactly where all of them are
unquoted and made of ASCII characters. -/
theorem TakenAs.spelledAs_iff {words : List Word} {name : List String} (h : TakenAs words name)
    (hn : name ∈ builtInNames) :
    SpelledAs words name ↔ ∀ word ∈ words, word.quoted = false ∧ IsASCII word.value := by
  obtain ⟨first, others, rfl, hq, rfl⟩ := h
  constructor
  · rintro ⟨hunquoted, hname⟩ word hm
    have hcapitals : Text.toUpperASCII word.value ∈
        (first :: others).map (Text.toUpperASCII ·.value) := List.mem_map_of_mem hm
    rw [hname] at hcapitals
    exact ⟨hunquoted word hm, .of_toUpperASCII (isASCII_of_mem_builtInNames _ hn _ hcapitals)⟩
  · intro h
    refine ⟨fun word hm => (h word hm).1, ?_⟩
    rw [List.map_cons, (h first List.mem_cons_self).2.toUpperCase_eq]

/-- A word without lookalikes begins a built-in type exactly if it is spelled as the first part of
a listed name. -/
theorem beginsBuiltIn_iff {word : Word} (h : ∀ c ∈ word.value.toList, c ∉ Text.lookalikes) :
    BeginsBuiltIn word ↔
      ∃ capitals parts, capitals :: parts ∈ builtInNames ∧ SpelledAs [word] [capitals] := by
  rw [BeginsBuiltIn, Text.toUpperCase_of_notMem h]
  constructor
  · rintro ⟨hq, parts, hn⟩
    exact ⟨_, parts, hn, List.forall_mem_singleton.mpr hq, rfl⟩
  · rintro ⟨capitals, parts, hn, hq, hc⟩
    obtain rfl : Text.toUpperASCII word.value = capitals := List.singleton_inj.mp hc
    exact ⟨hq word List.mem_cons_self, parts, hn⟩

/-- The listed names begin with the capitals in the table of types. -/
theorem exists_mem_builtInNames_iff {capitals : String} :
    (∃ parts, capitals :: parts ∈ builtInNames) ↔ ∃ head, (capitals, head) ∈ typeHeads := by
  have hlisted : ∀ name ∈ builtInNames, ∃ entry ∈ typeHeads, name.head? = some entry.1 := by
    decide
  have hheads : ∀ entry ∈ typeHeads,
      [entry.1] ∈ builtInNames ∨ [entry.1, "PRECISION"] ∈ builtInNames := by
    decide
  constructor
  · rintro ⟨parts, hn⟩
    obtain ⟨⟨_, head⟩, he, hc⟩ := hlisted _ hn
    cases hc
    exact ⟨head, he⟩
  · rintro ⟨head, he⟩
    rcases hheads _ he with hn | hn
    · exact ⟨_, hn⟩
    · exact ⟨_, hn⟩

/-- No type in the table of types is a dotted name. -/
theorem ne_custom_of_mem_typeHeads {capitals : String} {dataType : DataType}
    (h : (capitals, .plain dataType) ∈ typeHeads) (name : ObjectName) :
    dataType ≠ .custom name := by
  rintro rfl
  simp [typeHeads] at h

/-- No floating-point type is a dotted name. -/
theorem floatOf_ne_custom (length : Option UInt32) (name : ObjectName) :
    floatOf length ≠ .custom name := by
  unfold floatOf
  split
  · split <;> exact nofun
  · exact nofun

/-- No word stands in a length. -/
theorem wordsOf_lengthTokens (length : Option Modifier) : wordsOf (lengthTokens length) = [] := by
  cases length <;> rfl

/-- No word stands in a precision. -/
theorem wordsOf_numericTokens (modifiers : Option NumericModifiers) :
    wordsOf (numericTokens modifiers) = [] := by
  match modifiers with
  | none => rfl
  | some ⟨precision, none⟩ => rfl
  | some ⟨precision, some scale⟩ => rfl

/-- A first word in the table of types is taken for a listed name, unless that has two words. -/
theorem TypeWord.exists_takenAs {head : TypeHead} (word : TypeWord head) (hh : head ≠ .double)
    {ts : List Token} (hts : wordsOf ts = []) :
    ∃ name ∈ builtInNames, TakenAs (wordsOf (.word word.word :: ts)) name := by
  have hnames : ∀ entry ∈ typeHeads, entry.2 ≠ .double → [entry.1] ∈ builtInNames := by
    decide
  refine ⟨_, hnames _ word.known hh, word.word, wordsOf ts, rfl, word.unquoted, ?_⟩
  rw [hts, List.map_nil]

/-- A first word in the table of types and a second word are taken for the name of both. -/
theorem TypeWord.exists_takenAs_second {head : TypeHead} (word : TypeWord head) {capitals : String}
    (second : SecondWord capitals) {ts : List Token}
    (hn : [Text.toUpperCase word.word.value, capitals] ∈ builtInNames) (hts : wordsOf ts = []) :
    ∃ name ∈ builtInNames, TakenAs (wordsOf (.word word.word :: .word second.word :: ts)) name := by
  refine ⟨_, hn, word.word, second.word :: wordsOf ts, rfl, word.unquoted, ?_⟩
  rw [hts, List.map_singleton, second.spelled]

/-- A type is built in and its words are taken for a listed name, or it is the dotted name that is
written and begins no listed name. -/
theorem TypePhrase.takenAs_or_dotted (settings : Settings) (phrase : TypePhrase) :
    ((∀ name, phrase.meaning settings ≠ .custom name) ∧
      ∃ name ∈ builtInNames, TakenAs (wordsOf phrase.tokens) name) ∨
    ∃ names : Identifiers, phrase.tokens = names.dotted ∧
      phrase.meaning settings = .custom (names.name settings) ∧
      ¬ BeginsBuiltIn names.first.word := by
  cases phrase with
  | plain dataType word =>
    exact .inl ⟨ne_custom_of_mem_typeHeads word.known, word.exists_takenAs nofun rfl⟩
  | float word length =>
    exact .inl ⟨floatOf_ne_custom _, word.exists_takenAs nofun (wordsOf_lengthTokens _)⟩
  | double word second =>
    have hnames : ∀ entry ∈ typeHeads, entry.2 = .double →
        [entry.1, "PRECISION"] ∈ builtInNames := by
      decide
    exact .inl ⟨nofun, word.exists_takenAs_second second (hnames _ word.known rfl) rfl⟩
  | numeric word modifiers =>
    exact .inl ⟨nofun, word.exists_takenAs nofun (wordsOf_numericTokens _)⟩
  | varchar word length =>
    exact .inl ⟨nofun, word.exists_takenAs nofun (wordsOf_lengthTokens _)⟩
  | character word length =>
    exact .inl ⟨nofun, word.exists_takenAs nofun (wordsOf_lengthTokens _)⟩
  | varying word second length =>
    have hnames : ∀ entry ∈ typeHeads, entry.2 = .character →
        [entry.1, "VARYING"] ∈ builtInNames := by
      decide
    exact .inl ⟨nofun, word.exists_takenAs_second second (hnames _ word.known rfl)
      (wordsOf_lengthTokens _)⟩
  | custom names unknown =>
    refine .inr ⟨names, rfl, rfl, ?_⟩
    rintro ⟨hq, hn⟩
    obtain ⟨head, hm⟩ := exists_mem_builtInNames_iff.mp hn
    rcases unknown with hu | hu
    · exact Bool.false_ne_true (hq.symm.trans hu)
    · exact hu head hm

/-- A type is written with a word at its beginning. -/
theorem TypePhrase.exists_first (phrase : TypePhrase) :
    ∃ first ts, phrase.tokens = .word first :: ts := by
  cases phrase <;> exact ⟨_, _, rfl⟩

/-- Words that are taken for a listed name begin a built-in type. -/
theorem TakenAs.beginsBuiltIn {first : Word} {others : List Word} {name : List String}
    (h : TakenAs (first :: others) name) (hn : name ∈ builtInNames) : BeginsBuiltIn first := by
  obtain ⟨_, _, he, hq, rfl⟩ := h
  cases he
  exact ⟨hq, _, hn⟩

/-- A type that was read is built in exactly if its first word begins a listed name. Its words are
taken for such a name then, and are spelled as it exactly if all of them are unquoted and of ASCII
characters. Else it is the dotted name that is written. The first word begins a listed name by its
spelling unless it holds a lookalike. -/
theorem Grammar.dataType_name {settings : Settings} {s s' : State} {value : DataType}
    (h : dataType settings s = .ok value s') :
    ∃ first ts, s.cursor.Passes (.word first :: ts) s'.cursor ∧
      (BeginsBuiltIn first → (∀ name, value ≠ .custom name) ∧
        ∃ name ∈ builtInNames, TakenAs (first :: wordsOf ts) name ∧
          (SpelledAs (first :: wordsOf ts) name ↔
            ∀ word ∈ first :: wordsOf ts, word.quoted = false ∧ IsASCII word.value)) ∧
      (¬ BeginsBuiltIn first → ∃ names : Identifiers, names.dotted = .word first :: ts ∧
        value = .custom (names.name settings)) ∧
      ((∀ c ∈ first.value.toList, c ∉ Text.lookalikes) → (BeginsBuiltIn first ↔
        ∃ capitals parts, capitals :: parts ∈ builtInNames ∧ SpelledAs [first] [capitals])) := by
  obtain ⟨phrase, rfl, hpass⟩ := dataType_ok h
  obtain ⟨first, ts, htokens⟩ := phrase.exists_first
  have hcases := phrase.takenAs_or_dotted settings
  rw [htokens] at hpass hcases
  refine ⟨first, ts, hpass, ?_⟩
  rcases hcases with ⟨hbuiltIn, name, hn, htaken⟩ | ⟨names, hdotted, hcustom, hnot⟩
  · have hbegins : BeginsBuiltIn first := htaken.beginsBuiltIn hn
    exact ⟨fun _ => ⟨hbuiltIn, name, hn, htaken, htaken.spelledAs_iff hn⟩,
      fun hnot => absurd hbegins hnot, beginsBuiltIn_iff⟩
  · have hfirst : first = names.first.word := by
      cases hdotted
      rfl
    rw [← hfirst] at hnot
    exact ⟨fun hbegins => absurd hbegins hnot, fun _ => ⟨names, hdotted.symm, hcustom⟩,
      beginsBuiltIn_iff⟩

/-- `Character varying` is built in, and its words are spelled as that name. -/
theorem Grammar.dataType_name_varying :
    ∃ s', dataType .standard (stateOf [.word ⟨"Character", false⟩, .word ⟨"varying", false⟩]) =
        .ok (.varchar none) s' ∧
      ∃ name ∈ builtInNames, SpelledAs [⟨"Character", false⟩, ⟨"varying", false⟩] name := by
  obtain ⟨s', hrun, hpass, -⟩ := dataType_reads .standard
    (.varying ⟨⟨"Character", false⟩, rfl, by decide +kernel⟩ ⟨⟨"varying", false⟩, by decide +kernel⟩
      none)
    rfl (ahead_stateOf _)
  obtain ⟨first, ts, hp, hbuiltIn, -, -⟩ := dataType_name hrun
  cases hp.tokens_unique hpass.toPasses
  obtain ⟨-, name, hn, -, hspelled⟩ := hbuiltIn ⟨rfl, ["VARYING"], by decide +kernel⟩
  exact ⟨s', hrun, name, hn, hspelled.mpr (by decide +kernel)⟩

/-- A first word with a lookalike and a quoted second word are read as the names of built-in types,
though no listed name is spelled so. -/
theorem Grammar.dataType_notSpelled :
    (Reads (dataType .standard) (stateOf [.word ⟨"J\u017FON", false⟩]) [.word ⟨"J\u017FON", false⟩]
        [.eof] .json ∧
      ∀ name ∈ builtInNames, ¬ SpelledAs [⟨"J\u017FON", false⟩] name) ∧
    Reads (dataType .standard)
      (stateOf [.word ⟨"double", false⟩, .word ⟨"precision", true⟩])
      [.word ⟨"double", false⟩, .word ⟨"precision", true⟩] [.eof] .doublePrecision ∧
    ∀ name ∈ builtInNames, ¬ SpelledAs [⟨"double", false⟩, ⟨"precision", true⟩] name := by
  refine ⟨⟨?_, by decide +kernel⟩, ?_, by decide +kernel⟩
  · exact dataType_reads .standard (.plain .json ⟨⟨"J\u017FON", false⟩, rfl, by decide +kernel⟩) rfl
      (ahead_stateOf _)
  · exact dataType_reads .standard
      (.double ⟨⟨"double", false⟩, rfl, by decide +kernel⟩ ⟨⟨"precision", true⟩, by decide +kernel⟩)
      rfl (ahead_stateOf _)

end SqlDdl
