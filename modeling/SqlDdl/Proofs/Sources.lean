import SqlDdl.Configuration.Document
import SqlDdl.Configuration.Environment
import SqlDdl.Proofs.Decimals
import SqlDdl.Text.UpperCase

/-!
# Sources of a configuration

A part of a configuration is given by a source if that is set, and is what it was if not. A
source that is set may give no value; the variables of the environment then give no
configuration. Else they give exactly one, which has to be acceptable. A document gives the
parts that it sets over the standard ones.
-/

namespace SqlDdl

/-- The names of the levels in capitals. -/
def levelNames : List String := ["OFF", "ERROR", "WARN", "INFO", "DEBUG", "TRACE"]

/-- A text names a level, in any mix of ASCII case. -/
def IsLevelName (text : String) : Prop := Text.toUpperASCII text ∈ levelNames

instance (text : String) : Decidable (IsLevelName text) :=
  inferInstanceAs (Decidable (_ ∈ _))

/-- A text is read as a level exactly if it names one. -/
theorem LogLevel.isSome_ofText?_iff {text : String} :
    (ofText? text).isSome = true ↔ IsLevelName text := by
  have hnames : levelNames = all.map spelling := rfl
  rw [ofText?, List.find?_isSome, IsLevelName, hnames, List.mem_map]
  simp only [beq_iff_eq]
  rfl

section Except

variable {ε δ α β : Type} {x : Except ε α}

/-- Steps that may fail succeed together. -/
theorem Except.bind_eq_ok_iff {f : α → Except ε β} {b : β} :
    (x >>= f) = .ok b ↔ ∃ a, x = .ok a ∧ f a = .ok b := by
  cases x with
  | error error => exact ⟨nofun, fun ⟨_, h, _⟩ => nomatch h⟩
  | ok a =>
    constructor
    · exact fun h => ⟨a, rfl, h⟩
    · rintro ⟨_, ⟨⟩, h⟩
      exact h

/-- A change of errors keeps what succeeds. -/
theorem Except.mapError_eq_ok_iff {f : ε → δ} {a : α} : x.mapError f = .ok a ↔ x = .ok a := by
  cases x with
  | error error => exact ⟨nofun, nofun⟩
  | ok value => simp only [Except.mapError, Except.ok.injEq]

/-- What does not succeed fails. -/
theorem Except.exists_error_iff : (∃ error, x = .error error) ↔ ¬ ∃ a, x = .ok a := by
  cases x with
  | error error => exact iff_of_true ⟨error, rfl⟩ nofun
  | ok a => exact iff_of_false nofun (not_not_intro ⟨a, rfl⟩)

end Except

/-- A value is given by a source if that is set, and is another one if not. -/
def Given {α β : Type} (reads : α → β → Prop) (source : Option α) (otherwise value : β) : Prop :=
  match source with
  | some given => reads given value
  | none => value = otherwise

/-- A source is set and gives no value. -/
def Malformed {α β : Type} (reads : α → β → Prop) (source : Option α) : Prop :=
  ∃ given, source = some given ∧ ¬ ∃ value, reads given value

section Given

variable {α β : Type} {reads : α → β → Prop} {source : Option α} {otherwise value : β}

/-- There is a value unless the source is set and gives none. -/
theorem exists_given_iff (otherwise : β) :
    (∃ value, Given reads source otherwise value) ↔ ¬ Malformed reads source := by
  cases source with
  | none => exact iff_of_true ⟨otherwise, rfl⟩ nofun
  | some given =>
    constructor
    · rintro ⟨value, hv⟩ ⟨_, ⟨⟩, hnone⟩
      exact hnone ⟨value, hv⟩
    · intro h
      by_contra hnone
      exact h ⟨given, rfl, hnone⟩

/-- A value that a source gave is given by it whatever else it might have been. -/
theorem Given.again (h : Given reads source otherwise value) :
    Given reads source value value := by
  cases source with
  | none => rfl
  | some given => exact h

/-- There is one value if the source is read in one way. -/
theorem Given.unique (hreads : ∀ given value other, reads given value → reads given other →
      value = other) {other : β} (h : Given reads source otherwise value)
    (h' : Given reads source otherwise other) : value = other := by
  cases source with
  | none => exact h.trans h'.symm
  | some given => exact hreads given value other h h'

/-- A source that is the value gives it. -/
theorem given_eq_iff {source : Option β} :
    Given Eq source otherwise value ↔ source.getD otherwise = value := by
  cases source with
  | none => exact eq_comm
  | some given => rfl

end Given

/-- A text writes a number that has a 64-bit representation. -/
def WritesNumber (text : String) (n : Nat) : Prop := Text.WritesDecimal text n ∧ n < UInt64.size

/-- A text is the name of a truth value. -/
def WritesTruth (text : String) (b : Bool) : Prop :=
  text = "true" ∧ b = true ∨ text = "false" ∧ b = false

namespace Configuration

/-- What is asked of a configuration. -/
structure Acceptable (configuration : Configuration) : Prop where
  /-- No text with a character keeps a limit of zero. -/
  length_pos : 0 < configuration.settings.maxInputLength
  /-- No expression keeps a limit of zero. -/
  depth_pos : 0 < configuration.settings.maxExpressionDepth
  /-- The level is known by name. -/
  level : IsLevelName configuration.logLevel

/-- A configuration has a fault exactly if it is not acceptable. -/
theorem fault?_eq_none_iff {configuration : Configuration} :
    configuration.fault? = none ↔ configuration.Acceptable := by
  have hlevel : (LogLevel.ofText? configuration.logLevel).isNone = false ↔
      IsLevelName configuration.logLevel := by
    rw [← LogLevel.isSome_ofText?_iff, Option.isNone_eq_false_iff]
  unfold fault?
  constructor
  · intro h
    split at h
    · cases h
    · split at h
      · cases h
      · split at h
        · cases h
        · exact ⟨by omega, by omega, hlevel.mp (Bool.eq_false_iff.mpr (by assumption))⟩
  · rintro ⟨hlength, hdepth, hname⟩
    rw [if_neg (by omega), if_neg (by omega), hlevel.mpr hname]
    rfl

variable {lookup : String → Option String} {base configuration : Configuration}

/-- A configuration is let through exactly if it is acceptable, and as it is. -/
theorem validated_eq_ok_iff {other : Configuration} :
    configuration.validated = .ok other ↔ configuration.Acceptable ∧ configuration = other := by
  rw [← fault?_eq_none_iff, validated]
  cases configuration.fault? with
  | some error => exact ⟨nofun, fun h => nomatch h.1⟩
  | none => exact ⟨fun h => ⟨rfl, Except.ok.inj h⟩, fun h => congrArg Except.ok h.2⟩

/-- A configuration that has the parts that variables set and the other parts of another one. -/
structure FromVariables (lookup : String → Option String) (base configuration : Configuration) :
    Prop where
  /-- The limit on length comes from its variable. -/
  maxInputLength : Given WritesNumber (lookup "DDLPARSER_MAX_INPUT_LENGTH")
    base.settings.maxInputLength configuration.settings.maxInputLength
  /-- The limit on nesting comes from its variable. -/
  maxExpressionDepth : Given WritesNumber (lookup "DDLPARSER_MAX_EXPRESSION_DEPTH")
    base.settings.maxExpressionDepth configuration.settings.maxExpressionDepth
  /-- Folding comes from its variable. -/
  foldIdentifiers : Given WritesTruth (lookup "DDLPARSER_FOLD_IDENTIFIERS")
    base.settings.foldIdentifiers configuration.settings.foldIdentifiers
  /-- The level comes from its variable, whatever it names. -/
  logLevel : Given Eq (lookup "DDLPARSER_LOG_LEVEL") base.logLevel configuration.logLevel

/-- A number is taken from a variable exactly if that gives it. -/
theorem numberFrom_eq_ok_iff {source : Variable} {otherwise n : Nat} :
    numberFrom lookup source otherwise = .ok n ↔
      Given WritesNumber (lookup source.name) otherwise n := by
  unfold numberFrom Given
  cases lookup source.name with
  | none => simp only [Except.ok.injEq, eq_comm]
  | some text =>
    simp only [WritesNumber]
    rw [← Text.readDecimal?_eq_some_iff (by decide)]
    cases Text.readDecimal? UInt64.size text with
    | none => simp only [reduceCtorEq]
    | some value => simp only [Except.ok.injEq, Option.some.injEq]

/-- A truth value is taken from a variable exactly if that gives it. -/
theorem boolFrom_eq_ok_iff {source : Variable} {otherwise b : Bool} :
    boolFrom lookup source otherwise = .ok b ↔
      Given WritesTruth (lookup source.name) otherwise b := by
  unfold boolFrom Given
  cases lookup source.name with
  | none => simp only [Except.ok.injEq, eq_comm]
  | some text =>
    simp only [WritesTruth]
    split
    next htrue =>
      simp only [Except.ok.injEq, htrue, true_and, eq_comm, String.reduceEq, false_and, or_false]
    next htrue =>
      split
      next hfalse =>
        simp only [Except.ok.injEq, hfalse, true_and, eq_comm, String.reduceEq, false_and, false_or]
      next hfalse => simp only [reduceCtorEq, htrue, hfalse, false_and, or_false]

/-- A configuration is overridden by variables exactly to the one with the parts that they set, if
that is acceptable. -/
theorem override_eq_ok_iff :
    base.override lookup = .ok configuration ↔
      FromVariables lookup base configuration ∧ configuration.Acceptable := by
  simp only [override, Except.bind_eq_ok_iff, numberFrom_eq_ok_iff, boolFrom_eq_ok_iff,
    validated_eq_ok_iff]
  constructor
  · rintro ⟨length, hlength, depth, hdepth, fold, hfold, hok, rfl⟩
    exact ⟨⟨hlength, hdepth, hfold, given_eq_iff.mpr rfl⟩, hok⟩
  · rintro ⟨⟨hlength, hdepth, hfold, hlevel⟩, hok⟩
    have hsame : (⟨configuration.settings, (lookup Variable.logLevel.name).getD base.logLevel⟩ :
        Configuration) = configuration :=
      congrArg (Configuration.mk configuration.settings) (given_eq_iff.mp hlevel)
    exact ⟨_, hlength, _, hdepth, _, hfold, hsame ▸ hok, hsame⟩

/-- The variables give some configuration unless one of them gives no value for its part. -/
theorem exists_fromVariables_iff :
    (∃ configuration, FromVariables lookup base configuration) ↔
      ¬ (Malformed WritesNumber (lookup "DDLPARSER_MAX_INPUT_LENGTH") ∨
        Malformed WritesNumber (lookup "DDLPARSER_MAX_EXPRESSION_DEPTH") ∨
        Malformed WritesTruth (lookup "DDLPARSER_FOLD_IDENTIFIERS")) := by
  rw [not_or, not_or, ← exists_given_iff base.settings.maxInputLength,
    ← exists_given_iff base.settings.maxExpressionDepth,
    ← exists_given_iff base.settings.foldIdentifiers]
  constructor
  · rintro ⟨configuration, h⟩
    exact ⟨⟨_, h.maxInputLength⟩, ⟨_, h.maxExpressionDepth⟩, ⟨_, h.foldIdentifiers⟩⟩
  · rintro ⟨⟨length, hlength⟩, ⟨depth, hdepth⟩, fold, hfold⟩
    exact ⟨⟨⟨length, depth, fold⟩, _⟩, hlength, hdepth, hfold, given_eq_iff.mpr rfl⟩

/-- A text writes one number. -/
theorem WritesNumber.unique {text : String} {n m : Nat} (h : WritesNumber text n)
    (h' : WritesNumber text m) : n = m := by
  have hn := (Text.readDecimal?_eq_some_iff (by decide)).mpr h
  have hm := (Text.readDecimal?_eq_some_iff (by decide)).mpr h'
  exact Option.some.inj (hn.symm.trans hm)

/-- A text names one truth value. -/
theorem WritesTruth.unique {text : String} {b c : Bool} (h : WritesTruth text b)
    (h' : WritesTruth text c) : b = c := by
  rcases h with ⟨rfl, rfl⟩ | ⟨rfl, rfl⟩
  · exact (h'.resolve_right fun h => nomatch h.1).2.symm
  · exact (h'.resolve_left fun h => nomatch h.1).2.symm

/-- The variables give one configuration. -/
theorem FromVariables.unique {other : Configuration} (h : FromVariables lookup base configuration)
    (h' : FromVariables lookup base other) : configuration = other := by
  have numbers (text : String) (n m : Nat) : WritesNumber text n → WritesNumber text m → n = m :=
    WritesNumber.unique
  have truths (text : String) (b c : Bool) : WritesTruth text b → WritesTruth text c → b = c :=
    WritesTruth.unique
  have texts (text s t : String) : text = s → text = t → s = t := fun h h' => h.symm.trans h'
  rcases configuration with ⟨⟨length, depth, fold⟩, level⟩
  rcases other with ⟨⟨length', depth', fold'⟩, level'⟩
  obtain rfl : length = length' := h.maxInputLength.unique numbers h'.maxInputLength
  obtain rfl : depth = depth' :=
    h.maxExpressionDepth.unique numbers h'.maxExpressionDepth
  obtain rfl : fold = fold' := h.foldIdentifiers.unique truths h'.foldIdentifiers
  obtain rfl : level = level' := h.logLevel.unique texts h'.logLevel
  rfl

/-- A configuration is not acceptable if a limit is zero or the level is unknown. -/
theorem not_acceptable_iff :
    ¬ configuration.Acceptable ↔ configuration.settings.maxInputLength = 0 ∨
      configuration.settings.maxExpressionDepth = 0 ∨ ¬ IsLevelName configuration.logLevel := by
  constructor
  · intro h
    by_contra hnone
    simp only [not_or, not_not] at hnone
    exact h ⟨by omega, by omega, hnone.2.2⟩
  · rintro h ⟨hlength, hdepth, hlevel⟩
    rcases h with h | h | h
    · omega
    · omega
    · exact h hlevel

/-- The variables give no acceptable configuration if one of them gives no value for its part, or
if they give a configuration that is not acceptable. -/
theorem not_exists_acceptable_iff :
    (¬ ∃ configuration, FromVariables lookup base configuration ∧ configuration.Acceptable) ↔
      (Malformed WritesNumber (lookup "DDLPARSER_MAX_INPUT_LENGTH") ∨
        Malformed WritesNumber (lookup "DDLPARSER_MAX_EXPRESSION_DEPTH") ∨
        Malformed WritesTruth (lookup "DDLPARSER_FOLD_IDENTIFIERS")) ∨
      ∃ configuration, FromVariables lookup base configuration ∧ ¬ configuration.Acceptable := by
  constructor
  · intro h
    by_cases hgiven : ∃ configuration, FromVariables lookup base configuration
    · obtain ⟨configuration, hv⟩ := hgiven
      exact .inr ⟨configuration, hv, fun hok => h ⟨configuration, hv, hok⟩⟩
    · exact .inl (not_not.mp fun hm => hgiven (exists_fromVariables_iff.mpr hm))
  · rintro (hm | ⟨other, hother, hnot⟩) ⟨configuration, hv, hok⟩
    · exact exists_fromVariables_iff.mp ⟨configuration, hv⟩ hm
    · exact hnot (hv.unique hother ▸ hok)

/-- What variables gave is given by them again. -/
theorem FromVariables.again (h : FromVariables lookup base configuration) :
    FromVariables lookup configuration configuration :=
  ⟨h.maxInputLength.again, h.maxExpressionDepth.again, h.foldIdentifiers.again, h.logLevel.again⟩

end Configuration

namespace Toml

/-- What a value of a document has for a key, or in its place if it is a list. -/
def Value.member? (key : String) (place : Nat) : Value → Option Value
  | .table _ members => members.lookup key
  | .array items => items[place]?
  | .tables rows => (rows.reverse[place]?).map (.table .header)
  | _ => none

/-- The fields of a record are what it has for their names and in their places. -/
theorem getElem?_fields? {names : List String} {value : Value} {fields : List (Option Value)}
    (h : fields? names value = some fields) (place : Nat) {name : String}
    (hn : names[place]? = some name) : fields[place]? = some (value.member? name place) := by
  have hplace : place < names.length := (List.getElem?_eq_some_iff.mp hn).1
  unfold fields? at h
  cases value with
  | table opening members =>
    dsimp only at h
    unfold named? at h
    split at h
    · cases h
      rw [List.getElem?_map, hn]
      rfl
    · cases h
  | array items =>
    cases h
    rw [List.getElem?_map, List.getElem?_range hplace]
    rfl
  | tables rows =>
    cases h
    rw [List.getElem?_map, List.getElem?_range hplace]
    rfl
  | datetime =>
    cases h
    rw [List.getElem?_map, hn]
    rfl
  | _ => cases h

/-- A value is a number that has a 64-bit representation. -/
def IsNumber (value : Value) (n : Nat) : Prop := value = .integer (some n) ∧ n < UInt64.size

/-- A value is a truth value. -/
def IsTruth (value : Value) (b : Bool) : Prop := value = .boolean b

/-- A value is a text. -/
def IsText (value : Value) (text : String) : Prop := value = .string text

/-- A number is taken from a value only if that is the number. -/
theorem given_of_natOr? {source : Option Value} {otherwise n : Nat}
    (h : natOr? otherwise source = some n) : Given IsNumber source otherwise n := by
  unfold natOr? at h
  split at h
  · exact (Option.some.inj h).symm
  · split at h
    · cases h
      exact ⟨rfl, by assumption⟩
    · cases h
  · cases h

/-- A truth value is taken from a value only if that is the truth value. -/
theorem given_of_boolOr? {source : Option Value} {otherwise b : Bool}
    (h : boolOr? otherwise source = some b) : Given IsTruth source otherwise b := by
  unfold boolOr? at h
  split at h
  · exact (Option.some.inj h).symm
  · cases h
    rfl
  · cases h

/-- A text is taken from a value only if that is the text. -/
theorem given_of_stringOr? {source : Option Value} {otherwise text : String}
    (h : stringOr? otherwise source = some text) : Given IsText source otherwise text := by
  unfold stringOr? at h
  split at h
  · exact (Option.some.inj h).symm
  · cases h
    rfl
  · cases h

/-- What a document has for a key of one of its tables, or in its place if that is a list. -/
def setting? (document : Members) (table key : String) (place : Nat) : Option Value :=
  (document.lookup table).bind (·.member? key place)

end Toml

namespace Configuration

variable {document : Toml.Members} {configuration : Configuration}

/-- A configuration that has the parts that a document sets and the standard ones for the rest. -/
structure FromDocument (document : Toml.Members) (configuration : Configuration) : Prop where
  /-- The limit on length is the first entry in the table of the parser. -/
  maxInputLength : Given Toml.IsNumber (Toml.setting? document "parser" "max_input_length" 0)
    1048576 configuration.settings.maxInputLength
  /-- The limit on nesting is its second entry. -/
  maxExpressionDepth : Given Toml.IsNumber
    (Toml.setting? document "parser" "max_expression_depth" 1)
    128 configuration.settings.maxExpressionDepth
  /-- Folding is its third entry. -/
  foldIdentifiers : Given Toml.IsTruth (Toml.setting? document "parser" "fold_identifiers" 2)
    false configuration.settings.foldIdentifiers
  /-- The level is the only entry in the table of the log. -/
  logLevel : Given Toml.IsText (Toml.setting? document "logging" "level" 0)
    "warn" configuration.logLevel

/-- Where a document sets nothing, all parts are the standard ones. -/
theorem fromDocument_nil : FromDocument [] .standard := ⟨rfl, rfl, rfl, rfl⟩

/-- Settings read from a value of a document have the parts that the value sets. -/
theorem given_of_settingsOfToml? {value : Toml.Value} {settings : Settings}
    (h : Settings.ofToml? value = some settings) :
    Given Toml.IsNumber (value.member? "max_input_length" 0) 1048576 settings.maxInputLength ∧
      Given Toml.IsNumber (value.member? "max_expression_depth" 1) 128
        settings.maxExpressionDepth ∧
      Given Toml.IsTruth (value.member? "fold_identifiers" 2) false settings.foldIdentifiers := by
  obtain ⟨fields, hfields, h⟩ := Option.bind_eq_some_iff.mp h
  split at h
  next length depth fold =>
    have hlength := Option.some.inj (Toml.getElem?_fields? hfields 0 rfl)
    have hdepth := Option.some.inj (Toml.getElem?_fields? hfields 1 rfl)
    have hfold := Option.some.inj (Toml.getElem?_fields? hfields 2 rfl)
    subst hlength hdepth hfold
    obtain ⟨n, hn, h⟩ := Option.bind_eq_some_iff.mp h
    obtain ⟨m, hm, h⟩ := Option.bind_eq_some_iff.mp h
    obtain ⟨b, hb, h⟩ := Option.bind_eq_some_iff.mp h
    cases h
    exact ⟨Toml.given_of_natOr? hn, Toml.given_of_natOr? hm, Toml.given_of_boolOr? hb⟩
  next => cases h

/-- A level read from a value of a document is the one that the value sets. -/
theorem given_of_levelOfToml? {value : Toml.Value} {level : String}
    (h : levelOfToml? value = some level) :
    Given Toml.IsText (value.member? "level" 0) "warn" level := by
  obtain ⟨fields, hfields, h⟩ := Option.bind_eq_some_iff.mp h
  split at h
  next text =>
    have htext := Option.some.inj (Toml.getElem?_fields? hfields 0 rfl)
    subst htext
    exact Toml.given_of_stringOr? h
  next => cases h

/-- A configuration read from a document has the parts that the document sets. -/
theorem fromDocument_of_ofToml? (h : ofToml? document = some configuration) :
    FromDocument document configuration := by
  obtain ⟨tables, htables, h⟩ := Option.bind_eq_some_iff.mp h
  have htables : tables = [document.lookup "parser", document.lookup "logging"] := by
    unfold Toml.named? at htables
    split at htables
    · cases htables
      rfl
    · cases htables
  subst htables
  have h : ((document.lookup "parser").elim (some standard.settings) Settings.ofToml?).bind
      (fun settings => ((document.lookup "logging").elim (some standard.logLevel)
        levelOfToml?).bind fun level => some ⟨settings, level⟩) = some configuration := by
    rw [← h]
    cases document.lookup "parser" <;> cases document.lookup "logging" <;> rfl
  obtain ⟨settings, hsettings, h⟩ := Option.bind_eq_some_iff.mp h
  obtain ⟨level, hlevel, h⟩ := Option.bind_eq_some_iff.mp h
  cases h
  have hparser : Given Toml.IsNumber (Toml.setting? document "parser" "max_input_length" 0)
        1048576 settings.maxInputLength ∧
      Given Toml.IsNumber (Toml.setting? document "parser" "max_expression_depth" 1) 128
        settings.maxExpressionDepth ∧
      Given Toml.IsTruth (Toml.setting? document "parser" "fold_identifiers" 2) false
        settings.foldIdentifiers := by
    unfold Toml.setting?
    cases hp : document.lookup "parser" with
    | none =>
      rw [hp] at hsettings
      cases hsettings
      exact ⟨rfl, rfl, rfl⟩
    | some value =>
      rw [hp] at hsettings
      exact given_of_settingsOfToml? hsettings
  have hlogging : Given Toml.IsText (Toml.setting? document "logging" "level" 0) "warn" level := by
    unfold Toml.setting?
    cases hl : document.lookup "logging" with
    | none =>
      rw [hl] at hlevel
      cases hlevel
      rfl
    | some value =>
      rw [hl] at hlevel
      exact given_of_levelOfToml? hlevel
  exact ⟨hparser.1, hparser.2.1, hparser.2.2, hlogging⟩

end Configuration

end SqlDdl
