import SqlDdl.CommandLine
import SqlDdl.Proofs.Sources

/-!
# Which source a configuration is taken from

Every part of a configuration has sources in an order: the option of the command line, the
variable of the environment, the member of the file, and what holds where nothing is set.
The first source that is set gives the value, whatever the ones behind it say. A source that
is set and gives no value is an error, and so is a result that is not acceptable.
-/

namespace SqlDdl

namespace CommandLine.Invocation

open SqlDdl.Configuration (FromDocument FromVariables)

variable {invocation : Invocation} {read : String → Except FileError String}
  {lookup : String → Option String} {base configuration : Configuration}

/-- A document is the one that an invocation names, and an empty one if it names none. -/
def Names (invocation : Invocation) (read : String → Except FileError String)
    (document : Toml.Members) : Prop :=
  match invocation.config with
  | none => document = []
  | some path => ∃ text, read path = .ok text ∧ Toml.read? text = some document

/-- The configuration before the environment has the parts that the named document sets. -/
theorem fromDocument_of_base (h : invocation.base read = .ok base) :
    ∃ document, invocation.Names read document ∧ FromDocument document base := by
  unfold Invocation.base at h
  unfold Names
  cases hc : invocation.config with
  | none =>
    rw [hc] at h
    cases h
    exact ⟨[], rfl, Configuration.fromDocument_nil⟩
  | some path =>
    rw [hc] at h
    have hload : Configuration.load read path = .ok base := Except.mapError_eq_ok_iff.mp h
    unfold Configuration.load at hload
    split at hload
    next text htext =>
      unfold Configuration.ofDocument at hload
      split at hload
      next configuration hdocument =>
        obtain ⟨document, hread, hof⟩ := Option.bind_eq_some_iff.mp hdocument
        obtain ⟨-, rfl⟩ := Configuration.validated_eq_ok_iff.mp hload
        exact ⟨document, ⟨text, htext, hread⟩, Configuration.fromDocument_of_ofToml? hof⟩
      next => cases hload
    next => cases hload

/-- A configuration that has the parts that the options set, else those that the variables set, and
the other parts of another one. Folding is turned on by its option and not off. -/
structure FromSources (invocation : Invocation) (lookup : String → Option String)
    (base configuration : Configuration) : Prop where
  /-- The limit on length comes from its variable. -/
  maxInputLength : Given WritesNumber (lookup "DDLPARSER_MAX_INPUT_LENGTH")
    base.settings.maxInputLength configuration.settings.maxInputLength
  /-- The limit on nesting comes from its variable. -/
  maxExpressionDepth : Given WritesNumber (lookup "DDLPARSER_MAX_EXPRESSION_DEPTH")
    base.settings.maxExpressionDepth configuration.settings.maxExpressionDepth
  /-- Folding is on if the option says so, else it comes from its variable. -/
  foldIdentifiers : if invocation.foldIdentifiers then configuration.settings.foldIdentifiers = true
    else Given WritesTruth (lookup "DDLPARSER_FOLD_IDENTIFIERS")
      base.settings.foldIdentifiers configuration.settings.foldIdentifiers
  /-- The level comes from its option, else from its variable. -/
  logLevel : Given Eq (invocation.logLevel.or (lookup "DDLPARSER_LOG_LEVEL"))
    base.logLevel configuration.logLevel

/-- The options take precedence over the variables. -/
theorem FromSources.of_fromVariables {between : Configuration}
    (h : FromVariables lookup base between) :
    FromSources invocation lookup base (invocation.override between) := by
  refine ⟨h.maxInputLength, h.maxExpressionDepth, ?_, ?_⟩
  · cases hf : invocation.foldIdentifiers with
    | true => simp only [if_true, Invocation.override, hf, Bool.true_or]
    | false =>
      simp only [Bool.false_eq_true, if_false, Invocation.override, hf, Bool.false_or]
      exact h.foldIdentifiers
  · have hlevel : (invocation.override between).logLevel =
        invocation.logLevel.getD between.logLevel := rfl
    rw [given_eq_iff, hlevel]
    cases invocation.logLevel with
    | none => exact given_eq_iff.mp h.logLevel
    | some level => rfl

/-- There is a configuration to run with exactly if the variables give an acceptable one that the
options leave acceptable. -/
theorem configuration_eq_ok_iff (hbase : invocation.base read = .ok base) :
    invocation.configuration read lookup = .ok configuration ↔
      ∃ between, (FromVariables lookup base between ∧ between.Acceptable) ∧
        (invocation.override between).Acceptable ∧ invocation.override between = configuration := by
  simp only [Invocation.configuration, hbase, Except.bind_eq_ok_iff, Except.mapError_eq_ok_iff,
    Configuration.override_eq_ok_iff, Configuration.validated_eq_ok_iff, Except.ok.injEq,
    exists_eq_left']

/-- The options leave an acceptable configuration acceptable unless they set an unknown level. -/
theorem acceptable_override_iff (h : configuration.Acceptable) :
    (invocation.override configuration).Acceptable ↔
      ¬ ∃ level, invocation.logLevel = some level ∧ ¬ IsLevelName level := by
  have hlevel : (invocation.override configuration).Acceptable ↔
      IsLevelName (invocation.logLevel.getD configuration.logLevel) :=
    ⟨fun h => h.level, fun hname => ⟨h.length_pos, h.depth_pos, hname⟩⟩
  rw [hlevel]
  cases invocation.logLevel with
  | none => exact iff_of_true h.level nofun
  | some level => simp only [Option.getD_some, Option.some.injEq, exists_eq_left', not_not]

/-- There is a configuration to run with if the variables give an acceptable one and the option
sets no unknown level. -/
theorem exists_configuration_iff (hbase : invocation.base read = .ok base) :
    (∃ configuration, invocation.configuration read lookup = .ok configuration) ↔
      (∃ between, FromVariables lookup base between ∧ between.Acceptable) ∧
        ¬ ∃ level, invocation.logLevel = some level ∧ ¬ IsLevelName level := by
  simp only [configuration_eq_ok_iff hbase]
  constructor
  · rintro ⟨_, between, hbetween, hok, -⟩
    exact ⟨⟨between, hbetween⟩, (acceptable_override_iff hbetween.2).mp hok⟩
  · rintro ⟨⟨between, hbetween⟩, hlevel⟩
    exact ⟨_, between, hbetween, (acceptable_override_iff hbetween.2).mpr hlevel, rfl⟩

/-- Where the configuration before the environment is known, an invocation gives a configuration
with the parts of the first sources that are set, which is acceptable. It fails exactly if a
variable gives no value, the variables give a configuration that is not acceptable, or the level of
the option is unknown. The configuration before has the parts of the named document, and variables
that were applied change nothing when they are applied again. -/
theorem configuration_precedence (hbase : invocation.base read = .ok base) :
    (∀ configuration, invocation.configuration read lookup = .ok configuration →
      FromSources invocation lookup base configuration ∧ configuration.fault? = none) ∧
    ((∃ failure, invocation.configuration read lookup = .error failure) ↔
      Malformed WritesNumber (lookup "DDLPARSER_MAX_INPUT_LENGTH") ∨
      Malformed WritesNumber (lookup "DDLPARSER_MAX_EXPRESSION_DEPTH") ∨
      Malformed WritesTruth (lookup "DDLPARSER_FOLD_IDENTIFIERS") ∨
      (∃ between, FromVariables lookup base between ∧ (between.settings.maxInputLength = 0 ∨
        between.settings.maxExpressionDepth = 0 ∨ ¬ IsLevelName between.logLevel)) ∨
      ∃ level, invocation.logLevel = some level ∧ ¬ IsLevelName level) ∧
    (∃ document, invocation.Names read document ∧ FromDocument document base) ∧
    ∀ configuration, base.override lookup = .ok configuration →
      configuration.override lookup = .ok configuration := by
  refine ⟨fun configuration h => ?_, ?_, fromDocument_of_base hbase, fun configuration h => ?_⟩
  · obtain ⟨between, ⟨hvariables, -⟩, hok, rfl⟩ := (configuration_eq_ok_iff hbase).mp h
    exact ⟨.of_fromVariables hvariables, Configuration.fault?_eq_none_iff.mpr hok⟩
  · rw [Except.exists_error_iff, exists_configuration_iff hbase, not_and_or, not_not,
      Configuration.not_exists_acceptable_iff]
    simp only [Configuration.not_acceptable_iff, or_assoc]
  · rw [Configuration.override_eq_ok_iff] at h ⊢
    exact ⟨h.1.again, h.2⟩

/-- A file with a limit and a level. -/
def quietFile (path : String) : Except FileError String :=
  if path = "quiet.toml" then .ok "[parser]\nmax_input_length = 10\n[logging]\nlevel = 'off'\n"
  else .error .notFound

/-- An environment with another limit, another level and a text for folding. -/
def environment (fold name : String) : Option String :=
  [("DDLPARSER_MAX_INPUT_LENGTH", "+020"), ("DDLPARSER_LOG_LEVEL", "Debug"),
    ("DDLPARSER_FOLD_IDENTIFIERS", fold)].lookup name

/-- An invocation that names the file and turns folding on. -/
def foldingInvocation : Invocation := ⟨some "quiet.toml", none, true, .config⟩

/-- With folding turned off by its variable and on by its option, the limit and the level are those
of the environment and identifiers are folded. With another text for folding there is no
configuration. -/
theorem configuration_precedence_folding :
    (foldingInvocation.configuration quietFile (environment "false") =
        .ok ⟨⟨20, 128, true⟩, "Debug"⟩ ∧
      FromSources foldingInvocation (environment "false") ⟨⟨10, 128, false⟩, "off"⟩
        ⟨⟨20, 128, true⟩, "Debug"⟩) ∧
    ∃ failure, foldingInvocation.configuration quietFile (environment "1") = .error failure := by
  have hbase : foldingInvocation.base quietFile = .ok ⟨⟨10, 128, false⟩, "off"⟩ := by
    decide +kernel
  have hrun : foldingInvocation.configuration quietFile (environment "false") =
      .ok ⟨⟨20, 128, true⟩, "Debug"⟩ := by
    decide +kernel
  refine ⟨⟨hrun, ((configuration_precedence hbase).1 _ hrun).1⟩, ?_⟩
  refine (configuration_precedence hbase).2.1.mpr (.inr (.inr (.inl ⟨"1", rfl, ?_⟩)))
  rintro ⟨b, ⟨h, -⟩ | ⟨h, -⟩⟩
  · exact absurd h (by decide)
  · exact absurd h (by decide)

end CommandLine.Invocation

end SqlDdl
