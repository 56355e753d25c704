import SqlDdl.Configuration.Document
import SqlDdl.Proofs.Documents.Values
import SqlDdl.Proofs.Sources

/-!
# Saving a configuration

A configuration with limits of 64 bits and a plain level is written as a document that gives it
again: every part is written, none is taken from the standard one, and the level keeps its
spelling. So a saved configuration is loaded exactly if it is acceptable; if it is not, it is
refused with the error that it has itself.
-/

namespace SqlDdl

/-- A file holds what has been written to it. -/
theorem Directory.read_of_write {directory saved : Directory} {path text : String}
    (h : directory.write path text = .ok saved) : saved.read path = .ok text := by
  unfold write at h
  unfold read
  cases hfault : pathFault? path with
  | some cause =>
    rw [hfault] at h
    cases h
  | none =>
    rw [hfault] at h
    cases htarget : target path with
    | file name =>
      rw [htarget] at h
      unfold find? at h ⊢
      dsimp only at h ⊢
      by_cases hlong : 255 < name.utf8ByteSize
      · rw [if_pos hlong] at h
        cases h
      · rw [if_neg hlong] at h ⊢
        cases h
        simp only [List.lookup_cons_self]
    | _ =>
      rw [htarget] at h
      cases h

namespace Configuration

open Toml

/-- A configuration whose limits have a 64-bit representation and whose level needs no escape. -/
structure Storable (configuration : Configuration) : Prop where
  /-- The limit on length has 64 bits. -/
  length_lt : configuration.settings.maxInputLength < UInt64.size
  /-- The limit on nesting has 64 bits. -/
  depth_lt : configuration.settings.maxExpressionDepth < UInt64.size
  /-- No character of the level needs an escape. -/
  level : ∀ c ∈ configuration.logLevel.toList, isPlain c = true

/-- The name of a level consists of ASCII letters, which are plain. -/
theorem isPlain_of_isLevelName {level : String} (h : IsLevelName level) :
    ∀ c ∈ level.toList, isPlain c = true := by
  intro c hc
  have hcapitals : (levelNames.all fun name => name.toList.all Char.isUpper) = true := by decide
  have hmem : c.toUpper ∈ (Text.toUpperASCII level).toList := by
    rw [Text.toUpperASCII, String.toList_ofList]
    exact List.mem_map_of_mem hc
  have hname := List.all_eq_true.mp hcapitals _ h
  have hupper := List.all_eq_true.mp hname _ hmem
  exact isPlain_of_isAlpha (Lexeme.isAlpha_of_isUpper_toUpper hupper)

variable {configuration : Configuration}

/-- A number of 64 bits has 128 bits. -/
theorem lt_of_lt_size {n : Nat} (h : n < UInt64.size) : n < 2 ^ 128 := Nat.lt_trans h (by decide)

/-- The lines of a configuration. -/
def lines (configuration : Configuration) (h : configuration.Storable) : List Line :=
  [.header ⟨"parser", by decide, by decide⟩,
    .pair ⟨"max_input_length", by decide, by decide⟩
      (.number configuration.settings.maxInputLength (lt_of_lt_size h.length_lt)),
    .pair ⟨"max_expression_depth", by decide, by decide⟩
      (.number configuration.settings.maxExpressionDepth (lt_of_lt_size h.depth_lt)),
    .pair ⟨"fold_identifiers", by decide, by decide⟩
      (.truth configuration.settings.foldIdentifiers),
    .blank,
    .header ⟨"logging", by decide, by decide⟩,
    .pair ⟨"level", by decide, by decide⟩ (.plain configuration.logLevel h.level)]

/-- A configuration is written as its lines. -/
theorem toList_toDocument (h : configuration.Storable) :
    configuration.toDocument.toList = (configuration.lines h).flatMap Line.text := by
  have hparser : "[parser]\n".toList = '[' :: "parser".toList ++ [']', '\n'] := by simp
  have hlogging : "\n\n[logging]\n".toList =
      '\n' :: '\n' :: '[' :: "logging".toList ++ [']', '\n'] := by simp
  have hlength : "max_input_length = ".toList =
      "max_input_length".toList ++ [' ', '=', ' '] := by simp
  have hdepth : "max_expression_depth = ".toList =
      "max_expression_depth".toList ++ [' ', '=', ' '] := by simp
  have hfold : "fold_identifiers = ".toList =
      "fold_identifiers".toList ++ [' ', '=', ' '] := by simp
  have hlevel : "level = ".toList = "level".toList ++ [' ', '=', ' '] := by simp
  have hbreak : "\n".toList = ['\n'] := by simp
  unfold toDocument lines
  simp only [String.toList_append, hparser, hlogging, hlength, hdepth, hfold, hlevel, hbreak,
    List.flatMap_cons, List.flatMap_nil, Line.text, Written.text_number, Written.text_truth,
    Written.text_plain]
  simp only [List.cons_append, List.append_assoc, List.nil_append]

/-- The members of the document of a configuration. -/
def members (configuration : Configuration) : Members :=
  [("parser", .table .header [
      ("max_input_length", .integer (some configuration.settings.maxInputLength)),
      ("max_expression_depth", .integer (some configuration.settings.maxExpressionDepth)),
      ("fold_identifiers", .boolean configuration.settings.foldIdentifiers)]),
    ("logging", .table .header [("level", .string configuration.logLevel)])]

/-- The document of a configuration is read as its members. -/
theorem read?_toDocument (h : configuration.Storable) :
    read? configuration.toDocument = some configuration.members := by
  rw [read?_written (toList_toDocument h)]
  simp [lines, applyAll, Line.apply, openTable, descend, alter, insertPair, members]

/-- The members of the document of a configuration give all its parts. -/
theorem ofToml?_members (hlength : configuration.settings.maxInputLength < UInt64.size)
    (hdepth : configuration.settings.maxExpressionDepth < UInt64.size) :
    ofToml? configuration.members = some configuration := by
  simp [ofToml?, members, named?, membersEvaluate, Settings.ofToml?, levelOfToml?, fields?, natOr?,
    boolOr?, stringOr?, hlength, hdepth, List.lookup_cons]

/-- The document of a configuration gives that configuration if it is acceptable, and else its
error. -/
theorem ofDocument_toDocument (h : configuration.Storable) :
    ofDocument configuration.toDocument = configuration.validated := by
  rw [ofDocument, read?_toDocument h, Option.bind_some, ofToml?_members h.length_lt h.depth_lt]

/-- A saved configuration is loaded as validation has it: with all its parts or not at all. -/
theorem load_eq_validated {directory saved : Directory} {path : String} (h : configuration.Storable)
    (hsave : save directory path configuration = .ok saved) :
    load saved.read path = configuration.validated := by
  have hwrite : directory.write path configuration.toDocument = .ok saved := by
    unfold save at hsave
    split at hsave
    next written hw =>
      cases hsave
      exact hw
    next => cases hsave
  have hread := Directory.read_of_write hwrite
  rw [load, hread]
  exact ofDocument_toDocument h

/-- Of a configuration with a zero limit validation tells the limit. -/
theorem validated_of_zero (h : configuration.settings.maxInputLength = 0 ∨
      configuration.settings.maxExpressionDepth = 0) :
    ∃ error, (error = .zeroInputLength ∨ error = .zeroExpressionDepth) ∧
      configuration.validated = .error error := by
  by_cases hlength : configuration.settings.maxInputLength = 0
  · have hfault : configuration.fault? = some .zeroInputLength := if_pos hlength
    refine ⟨_, .inl rfl, ?_⟩
    rw [validated, hfault]
  · have hdepth := h.resolve_left hlength
    have hfault : configuration.fault? = some .zeroExpressionDepth := by
      rw [fault?, if_neg hlength, if_pos hdepth]
    refine ⟨_, .inr rfl, ?_⟩
    rw [validated, hfault]

/-- An acceptable configuration with limits of 64 bits is loaded from where it was saved as it was,
the spelling of its level included. One with a known level and a zero limit is refused there with
the error that validation has for it. -/
theorem load_of_save {directory saved : Directory} {path : String}
    (hlength : configuration.settings.maxInputLength < UInt64.size)
    (hdepth : configuration.settings.maxExpressionDepth < UInt64.size)
    (hsave : save directory path configuration = .ok saved) :
    (configuration.validated = .ok configuration →
      load saved.read path = .ok configuration) ∧
    (IsLevelName configuration.logLevel →
      configuration.settings.maxInputLength = 0 ∨ configuration.settings.maxExpressionDepth = 0 →
      ∃ error, (error = .zeroInputLength ∨ error = .zeroExpressionDepth) ∧
        configuration.validated = .error error ∧ load saved.read path = .error error) := by
  have hload (hlevel : IsLevelName configuration.logLevel) :
      load saved.read path = configuration.validated :=
    load_eq_validated ⟨hlength, hdepth, isPlain_of_isLevelName hlevel⟩ hsave
  constructor
  · intro hok
    have hlevel := (validated_eq_ok_iff.mp hok).1.level
    rw [hload hlevel, hok]
  · intro hlevel hzero
    obtain ⟨error, herror, hvalidated⟩ := validated_of_zero hzero
    exact ⟨error, herror, hvalidated, (hload hlevel).trans hvalidated⟩

/-- The greatest limit and a level in mixed case are loaded from a file as they were, and a zero
limit is refused. -/
theorem load_of_save_greatest :
    let kept : Configuration := ⟨⟨18446744073709551615, 1, true⟩, "dEbUg"⟩
    let refused : Configuration := ⟨⟨18446744073709551615, 0, true⟩, "dEbUg"⟩
    let saved (configuration : Configuration) : Directory :=
      ⟨[("a", .text configuration.toDocument)]⟩
    save ⟨[]⟩ "a" kept = .ok (saved kept) ∧ load (saved kept).read "a" = .ok kept ∧
      save ⟨[]⟩ "a" refused = .ok (saved refused) ∧
      load (saved refused).read "a" = .error .zeroExpressionDepth := by
  intro kept refused saved
  have hsplit : "a".splitOn "/" = ["a"] := by
    rw [String.splitOn, if_neg (by decide), String.splitOnAux, if_neg (by decide),
      if_neg (by decide), String.splitOnAux, if_pos (by decide)]
    decide +kernel
  have htarget : Directory.target "a" = .file "a" := by
    have hstart : ("a".isEmpty || "a".startsWith "/") = false := by decide +kernel
    have hend : "a".endsWith "/" = false := by decide +kernel
    rw [Directory.target, hsplit, hstart, hend]
    rfl
  have hsave (configuration : Configuration) :
      save ⟨[]⟩ "a" configuration = .ok (saved configuration) := by
    have hfault : Directory.pathFault? "a" = none := by decide
    rw [save, Directory.write, hfault, htarget]
    rfl
  have hlevel : IsLevelName "dEbUg" := by decide
  have hkept := (load_of_save (by decide) (by decide) (hsave kept)).1 (by decide)
  obtain ⟨error, -, hvalidated, hrefused⟩ :=
    (load_of_save (by decide) (by decide) (hsave refused)).2 hlevel (.inr rfl)
  have herror : refused.validated = .error .zeroExpressionDepth := rfl
  rw [hvalidated] at herror
  exact ⟨hsave kept, hkept, hsave refused, hrefused.trans herror⟩

end Configuration

end SqlDdl
