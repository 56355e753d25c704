import SqlDdl.Proofs.Scans
import SqlDdl.Proofs.Stops.Grammar

/-!
# Errors come in time

A parser is said to have the correct-prefix property if it reports an error at the
first token that cannot be read: what stands before that token begins a sentence. The
sentences here are those of the grammar alone. A clause that stands twice and an
expression that nests too deep are found only behind what the grammar allows, and they
are reported where the clause and the expression begin, so the property holds of these
errors too.
-/

namespace SqlDdl

variable {stream : TokenStream} {settings : Settings} {error : Error} {position : Position}
  {text : String}

/-- The token at which an error points stands where the error says. -/
theorem Error.PointsAt.position_eq {index : Nat} (h : error.PointsAt stream index)
    (hp : error.position? = some position) :
    stream.entries[index]?.map (·.position) = some position := by
  have hentry : ∀ token, stream.entries[index]? = some ⟨token, position⟩ →
      stream.entries[index]?.map (·.position) = some position := fun token he => by
    rw [he]
    rfl
  cases error with
  | expected expectation found place =>
    cases hp
    exact hentry found h
  | duplicateClause clause place =>
    cases hp
    obtain ⟨token, he⟩ := h
    exact hentry token he
  | expressionTooDeep limit place =>
    cases hp
    obtain ⟨token, he⟩ := h
    exact hentry token he
  | unsupported construct => cases hp
  | unexpectedCharacter character place => exact h.elim
  | unterminated enclosure place => exact h.elim
  | inputTooLarge length limit => exact h.elim

/-- At most one token of a scanned text has a given place. -/
theorem TokenStream.index_unique_of_scan (h : scan text = .ok stream) {index other : Nat}
    (hi : stream.entries[index]?.map (·.position) = some position)
    (ho : stream.entries[other]?.map (·.position) = some position) : other = index := by
  have hnodup : (stream.entries.toList.map (·.position)).Nodup :=
    List.pairwise_map.mpr ((pairwise_of_scan h).imp fun hlt he => by
      rw [he] at hlt
      exact Nat.lt_irrefl _ hlt)
  have hplace : ∀ k : Nat, (stream.entries.toList.map (·.position))[k]? =
      stream.entries[k]?.map (·.position) := fun k => by
    rw [List.getElem?_map, Array.getElem?_toList]
  rw [← hplace] at hi ho
  have hlt := (List.getElem?_eq_some_iff.mp ho).choose
  exact (List.getElem?_inj hlt hnodup).mp (ho.trans hi.symm)

/-- An error with a place that a scanned text is refused with is an error of the grammar. -/
theorem statement_error_of_parse (hscan : TokenStream.scan text = .ok stream)
    (h : parse settings text = .error (.error error)) (hp : error.position? = some position) :
    ∃ s', Grammar.statement settings
      ⟨.ofStream stream, [.scanned text.length stream.size], 0⟩ = .error (.error error) s' := by
  rw [parse, parseWithEvents, Session.ofText] at h
  by_cases hlimit : settings.maxInputLength < text.length
  · rw [if_pos hlimit] at h
    cases h
    cases hp
  · rw [if_neg hlimit, hscan] at h
    dsimp only at h
    rw [Session.parse] at h
    split at h
    next => cases h
    next failure s' hs =>
      cases h
      exact ⟨s', hs⟩

/-- Errors are not reported too late: an error with a place points at exactly one token of the
text, and the tokens before that one begin a sentence, with a semicolon behind it or without. The
sentence need not keep to the rules on what may not repeat and on depth. -/
theorem correctPrefix_of_parse (hscan : TokenStream.scan text = .ok stream)
    (h : parse settings text = .error (.error error)) (hp : error.position? = some position) :
    ∃ index : Nat, (∀ k : Nat, stream.entries[k]?.map (·.position) = some position ↔ k = index) ∧
      ∃ (sentence : Sentence) (semicolon : Bool),
        stream.tokens.take index <+: sentence.tokens ++ endTokens semicolon := by
  obtain ⟨s', hs⟩ := statement_error_of_parse hscan h hp
  have hstream : (Cursor.ofStream stream).stream = stream :=
    (Cursor.stream_ofStream stream).trans (if_pos (TokenStream.getLast?_of_scan hscan))
  have hindex : (Cursor.ofStream stream).index = 0 := rfl
  obtain ⟨ts, ⟨hahead, hpoints⟩, rest, ⟨sentence, semicolon⟩, hspelled⟩ :=
    Grammar.statement_stops _ _ _ (Cursor.closed_ofStream stream) hs
  dsimp only at hahead hpoints hspelled
  rw [Cursor.ahead, hstream, hindex, List.drop_zero] at hahead
  rw [hstream, hindex, Nat.zero_add] at hpoints
  have hplace := hpoints.position_eq hp
  refine ⟨ts.length, fun k => ⟨TokenStream.index_unique_of_scan hscan hplace, ?_⟩, sentence,
    semicolon, ?_⟩
  · rintro rfl
    exact hplace
  · rw [← List.prefix_iff_eq_take.mp hahead, hspelled]
    exact List.prefix_append ts rest

/-- The tokens of `DROP;`. -/
def openRemoval : TokenStream :=
  ⟨#[⟨.keyword .drop, .start⟩, ⟨.semicolon, ⟨1, 5, 4⟩⟩, ⟨.eof, ⟨1, 6, 5⟩⟩]⟩

/-- A removal that breaks off is refused at the semicolon, and `DROP` begins a sentence. -/
theorem correctPrefix_of_openRemoval :
    ∃ index : Nat,
      (∀ k : Nat, openRemoval.entries[k]?.map (·.position) = some ⟨1, 5, 4⟩ ↔ k = index) ∧
      ∃ (sentence : Sentence) (semicolon : Bool),
        openRemoval.tokens.take index <+: sentence.tokens ++ endTokens semicolon := by
  have hdrop : Source.skipLayout (.ofText "DROP;") =
      .ok ⟨'D' :: ['R', 'O', 'P', ';'], .start⟩ :=
    Source.skipLayoutFrom_stop rfl
  have hword : Lexeme.ofChars 'D' ['R', 'O', 'P', ';'] =
      .ok ⟨.keyword .drop, ['D', 'R', 'O', 'P'], [';']⟩ :=
    rfl
  have hsemicolon : Source.skipLayout ⟨[';'], Position.start.afterAll ['D', 'R', 'O', 'P']⟩ =
      .ok ⟨[';'], ⟨1, 5, 4⟩⟩ :=
    Source.skipLayoutFrom_stop rfl
  have hsymbol : Lexeme.ofChars ';' [] = .ok ⟨.semicolon, [';'], []⟩ := rfl
  have hend : Source.skipLayout ⟨[], Position.afterAll ⟨1, 5, 4⟩ [';']⟩ = .ok ⟨[], ⟨1, 6, 5⟩⟩ :=
    Source.skipLayoutFrom_stop rfl
  have hscan : TokenStream.scan "DROP;" = .ok openRemoval :=
    (TokenStream.scanFrom_lexeme hdrop rfl hword).trans
      ((TokenStream.scanFrom_lexeme hsemicolon rfl hsymbol).trans
        (TokenStream.scanFrom_end hend rfl))
  have hparse : parse .standard "DROP;" =
      .error (.error (.expected .afterDrop .semicolon ⟨1, 5, 4⟩)) := by
    have hlimit : ¬ Settings.standard.maxInputLength < "DROP;".length := by decide
    rw [parse, parseWithEvents, Session.ofText, if_neg hlimit, hscan]
    rfl
  exact correctPrefix_of_parse hscan hparse rfl

end SqlDdl
