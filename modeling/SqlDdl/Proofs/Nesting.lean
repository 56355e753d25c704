import SqlDdl.Proofs.CutOff
import SqlDdl.Proofs.Laws
import SqlDdl.Proofs.Limits

/-!
# The limit of nesting is exact

A sentence is parsed within a limit of nesting exactly if each of its defaults, on its
own, nests no deeper. Else the parser stops at the first token at which an expression one
level behind the limit begins. Inside every level the count of begun expressions is
positive and within the limit, and every level leaves it as it found it, also where it
fails: to check this while an expression is read makes no difference to what is read. It
is this count that stops the parser at the limit: the levels over which the reading of
expressions recurs may be more than the limit without any difference.
-/

namespace SqlDdl

namespace Grammar

variable {α : Type} {settings : Settings} {count : Nat}

/-- However a reading ends, as many expressions are begun and not ended as before. -/
def Law.nesting : Law where
  begins _ := True
  gives s s' := s'.nesting = s.nesting
  fails s _ s' := s'.nesting = s.nesting
  stays _ := rfl
  begins_behind _ _ := trivial
  gives_behind hgives hmore := hmore.trans hgives
  fails_behind hgives hfails := hfails.trans hgives
  stalls hgives := hgives

/-- The count is left alone but by a level, which counts one more and one less again. -/
instance : Law.nesting.Lenient where
  begins _ := trivial
  moves _ _ _ := rfl
  refuses _ _ _ := rfl
  gives_level hgives := congrArg (· - 1) hgives
  fails_level hfails := congrArg (· - 1) hfails

/-- The same with so many expressions begun and not ended. -/
def Law.counting (count : Nat) : Law where
  begins s := s.nesting = count
  gives _ s' := s'.nesting = count
  fails _ _ s' := s'.nesting = count
  stays hcount := hcount
  begins_behind _ hgives := hgives
  gives_behind _ hmore := hmore
  fails_behind _ hfails := hfails
  stalls hgives := hgives

/-- A reading that keeps every count keeps a given one. -/
theorem Obeys.counting {p : Reading α} (h : Obeys .nesting p) : Obeys (.counting count) p :=
  h.mono (fun _ => trivial) (fun hs hgives => hgives.trans hs) fun hs hfails => hfails.trans hs

/-- What one level holds is the same if what it nests is. -/
theorem operand_agrees {inner inner' : Reading Expression}
    (h : Agrees (.counting count) inner inner') (hi : Obeys .nesting inner') :
    Agrees (.counting count) (operand settings inner) (operand settings inner') := by
  have hitems : Agrees (.counting count) (closedList inner .argumentSeparator)
      (closedList inner' .argumentSeparator) :=
    h.closedList hi.counting fun _ => (Obeys.afterItem .argumentSeparator nofun _).counting
  refine .bind_right .here fun start => .bind_right Obeys.next.counting fun token => ?_
  cases token with
  | keyword keyword => cases keyword <;> exact .refl _
  | minus => exact h.bind_left
  | leftParen => exact h.bind_left
  | word word =>
    refine .bind_right Obeys.rewind.counting fun _ => ?_
    refine .bind_right (Obeys.identifier .identifier nofun).counting fun name => ?_
    refine .bind_right (Obeys.consume .leftParen).counting fun _ => .ite ?_ (.refl _)
    refine .bind_left (.bind_right (Obeys.consume .rightParen).counting fun _ => ?_)
    exact .ite (.refl _) hitems
  | _ => exact .refl _

/-- Levels of their own are the same if what they hold is, with one more counted. -/
theorem nested_agrees {level level' : Reading Expression}
    (h : Agrees (.counting (count + 1)) level level') :
    Agrees (.counting count) (nested settings level) (nested settings level') := by
  intro s hs
  have hlevel := h { s with nesting := s.nesting + 1 } (congrArg (· + 1) hs)
  rw [nested, nested, hlevel]

/-- Where the levels last up to the limit, more of them change nothing. -/
theorem expressionWithin_agrees (levels more : Nat)
    (h : settings.maxExpressionDepth ≤ count + levels) :
    Agrees (.counting count) (expressionWithin settings (levels + more))
      (expressionWithin settings levels) := by
  induction levels generalizing count with
  | zero =>
    intro s hs
    cases more with
    | zero => rfl
    | succ more =>
      -- No level can be begun at the limit, whether there are more of them or not.
      have hlimit : ¬ s.nesting < settings.maxExpressionDepth := by
        rw [hs]
        exact Nat.not_lt_of_le h
      exact if_neg hlimit
  | succ levels ih =>
    rw [Nat.succ_add]
    exact nested_agrees (operand_agrees (ih (by omega)) (Obeys.expressionWithin levels))

/-- The levels only end the recursion: an expression is read the same with more of them, from
whatever state. -/
theorem expressionWithin_add (settings : Settings) (more : Nat) (s : State) :
    expressionWithin settings (settings.maxExpressionDepth + more) s = expression settings s :=
  expressionWithin_agrees settings.maxExpressionDepth more (Nat.le_add_left _ _) s rfl

/-- What a level holds, with the count of begun expressions checked: before it the count has to be
positive and within the limit, and behind it, also behind a failure, it has to be the same. Where
it is not, `broken` takes over. -/
def checked (settings : Settings) (broken level : Reading Expression) : Reading Expression :=
  fun s =>
    if 0 < s.nesting ∧ s.nesting ≤ settings.maxExpressionDepth then
      match level s with
      | .ok value s' => if s'.nesting = s.nesting then .ok value s' else broken s'
      | .error failure s' => if s'.nesting = s.nesting then .error failure s' else broken s'
    else broken s

/-- An expression within so many levels, with the count checked in each of them. -/
def checkedWithin (settings : Settings) (broken : Reading Expression) : Nat → Reading Expression
  | 0 => rejectDepth settings
  | levels + 1 =>
    nested settings (checked settings broken
      (operand settings (checkedWithin settings broken levels)))

/-- An expression, with the count checked in each of its levels. -/
def checkedExpression (settings : Settings) (broken : Reading Expression) : Reading Expression :=
  checkedWithin settings broken settings.maxExpressionDepth

/-- The checks of a level that keeps the count are met. -/
theorem nested_checked (broken : Reading Expression) {level : Reading Expression}
    (h : Obeys .nesting level) :
    nested settings (checked settings broken level) = nested settings level := by
  funext s
  rw [nested, nested]
  split
  next hs =>
    have hcount : 0 < s.nesting + 1 ∧ s.nesting + 1 ≤ settings.maxExpressionDepth :=
      ⟨Nat.succ_pos _, hs⟩
    have hchecked : checked settings broken level { s with nesting := s.nesting + 1 } =
        level { s with nesting := s.nesting + 1 } := by
      rw [checked, if_pos hcount]
      cases hl : level { s with nesting := s.nesting + 1 } with
      | ok value s' => exact if_pos (h.of_run trivial hl)
      | error failure s' => exact if_pos (h.of_run trivial hl)
    rw [hchecked]
  next => rfl

/-- All checks of the count are met on the way. -/
theorem checkedWithin_eq (settings : Settings) (broken : Reading Expression) (levels : Nat) :
    checkedWithin settings broken levels = expressionWithin settings levels := by
  induction levels with
  | zero => rfl
  | succ levels ih =>
    rw [checkedWithin, expressionWithin, ih]
    exact nested_checked broken (Obeys.expressionWithin levels).operand

end Grammar

namespace Session

variable {settings : Settings} {stream : TokenStream} {session : Session} {sentence : Sentence}

/-- A sentence with a default that is deeper than the limit is refused at the first token at which
an expression one level behind the limit begins. -/
theorem Reached.parse_of_tooDeep {semicolon : Bool} {limit : Nat}
    (hr : session.Reached settings stream) (hp : sentence.Admissible limit)
    (h : session.upcoming = sentence.tokens ++ endTokens semicolon)
    (hm : some (settings.maxExpressionDepth + 1) ∈ sentence.levels) :
    session.parse.1 = .error (.error (.expressionTooDeep settings.maxExpressionDepth
      (session.tokens.position (session.index +
        sentence.levels.idxOf (some (settings.maxExpressionDepth + 1)))))) := by
  obtain ⟨rest, hahead, -⟩ := session.ahead_eq_upcoming
  rw [h, List.append_assoc] at hahead
  obtain ⟨s', hs⟩ := (Grammar.statement_cutsOff sentence hr.nesting hp hm hahead).stops
  have hstatement : Grammar.statement session.settings session.state = _ :=
    (congrArg (Grammar.statement · session.state) hr.settings).trans hs
  rw [parse_of_error hstatement]
  rfl

/-- Where an admissible sentence stands before the next end of the input, a call gives the statement
that it means exactly if none of its defaults nests deeper than the limit, and the columns then have
what these defaults mean. Else the call fails at the first token at which an expression one level
behind the limit begins. The count of begun expressions is within the limit and positive in every
level, and each level leaves it as it was. -/
theorem parse_depthLimit {semicolon : Bool} {limit : Nat}
    (hr : session.Reached settings stream) (hp : sentence.Admissible limit)
    (h : session.upcoming = sentence.tokens ++ endTokens semicolon) :
    (session.parse.1 = .ok (sentence.meaning settings) ↔
      ∀ value ∈ sentence.defaults, value.depth ≤ settings.maxExpressionDepth) ∧
    (sentence.meaning settings).defaults = sentence.defaults.map (·.meaning settings) ∧
    sentence.levels.length = sentence.tokens.length ∧
    ((∃ value ∈ sentence.defaults, settings.maxExpressionDepth < value.depth) →
      some (settings.maxExpressionDepth + 1) ∈ sentence.levels ∧
      session.parse.1 = .error (.error (.expressionTooDeep settings.maxExpressionDepth
        (session.tokens.position (session.index +
          sentence.levels.idxOf (some (settings.maxExpressionDepth + 1))))))) ∧
    ∀ broken, Grammar.checkedExpression settings broken = Grammar.expression settings := by
  have hmarked := @Sentence.mem_levels_iff settings.maxExpressionDepth sentence
  refine ⟨⟨fun hok value hv => ?_, fun hall => ?_⟩, Sentence.defaults_meaning hp settings,
    sentence.length_levels, fun hdeep => ?_, fun broken => ?_⟩
  · refine Nat.le_of_not_lt fun hd => ?_
    have herror := hr.parse_of_tooDeep hp h (hmarked.mpr ⟨value, hv, hd⟩)
    cases hok.symm.trans herror
  · have hnone : some (settings.maxExpressionDepth + 1) ∉ sentence.levels := by
      intro hm
      obtain ⟨value, hv, hd⟩ := hmarked.mp hm
      exact absurd (hall value hv) (Nat.not_le_of_lt hd)
    exact hr.parse_of_written (hp.within hnone) h
  · have hm := hmarked.mpr hdeep
    exact ⟨hm, hr.parse_of_tooDeep hp h hm⟩
  · exact Grammar.checkedWithin_eq settings broken settings.maxExpressionDepth

/-- The default `-1` nests two levels: with room for both the table is parsed, and with room for one
the parser stops at the number. -/
theorem parse_depthLimit_negativeTable :
    SqlDdl.parse ⟨32, 2, false⟩ "CREATE TABLE u(c int DEFAULT -1)" =
      .ok (negativeTable.meaning ⟨32, 2, false⟩) ∧
    SqlDdl.parse ⟨32, 1, false⟩ "CREATE TABLE u(c int DEFAULT -1)" =
      .error (.error (.expressionTooDeep 1 ⟨1, 31, 30⟩)) := by
  have hp : negativeTable.Admissible 2 := by decide +kernel
  have hwritten : negativeStream.beforeEnd = negativeTable.tokens ++ endTokens false := by
    decide +kernel
  have hlength : ¬ 32 < "CREATE TABLE u(c int DEFAULT -1)".length := by decide
  constructor
  · rw [parse_of_scan hlength scan_negativeStream]
    exact (parse_depthLimit (reached_ofScan _ _ negativeStream) hp
      ((upcoming_ofScan _ scan_negativeStream).trans hwritten)).1.mpr (by decide +kernel)
  · have hdepth := parse_depthLimit (reached_ofScan ⟨32, 1, false⟩ _ negativeStream) hp
      ((upcoming_ofScan _ scan_negativeStream).trans hwritten)
    rw [parse_of_scan hlength scan_negativeStream, (hdepth.2.2.2.1 (by decide +kernel)).2,
      tokens_ofScan _ scan_negativeStream]
    rfl

end Session

end SqlDdl
