import SqlDdl.Proofs.Levels
import SqlDdl.Proofs.Statements

/-!
# Where the limit of nesting cuts off

The tokens of a sentence are marked with levels. A reading that comes to an expression
one level behind the limit stops there, before its first token is read, so it stops at
the first token that has this level as its mark. Every part of the grammar is followed
up to that token: what stands before it has no such mark and is read as it is written.
-/

namespace SqlDdl.Grammar

open ExpressionPhrase

variable {α β : Type} {limit : Nat} {s s₁ : State} {ts rest : List Token}
  {front marks : List (Option Nat)}

/-- From a state a reading stops at the limit of nesting, at the first of the tokens ahead that is
marked with the level behind the limit. -/
structure CutsOff (limit : Nat) (p : Reading α) (s : State) (marks : List (Option Nat)) :
    Prop where
  /-- Some token has the mark of the level behind the limit. -/
  marked : some (limit + 1) ∈ marks
  /-- The error is the limit, at the first token with that mark. -/
  stops : ∃ s', p s = .error (.error (.expressionTooDeep limit
    (s.cursor.stream.position (s.cursor.index + marks.idxOf (some (limit + 1)))))) s'

namespace CutsOff

/-- Marks behind the token at which a reading stops make no difference. -/
theorem append {p : Reading α} (h : CutsOff limit p s marks) (behind : List (Option Nat)) :
    CutsOff limit p s (marks ++ behind) where
  marked := List.mem_append_left _ h.marked
  stops := by
    rw [List.idxOf_append_of_mem h.marked]
    exact h.stops

/-- A sequence is cut off in its first part. -/
theorem bind {x : Reading α} {f : α → Reading β} (h : CutsOff limit x s marks) :
    CutsOff limit (x >>= f) s marks where
  marked := h.marked
  stops := by
    obtain ⟨s', hs⟩ := h.stops
    exact ⟨s', run_bind_error hs⟩

/-- A reading that passes over tokens without such a mark is cut off where the rest of it is. -/
theorem behind {p q : Reading α} (h : CutsOff limit q s₁ marks) (hrun : p s = q s₁)
    (hpass : s.cursor.Passes ts s₁.cursor) (hlength : front.length = ts.length)
    (hfront : some (limit + 1) ∉ front) : CutsOff limit p s (front ++ marks) where
  marked := List.mem_append_right _ h.marked
  stops := by
    obtain ⟨s', hs⟩ := h.stops
    refine ⟨s', ?_⟩
    rw [hrun, hs, hpass.stream, hpass.index, List.idxOf_append_of_notMem hfront, hlength,
      Nat.add_assoc]

/-- A reading that goes on as another one from the same state is cut off where that one is. -/
theorem of_run {p q : Reading α} (h : CutsOff limit q s marks) (hrun : p s = q s) :
    CutsOff limit p s marks :=
  h.behind hrun (.refl _) (show [].length = _ from rfl) List.not_mem_nil

/-- A sequence is cut off behind a first part that is read and holds no expression. -/
theorem afterRead {x : Reading α} {f : α → Reading β} {a : α} (hx : Reads x s ts rest a)
    (h : ∀ s₁ : State, s₁.nesting = s.nesting → s₁.cursor.ahead = rest →
      CutsOff limit (f a) s₁ marks) : CutsOff limit (x >>= f) s (unmarked ts ++ marks) := by
  obtain ⟨s₁, hx, h₁, ha⟩ := hx
  exact (h s₁ h₁.nesting ha).behind (run_bind hx) h₁.toPasses (length_unmarked ts)
    (notMem_unmarked _ ts)

/-- A level of its own is cut off where what it holds is, one level deeper. -/
theorem nested {settings : Settings} {level : Reading Expression}
    (hs : s.nesting < settings.maxExpressionDepth)
    (h : CutsOff limit level { s with nesting := s.nesting + 1 } marks) :
    CutsOff limit (Grammar.nested settings level) s marks where
  marked := h.marked
  stops := by
    obtain ⟨s', hs'⟩ := h.stops
    refine ⟨{ s' with nesting := s'.nesting - 1 }, ?_⟩
    rw [Grammar.nested, if_pos hs, hs']

/-- A repetition is cut off in its first step. -/
theorem repeatStep {step : α → Reading (α ⊕ β)} {a : α} (h : CutsOff limit (step a) s marks) :
    CutsOff limit (Grammar.repeatStep step a) s marks where
  marked := h.marked
  stops := by
    obtain ⟨s', hs⟩ := h.stops
    exact ⟨s', repeatStep_failed hs⟩

/-- A repetition is cut off behind a step that read something. -/
theorem again {step : α → Reading (α ⊕ β)} {a a' : α} (hstep : Reads (step a) s ts rest (.inl a'))
    (ht : ts ≠ []) (hlength : front.length = ts.length) (hfront : some (limit + 1) ∉ front)
    (h : ∀ s₁ : State, s₁.nesting = s.nesting → s₁.cursor.ahead = rest →
      CutsOff limit (Grammar.repeatStep step a') s₁ marks) :
    CutsOff limit (Grammar.repeatStep step a) s (front ++ marks) := by
  obtain ⟨s₁, hs, h₁, ha⟩ := hstep
  exact (h s₁ h₁.nesting ha).behind (repeatStep_inl hs (h₁.remaining_lt ht)) h₁.toPasses hlength
    hfront

end CutsOff

/-- An item of a list where so many expressions have been begun: followed by a comma or a closing
parenthesis it is read if the level behind the limit is not marked in it, and cut off if it is. -/
structure LimitedItem (limit count : Nat) (item : Reading α) (tokens : List Token)
    (levels : List (Option Nat)) (a : α) : Prop where
  /-- Every token has its mark. -/
  length : levels.length = tokens.length
  /-- Without the mark of the level behind the limit the item is read. -/
  reads : some (limit + 1) ∉ levels → ∀ {s : State} {rest : List Token}, s.nesting = count →
    rest.headD .eof = .comma ∨ rest.headD .eof = .rightParen →
    s.cursor.ahead = tokens ++ rest → Reads item s tokens rest a
  /-- With that mark the item is cut off where it first stands. -/
  cutsOff : some (limit + 1) ∈ levels → ∀ {s : State} {rest : List Token}, s.nesting = count →
    rest.headD .eof = .comma ∨ rest.headD .eof = .rightParen →
    s.cursor.ahead = tokens ++ rest → CutsOff limit item s levels

section Lists

variable {Phrase : Type} {tokens : Phrase → List Token} {meaning : Phrase → α}
  {levels : Phrase → List (Option Nat)} {item : Reading α} {count : Nat}

/-- The items up to the closing parenthesis are cut off in the first one that has the mark. -/
theorem closedStep_cutsOff (expectation : Expectation) {first : Phrase} {others : List Phrase}
    (hitem : ∀ phrase ∈ first :: others,
      LimitedItem limit count item (tokens phrase) (levels phrase) (meaning phrase))
    (found : List α) (hs : s.nesting = count)
    (hm : some (limit + 1) ∈ joinedMarks ((first :: others).map levels))
    (h : s.cursor.ahead =
      joined .comma ((first :: others).map tokens) ++ .rightParen :: rest) :
    CutsOff limit (repeatStep (closedStep item expectation) found) s
      (joinedMarks ((first :: others).map levels)) := by
  have hfirst := hitem first List.mem_cons_self
  induction others generalizing s first found with
  | nil =>
    rw [List.map_singleton, joinedMarks, List.flatMap_nil, List.append_nil] at hm ⊢
    rw [List.map_singleton, joined, List.flatMap_nil, List.append_nil] at h
    exact (hfirst.cutsOff hm hs (.inr rfl) h).bind.repeatStep
  | cons second others ih =>
    rw [List.map_cons, List.map_cons, joined_cons_cons, List.append_assoc] at h
    rw [List.map_cons, List.map_cons, joinedMarks_cons_cons] at hm ⊢
    -- Either this item has the mark, or it is read and the mark is in a later one.
    by_cases hmark : some (limit + 1) ∈ levels first
    · exact (hfirst.cutsOff hmark hs (.inl rfl) h).bind.repeatStep.append _
    · have hstep := closedStep_goesOn expectation found (hfirst.reads hmark hs (.inl rfl) h)
      have hne : tokens first ++ [.comma] ≠ [] :=
        List.append_ne_nil_of_right_ne_nil _ (List.cons_ne_nil _ _)
      have hfront : some (limit + 1) ∉ levels first ++ [none] := by
        simpa only [List.mem_append, List.mem_singleton, reduceCtorEq, or_false] using hmark
      have hlength : (levels first ++ [none]).length = (tokens first ++ [Token.comma]).length := by
        rw [List.length_append, List.length_append, hfirst.length]
        rfl
      have hothers : some (limit + 1) ∈ joinedMarks (levels second :: others.map levels) := by
        simpa only [List.mem_append, List.mem_cons, reduceCtorEq, hmark, false_or] using hm
      have hbehind := List.forall_mem_cons.mp hitem
      have hall := CutsOff.again hstep hne hlength hfront fun s₁ hn ha =>
        ih hbehind.2 (meaning first :: found) (hn.trans hs) hothers ha
          (hbehind.2 second List.mem_cons_self)
      rw [List.append_assoc] at hall
      exact hall

/-- A list behind an opening parenthesis is cut off in the first item that has the mark. -/
theorem listRest_cutsOff (expectation : Expectation) {phrases : List Phrase}
    (hitem : ∀ phrase ∈ phrases,
      LimitedItem limit count item (tokens phrase) (levels phrase) (meaning phrase))
    (hfirst : ∀ phrase rest, (tokens phrase ++ rest).headD .eof ≠ .rightParen)
    (hs : s.nesting = count) (hm : some (limit + 1) ∈ joinedMarks (phrases.map levels))
    (h : s.cursor.ahead = joined .comma (phrases.map tokens) ++ .rightParen :: rest) :
    CutsOff limit (listRest item expectation) s (joinedMarks (phrases.map levels)) := by
  cases phrases with
  | nil => cases hm
  | cons first others =>
    have hp : s.cursor.peek ≠ .rightParen := by
      rw [peek_eq_headD h, List.map_cons, joined, List.append_assoc]
      exact hfirst first _
    have hlist := closedStep_cutsOff expectation hitem [] hs hm h
    exact hlist.of_run (run_bind (consume_miss hp))

end Lists

variable {settings : Settings}

/-- How the expressions one level below a state are read by `inner`: within the levels left they are
read, and deeper ones are cut off. -/
structure LimitedInner (settings : Settings) (limit levels : Nat) (inner : Reading Expression)
    (s : State) : Prop where
  /-- The levels begun and the levels left make up the limit. -/
  count : s.nesting + levels = limit
  /-- What nests within the levels left is read. -/
  reads : ∀ (phrase : ExpressionPhrase) {s₁ : State} {rest : List Token},
    s₁.nesting = s.nesting → phrase.depth ≤ levels → rest.headD .eof ≠ .leftParen →
    s₁.cursor.ahead = phrase.tokens ++ rest →
    Reads inner s₁ phrase.tokens rest (phrase.meaning settings)
  /-- What nests deeper is cut off at the level behind the limit. -/
  cutsOff : ∀ (phrase : ExpressionPhrase) {s₁ : State} {rest : List Token},
    s₁.nesting = s.nesting → levels < phrase.depth → rest.headD .eof ≠ .leftParen →
    s₁.cursor.ahead = phrase.tokens ++ rest →
    CutsOff limit inner s₁ (phrase.levels (s.nesting + 1))

variable {inner : Reading Expression} {levels : Nat}

/-- The level behind the limit is marked in what is one level below a state if that nests deeper
than the levels left. -/
theorem LimitedInner.mem_levels_iff (hinner : LimitedInner settings limit levels inner s)
    (phrase : ExpressionPhrase) :
    some (limit + 1) ∈ phrase.levels (s.nesting + 1) ↔ levels < phrase.depth := by
  have hs := hinner.count
  rw [ExpressionPhrase.mem_levels_iff]
  omega

/-- An expression one level below a state is an item of a list that is read or cut off. -/
theorem LimitedInner.item (hinner : LimitedInner settings limit levels inner s)
    (phrase : ExpressionPhrase) :
    LimitedItem limit s.nesting inner phrase.tokens (phrase.levels (s.nesting + 1))
      (phrase.meaning settings) := by
  have hfollowed : ∀ {rest : List Token}, rest.headD .eof = .comma ∨
      rest.headD .eof = .rightParen → rest.headD .eof ≠ .leftParen := by
    rintro rest (hf | hf) <;> rw [hf] <;> decide
  refine ⟨phrase.length_levels _, fun hm _ _ hs hf ha => ?_, fun hm _ _ hs hf ha => ?_⟩
  · have hwithin := Nat.le_of_not_lt ((hinner.mem_levels_iff phrase).not.mp hm)
    exact hinner.reads phrase hs hwithin (hfollowed hf) ha
  · exact hinner.cutsOff phrase hs ((hinner.mem_levels_iff phrase).mp hm) (hfollowed hf) ha

/-- Arguments are cut off if the deepest of them nests deeper than the levels left. -/
theorem arguments_cutsOff (hinner : LimitedInner settings limit levels inner s)
    {phrases : List ExpressionPhrase} (hd : levels < deepest phrases)
    (hs : s₁.nesting = s.nesting)
    (h : s₁.cursor.ahead = joined .comma (phrases.map ExpressionPhrase.tokens) ++
      .rightParen :: rest) :
    CutsOff limit (arguments inner) s₁
      (joinedMarks (levelsOfEach (s.nesting + 1) phrases)) := by
  have hcount := hinner.count
  have hmarked : some (limit + 1) ∈ joinedMarks (levelsOfEach (s.nesting + 1) phrases) := by
    rw [mem_joinedMarks, mem_levelsOfEach_iff]
    omega
  rw [levelsOfEach_eq_map] at hmarked ⊢
  rw [arguments_eq]
  exact listRest_cutsOff .argumentSeparator (fun phrase _ => hinner.item phrase)
    headD_tokens_ne_rightParen hs hmarked h

/-- One level of an expression is cut off where what it nests is, if that nests deeper than the
levels left. -/
theorem operand_cutsOff (hinner : LimitedInner settings limit levels inner s)
    (phrase : ExpressionPhrase) (hd : levels + 1 < phrase.depth)
    (hr : rest.headD .eof ≠ .leftParen) (h : s.cursor.ahead = phrase.tokens ++ rest) :
    CutsOff limit (operand settings inner) s (phrase.levels s.nesting) := by
  have hown : some (limit + 1) ≠ some s.nesting := by
    have hs := hinner.count
    intro he
    injection he
    omega
  -- The first token has the mark of the level itself, so the mark is in what the level holds.
  cases phrase with
  | literal constant => cases hd with | step hd => cases hd
  | identifier name => cases hd with | step hd => cases hd
  | call name phrases =>
    rw [ExpressionPhrase.tokens, tokensOfEach_eq_map, List.append_assoc, List.append_assoc] at h
    obtain ⟨s₁, hb, ⟨s₂, hi, h₂, ha₂⟩, h₁⟩ := rewind_identifier_reads settings
      .identifier name h
    obtain ⟨s₃, hp, h₃, ha₃⟩ := consume_reads ha₂ (by decide)
    have hpass := h₁.trans (h₂.trans h₃)
    have harguments := arguments_cutsOff hinner (Nat.lt_of_succ_lt_succ hd) hpass.nesting ha₃
    have hrun : operand settings inner s = (arguments inner >>= fun values =>
        pure (.call (name.meaning settings) values)) s₃ := by
      rw [operand, run_here, run_bind (run_next (show _ = Token.word name.word :: _ from h))]
      dsimp only
      rw [Retreat.back_eq, run_bind hb, run_bind hi, run_bind hp]
      simp only [if_true]
    have hfront : some (limit + 1) ∉ [some s.nesting, none] := by
      simpa only [List.mem_cons, reduceCtorEq, List.not_mem_nil, or_false] using hown
    exact (harguments.bind.behind hrun hpass.toPasses rfl hfront).append [none]
  | negate phrase =>
    obtain ⟨s₁, hn, h₁, ha₁⟩ := next_reads h (by decide)
    have hcut := hinner.cutsOff phrase h₁.nesting (Nat.lt_of_succ_lt_succ hd) hr ha₁
    have hfront : some (limit + 1) ∉ [some s.nesting] := List.mem_singleton.not.mpr hown
    have hrun : operand settings inner s =
        (inner >>= fun value => pure (.negate value)) s₁ := by
      rw [operand, run_here, run_bind hn]
    exact hcut.bind.behind hrun h₁.toPasses rfl hfront
  | group phrase =>
    rw [ExpressionPhrase.tokens, List.append_assoc] at h
    obtain ⟨s₁, hn, h₁, ha₁⟩ := next_reads h (by decide)
    have hcut := hinner.cutsOff phrase h₁.nesting (Nat.lt_of_succ_lt_succ hd) (by rintro ⟨⟩) ha₁
    have hfront : some (limit + 1) ∉ [some s.nesting] := List.mem_singleton.not.mpr hown
    have hrun : operand settings inner s =
        (inner >>= fun value => require .rightParen >>= fun _ => pure value) s₁ := by
      rw [operand, run_here, run_bind hn]
    exact (hcut.bind.behind hrun h₁.toPasses rfl hfront).append [none]

/-- An expression that nests deeper than the levels left is cut off at the first token that stands
one level behind the limit. -/
theorem expressionWithin_cutsOff (levels : Nat) (phrase : ExpressionPhrase)
    (hs : s.nesting + levels = settings.maxExpressionDepth) (hd : levels < phrase.depth)
    (hr : rest.headD .eof ≠ .leftParen) (h : s.cursor.ahead = phrase.tokens ++ rest) :
    CutsOff settings.maxExpressionDepth (expressionWithin settings levels) s
      (phrase.levels (s.nesting + 1)) := by
  induction levels generalizing s phrase rest with
  | zero =>
    -- No level is left, so the count is at the limit and the expression stands one level behind.
    obtain ⟨others, hlevels⟩ := phrase.levels_eq_cons (s.nesting + 1)
    rw [Nat.add_zero] at hs
    rw [hlevels, hs]
    refine ⟨List.mem_cons_self, s, ?_⟩
    rw [List.idxOf_cons_self, Nat.add_zero]
    rfl
  | succ levels ih =>
    have hlevel : s.nesting < settings.maxExpressionDepth := by omega
    have hinner : LimitedInner settings settings.maxExpressionDepth levels
        (expressionWithin settings levels) { s with nesting := s.nesting + 1 } := by
      refine ⟨?_, fun phrase s₁ rest hn hd hr h => ?_, fun phrase s₁ rest hn hd hr h => ?_⟩
      · change s.nesting + 1 + levels = _
        omega
      · have hs₁ : s₁.nesting = s.nesting + 1 := hn
        exact expressionWithin_reads levels phrase (by omega) hd hr h
      · have hs₁ : s₁.nesting = s.nesting + 1 := hn
        have hcut := ih phrase (by omega) hd hr h
        rw [hs₁] at hcut
        exact hcut
    exact CutsOff.nested hlevel (operand_cutsOff hinner phrase hd hr h)

/-- An expression that is deeper than the limit is cut off, if no other expression has been
begun. -/
theorem expression_cutsOff (settings : Settings) (phrase : ExpressionPhrase) (hs : s.nesting = 0)
    (hd : settings.maxExpressionDepth < phrase.depth) (hr : rest.headD .eof ≠ .leftParen)
    (h : s.cursor.ahead = phrase.tokens ++ rest) :
    CutsOff settings.maxExpressionDepth (expression settings) s (phrase.levels 1) := by
  have hlevels : s.nesting + settings.maxExpressionDepth = settings.maxExpressionDepth := by
    rw [hs, Nat.zero_add]
  have hcut := expressionWithin_cutsOff settings.maxExpressionDepth phrase hlevels hd hr h
  rw [hs] at hcut
  exact hcut

/-- A default that is deeper than the limit is cut off where it stands, if a token that ends a part
follows it. -/
theorem columnOption_cutsOff (phrase : NamedOptionPhrase) (hs : s.nesting = 0)
    (hm : some (settings.maxExpressionDepth + 1) ∈ phrase.levels)
    (hr : endsPart (rest.headD .eof) = true) (h : s.cursor.ahead = phrase.tokens ++ rest) :
    CutsOff settings.maxExpressionDepth (columnOption settings) s phrase.levels := by
  rcases phrase with ⟨name, option⟩
  rw [NamedOptionPhrase.tokens, List.append_assoc] at h
  obtain ⟨value, hv, hd⟩ := (NamedOptionPhrase.mem_levels_iff _).trans
    option.mem_levels_iff |>.mp hm
  cases option <;> cases hv
  refine CutsOff.afterRead (constraintName?_reads settings name (by rintro ⟨⟩) h)
    fun s₁ hn₁ ha₁ => ?_
  refine CutsOff.afterRead (next_reads ha₁ (by decide)) fun s₂ hn₂ ha₂ => ?_
  have hs₂ : s₂.nesting = 0 := hn₂.trans (hn₁.trans hs)
  exact (expression_cutsOff settings value hs₂ hd (ne_of_endsPart hr rfl) ha₂).bind

/-- A step to an option with a default that is deeper than the limit is cut off. -/
theorem columnStep_cutsOff (phrase : NamedOptionPhrase) (found : List NamedOption)
    (hs : s.nesting = 0) (hm : some (settings.maxExpressionDepth + 1) ∈ phrase.levels)
    (hr : endsPart (rest.headD .eof) = true) (h : s.cursor.ahead = phrase.tokens ++ rest) :
    CutsOff settings.maxExpressionDepth (columnStep settings found) s phrase.levels :=
  (columnOption_cutsOff phrase hs hm hr h).bind.of_run (columnStep_atOption phrase found h)

/-- Options with at most one default are cut off in it, if it is deeper than the limit. -/
theorem columnOptions_cutsOff {higher : Nat} (phrases : List NamedOptionPhrase)
    (found : List NamedOption) (hs : s.nesting = 0)
    (hp : ∀ phrase ∈ phrases, phrase.option.Admissible higher)
    (hone : (phrases.filterMap (·.option.default?)).length + (anyDefault found).toNat ≤ 1)
    (hm : some (settings.maxExpressionDepth + 1) ∈ phrases.flatMap NamedOptionPhrase.levels)
    (hend : endsColumn (rest.headD .eof) = true)
    (h : s.cursor.ahead = phrases.flatMap NamedOptionPhrase.tokens ++ rest) :
    CutsOff settings.maxExpressionDepth (repeatStep (columnStep settings) found) s
      (phrases.flatMap NamedOptionPhrase.levels) := by
  induction phrases generalizing s found with
  | nil => cases hm
  | cons phrase phrases ih =>
    rw [List.flatMap_cons, List.append_assoc] at h
    rw [List.flatMap_cons] at hm ⊢
    obtain ⟨hg, hp⟩ := List.forall_mem_cons.mp hp
    obtain ⟨hd, hone⟩ := (oneDefault_cons_iff phrase phrases found).mp hone
    have hfollowed := (first_of_options phrases hend).1
    by_cases hfirst : some (settings.maxExpressionDepth + 1) ∈ phrase.levels
    · exact (columnStep_cutsOff phrase found hs hfirst hfollowed h).repeatStep.append _
    · have hwithin := hg.within (phrase.mem_levels_iff.not.mp hfirst)
      have hstep := columnStep_reads phrase found hs hwithin hd hfollowed h
      have hothers := (List.mem_append.mp hm).resolve_left hfirst
      exact CutsOff.again hstep phrase.tokens_ne_nil phrase.length_levels hfirst
        fun s₁ hn ha => ih _ (hn.trans hs) hp hone hothers ha

/-- The marks of a column are those of its options, behind as many as the rest of it has tokens. -/
theorem levels_plain (phrase : ColumnPhrase) :
    unmarked phrase.plain.tokens ++ phrase.options.flatMap NamedOptionPhrase.levels =
      phrase.levels := by
  simp only [ColumnPhrase.levels, ColumnPhrase.plain, ColumnPhrase.tokens, unmarked,
    List.map_append, List.flatMap_nil, List.append_nil, List.append_assoc]

/-- A column is cut off in its default, if that is deeper than the limit. -/
theorem columnEntry_cutsOff {higher : Nat} (phrase : ColumnPhrase) (hs : s.nesting = 0)
    (hp : phrase.Admissible higher)
    (hm : some (settings.maxExpressionDepth + 1) ∈ phrase.levels)
    (hend : endsColumn (rest.headD .eof) = true)
    (h : s.cursor.ahead = phrase.tokens ++ rest) :
    CutsOff settings.maxExpressionDepth (columnEntry settings) s phrase.levels := by
  have hoptions : some (settings.maxExpressionDepth + 1) ∈
      phrase.options.flatMap NamedOptionPhrase.levels :=
    List.mem_flatMap.mpr (phrase.mem_levels_iff_options.mp hm)
  obtain ⟨s₁, hrun, h₁, ha₁⟩ := columnEntry_upToOptions settings phrase hend h
  have hcut := columnOptions_cutsOff phrase.options [] (h₁.nesting.trans hs) hp.options
    hp.oneDefault hoptions hend ha₁
  rw [← levels_plain phrase]
  exact hcut.bind.behind hrun h₁.toPasses (length_unmarked _) (notMem_unmarked _ _)

/-- An entry of a table is cut off in its default, if that is deeper than the limit. -/
theorem tableEntry_cutsOff {higher : Nat} (phrase : EntryPhrase) (hs : s.nesting = 0)
    (hp : phrase.Admissible higher)
    (hm : some (settings.maxExpressionDepth + 1) ∈ phrase.levels)
    (hend : rest.headD .eof = .comma ∨ rest.headD .eof = .rightParen)
    (h : s.cursor.ahead = phrase.tokens ++ rest) :
    CutsOff settings.maxExpressionDepth (tableEntry settings) s phrase.levels := by
  cases phrase with
  | column phrase =>
    have ha : s.cursor.ahead = phrase.tokens ++ rest := h
    change CutsOff _ _ s (unmarked [] ++ phrase.levels)
    refine CutsOff.afterRead (tableConstraint_reads_word settings ha) fun s₁ hn₁ ha₁ => ?_
    have hpeek : peek s₁ = .ok (.word phrase.name.word) s₁ := run_peek ha₁
    have hcolumn := columnEntry_cutsOff phrase (hn₁.trans hs) hp hm
      (endsColumn_of_closes hend) ha₁
    exact hcolumn.bind.of_run (run_bind hpeek)
  | constraint name phrase attributes => exact absurd hm (notMem_unmarked _ _)
  | null name => exact absurd hm (notMem_unmarked _ _)

/-- The entries of a table are cut off in the first default that is deeper than the limit. -/
theorem tableEntries_cutsOff {higher : Nat} (entries : Option (List EntryPhrase))
    (hs : s.nesting = 0) (hp : ∀ entry ∈ entries.getD [], entry.Admissible higher)
    (hm : some (settings.maxExpressionDepth + 1) ∈ Sentence.entryLevels entries)
    (h : s.cursor.ahead = Sentence.entryTokens entries ++ rest) :
    CutsOff settings.maxExpressionDepth (tableEntries settings) s
      (Sentence.entryLevels entries) := by
  cases entries with
  | none => cases hm
  | some entries =>
    rw [Sentence.entryTokens, List.append_assoc] at h
    have hmarked : some (settings.maxExpressionDepth + 1) ∈
        joinedMarks (entries.map EntryPhrase.levels) := by
      simpa only [Sentence.entryLevels, List.mem_append, List.mem_cons, reduceCtorEq,
        List.not_mem_nil, false_or, or_false] using hm
    have hitem : ∀ entry ∈ entries, LimitedItem settings.maxExpressionDepth 0
        (tableEntry settings) entry.tokens entry.levels (entry.entry settings) := by
      refine fun entry he => ⟨entry.length_levels, fun hm _ _ hs hend ha => ?_,
        fun hm _ _ hs hend ha => ?_⟩
      · exact tableEntry_reads settings entry hs ((hp entry he).within hm) hend ha
      · exact tableEntry_cutsOff entry hs (hp entry he) hm hend ha
    rw [tableEntries_eq]
    refine (CutsOff.afterRead (consume_reads h (by decide)) fun s₁ hn₁ ha₁ => ?_).append [none]
    exact listRest_cutsOff .entrySeparator hitem first_of_entry_ne_rightParen (hn₁.trans hs)
      hmarked ha₁

/-- A sentence is cut off in the first default that is deeper than the limit. -/
theorem openStatement_cutsOff {higher : Nat} (sentence : Sentence) (hs : s.nesting = 0)
    (hp : sentence.Admissible higher)
    (hm : some (settings.maxExpressionDepth + 1) ∈ sentence.levels)
    (h : s.cursor.ahead = sentence.tokens ++ rest) :
    CutsOff settings.maxExpressionDepth (openStatement settings) s sentence.levels := by
  cases sentence with
  | createTable ifNotExists name entries =>
    simp only [Sentence.tokens, List.cons_append, List.append_assoc] at h
    have hmarked : some (settings.maxExpressionDepth + 1) ∈ Sentence.entryLevels entries := by
      simpa only [Sentence.levels, List.mem_cons, List.mem_append, notMem_unmarked, reduceCtorEq,
        false_or] using hm
    have hperiod : (Sentence.entryTokens entries ++ rest).headD .eof ≠ .period := by
      cases entries with
      | none => cases hmarked
      | some entries => rintro ⟨⟩
    refine CutsOff.afterRead (next_reads h (by decide)) fun s₁ hn₁ ha₁ => ?_
    refine CutsOff.afterRead (next_reads ha₁ (by decide)) fun s₂ hn₂ ha₂ => ?_
    refine CutsOff.afterRead (keywordTokens_reads ifNotExists .«if» [.not, .«exists»]
      (by rintro ⟨⟩) ha₂) fun s₃ hn₃ ha₃ => ?_
    refine CutsOff.afterRead (objectName_reads settings name hperiod ha₃) fun s₄ hn₄ ha₄ => ?_
    have hs₄ : s₄.nesting = 0 := hn₄.trans (hn₃.trans (hn₂.trans (hn₁.trans hs)))
    exact (tableEntries_cutsOff entries hs₄ hp.entries hmarked ha₄).bind
  | createSchema ifNotExists name => exact absurd hm (notMem_unmarked _ _)
  | dropTable ifExists name rule => exact absurd hm (notMem_unmarked _ _)

/-- A statement is cut off in the first default that is deeper than the limit. -/
theorem statement_cutsOff {higher : Nat} (sentence : Sentence) (hs : s.nesting = 0)
    (hp : sentence.Admissible higher)
    (hm : some (settings.maxExpressionDepth + 1) ∈ sentence.levels)
    (h : s.cursor.ahead = sentence.tokens ++ rest) :
    CutsOff settings.maxExpressionDepth (statement settings) s sentence.levels :=
  (openStatement_cutsOff sentence hs hp hm h).bind

end SqlDdl.Grammar
