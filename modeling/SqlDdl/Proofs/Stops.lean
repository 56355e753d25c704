import SqlDdl.Proofs.Spellings

/-!
# Where readings stop

A reading that fails points at a token. What it passed over before that token could
have gone on: it begins one of the runs of tokens that the reading spells. That holds
of a sequence if it holds of the parts, the first of them spells what it passes over,
and the rest can be completed; so every rule here asks for the ways to write what was
read and what is still to come.
-/

namespace SqlDdl

/-- An error that points at the token at an index of a stream. -/
def Error.PointsAt (stream : TokenStream) (index : Nat) : Error → Prop
  | expected _ found position => stream.entries[index]? = some ⟨found, position⟩
  | duplicateClause _ position =>
    ∃ token, stream.entries[index]? = some ⟨token, position⟩
  | expressionTooDeep _ position =>
    ∃ token, stream.entries[index]? = some ⟨token, position⟩
  | unsupported _ => True
  | unexpectedCharacter _ _ => False
  | unterminated _ _ => False
  | inputTooLarge _ _ => False

namespace Cursor

variable {c c₁ : Cursor} {ts us : List Token} {error : Error}

/-- An error that points at the token behind some of those ahead. -/
structure Breaks (c : Cursor) (ts : List Token) (error : Error) : Prop where
  /-- These tokens come next. -/
  ahead : ts <+: c.ahead
  /-- The error points at the token behind them. -/
  points : error.PointsAt c.stream (c.index + ts.length)

/-- What points at a token behind a passage points at it from before the passage. -/
theorem Passes.breaks (h : c.Passes us c₁) (hb : c₁.Breaks ts error) :
    c.Breaks (us ++ ts) error where
  ahead := by
    rw [h.ahead]
    exact (List.prefix_append_right_inj us).mpr hb.ahead
  points := by
    have hp := hb.points
    rwa [h.stream, h.index, Nat.add_assoc, ← List.length_append] at hp

/-- Where the end of the input lies ahead, the current token has an entry. -/
theorem Closed.entry (h : c.Closed) :
    c.stream.entries[c.index]? = some ⟨c.peek, c.position⟩ := by
  obtain ⟨token, rest, ha⟩ := h.ahead_eq
  have hlt := index_lt_of_ahead ha
  have he : c.stream.entries[c.index]? = some c.stream.entries[c.index] :=
    Array.getElem?_eq_getElem hlt
  have hpeek : c.peek = c.stream.entries[c.index].token := by
    rw [peek, peekNth, Nat.add_zero, TokenStream.get?, he]
    rfl
  have hposition : c.position = c.stream.entries[c.index].position :=
    TokenStream.position_of_entry he
  rw [he, hpeek, hposition]

/-- The error that something else was expected here points at the current token. -/
theorem Closed.pointsAt_expected (h : c.Closed) (expectation : Expectation) :
    (c.expected expectation c.peek).PointsAt c.stream c.index :=
  h.entry

/-- Before an error at the current token nothing was passed over. -/
theorem Breaks.here (h : error.PointsAt c.stream c.index) : c.Breaks [] error :=
  ⟨List.nil_prefix, h⟩

/-- Behind a step forward inside the stream the token before is the one that was read. -/
theorem previousPosition_advance (h : c.Closed) :
    c.advance.previousPosition = c.position := by
  obtain ⟨token, rest, ha⟩ := h.ahead_eq
  simp only [previousPosition, advance, if_pos (index_lt_of_ahead ha), Nat.add_sub_cancel,
    position]

end Cursor

namespace Grammar

variable {α β Phrase : Type} {s s' s₁ : State} {error : Error}
  {spelled begun ended : List Token → Prop}

/-- Whenever a reading fails with an error, what it passed over before the token that the error
points at begins one of the given runs of tokens. -/
def Stops (p : Reading α) (spelled : List Token → Prop) : Prop :=
  ∀ (s s' : State) (error : Error), s.cursor.Closed → p s = .error (.error error) s' →
    ∃ ts, s.cursor.Breaks ts error ∧ ∃ rest, spelled (ts ++ rest)

/-- The same of a reading before a given token. -/
def StopsAt (token : Token) (p : Reading α) (spelled : List Token → Prop) : Prop :=
  ∀ (s s' : State) (error : Error), s.cursor.Closed → s.cursor.peek = token →
    p s = .error (.error error) s' →
      ∃ ts, s.cursor.Breaks ts error ∧ ∃ rest, spelled (ts ++ rest)

/-- Going on from a cursor or staying gives a value. -/
theorem moveTo_total (target : Option Cursor) (s : State) :
    ∃ found s', moveTo target s = .ok found s' := by
  cases target with
  | none => exact ⟨_, _, rfl⟩
  | some cursor => exact ⟨_, _, rfl⟩

/-- A conditional step gives a value. -/
theorem consume_total (token : Token) (s : State) :
    ∃ found s', consume token s = .ok found s' :=
  moveTo_total _ s

/-- A conditional step over a run of keywords gives a value. -/
theorem consumeKeywords_total (keywords : List Keyword) (s : State) :
    ∃ found s', consumeKeywords keywords s = .ok found s' :=
  ⟨_, _, rfl⟩

/-- A sequence of readings that give values gives a value. -/
theorem bind_total {p : Reading α} {f : α → Reading β}
    (hp : ∀ s, ∃ a s', p s = .ok a s') (hf : ∀ a s, ∃ b s', f a s = .ok b s') (s : State) :
    ∃ b s', (p >>= f) s = .ok b s' := by
  obtain ⟨a, s₁, ha⟩ := hp s
  obtain ⟨b, s₂, hb⟩ := hf a s₁
  exact ⟨b, s₂, (run_bind ha).trans hb⟩

/-- A sequence fails behind a first part that gives a value. -/
theorem bind_error_of_ok {p : Reading α} {f : α → Reading β} {failure : Failure}
    (hp : ∀ s, ∃ a s', p s = .ok a s') (h : (p >>= f) s = .error failure s') :
    ∃ a s₁, p s = .ok a s₁ ∧ f a s₁ = .error failure s' := by
  obtain ⟨a, s₁, ha⟩ := hp s
  rw [run_bind ha] at h
  exact ⟨a, s₁, ha, h⟩

namespace Stops

/-- A reading that always gives a value does not stop. -/
theorem of_ok {p : Reading α} (h : ∀ s, ∃ a s', p s = .ok a s') : Stops p spelled := by
  intro s s' error _ he
  obtain ⟨a, s₁, ha⟩ := h s
  rw [ha] at he
  cases he

/-- Giving a value does not stop. -/
theorem pure (a : α) : Stops (Pure.pure a : Reading α) spelled := of_ok fun s => ⟨a, s, rfl⟩

/-- A conditional step over a run of keywords does not stop. -/
theorem consumeKeywords (keywords : List Keyword) :
    Stops (Grammar.consumeKeywords keywords) spelled :=
  of_ok (consumeKeywords_total keywords)

/-- A reading stops in what it can spell. -/
theorem mono {p : Reading α} (h : Stops p begun) (hs : ∀ ts, begun ts → spelled ts) :
    Stops p spelled := by
  intro s s' error hc he
  obtain ⟨ts, hb, rest, hr⟩ := h _ _ _ hc he
  exact ⟨ts, hb, rest, hs _ hr⟩

/-- A token is refused where something may begin. -/
theorem reject {expectation : Expectation} (h : ∃ ts, spelled ts) :
    Stops (Grammar.reject expectation : Reading α) spelled := by
  intro s s' error hc he
  cases he
  exact ⟨[], .here hc.entry, h⟩

/-- A sequence stops in its first part, where the second can be completed, or behind what the
first part spells. -/
theorem bind {p : Reading α} {f : α → Reading β} (hp : Stops p begun) (hs : Spells p begun)
    (hf : ∀ a, Stops (f a) ended) (he : ∃ ts, ended ts)
    (h : ∀ us vs, begun us → ended vs → spelled (us ++ vs)) : Stops (p >>= f) spelled := by
  intro s s' error hc hfail
  rcases bind_error hfail with hfirst | ⟨a, s₁, ha, hsecond⟩
  · obtain ⟨ts, hb, rest, hr⟩ := hp _ _ _ hc hfirst
    obtain ⟨vs, hv⟩ := he
    refine ⟨ts, hb, rest ++ vs, ?_⟩
    rw [← List.append_assoc]
    exact h _ _ hr hv
  · obtain ⟨us, hu, hpass⟩ := hs hc ha
    obtain ⟨ts, hb, rest, hr⟩ := hf a _ _ _ (hpass.closed hc) hsecond
    refine ⟨us ++ ts, hpass.breaks hb, rest, ?_⟩
    rw [List.append_assoc]
    exact h _ _ hu hr

/-- A sequence stops in what its first part spells and then its second. -/
theorem andThen {Second : Type} [Inhabited Second] {first : Phrase → List Token}
    {second : Second → List Token} {p : Reading α} {f : α → Reading β}
    (hp : Stops p (Written first)) (hs : Spells p (Written first))
    (hf : ∀ a, Stops (f a) (Written second)) :
    Stops (p >>= f) (Written fun both : Phrase × Second => first both.1 ++ second both.2) := by
  refine bind hp hs hf (exists_written second) ?_
  rintro _ _ ⟨x, rfl⟩ ⟨y, rfl⟩
  exact ⟨(x, y), rfl⟩

/-- What is done with the value of a reading without reading on does not stop. -/
theorem map {p : Reading α} {f : α → Reading β} (hp : Stops p spelled)
    (hf : ∀ a s, ∃ b s', f a s = .ok b s') : Stops (p >>= f) spelled := by
  intro s s' error hc hfail
  rcases bind_error hfail with hfirst | ⟨a, s₁, -, hsecond⟩
  · exact hp _ _ _ hc hfirst
  · obtain ⟨b, s₂, hb⟩ := hf a s₁
    rw [hb] at hsecond
    cases hsecond

/-- A choice by the current token stops behind that token or in the other branch. -/
theorem choose {token : Token} {p q : Reading α} (ht : token ≠ .eof) (hp : Stops p ended)
    (h : ∀ ts, ended ts → spelled (token :: ts)) (hq : Stops q spelled) :
    Stops (do if ← Grammar.consume token then p else q) spelled := by
  intro s s' error hc hfail
  obtain ⟨found, s₁, hf, hfail⟩ := bind_error_of_ok (consume_total token) hfail
  rcases consume_ok hf ht with ⟨rfl, hpass⟩ | ⟨rfl, rfl⟩
  · obtain ⟨ts, hb, rest, hr⟩ := hp _ _ _ (hpass.closed hc) hfail
    exact ⟨token :: ts, hpass.breaks hb, rest, h _ hr⟩
  · exact hq _ _ _ hc hfail

/-- A choice whose first branch gives a value stops in the other branch. -/
theorem choose_done {token : Token} {p q : Reading α} (ht : token ≠ .eof)
    (hp : ∀ s, ∃ a s', p s = .ok a s') (hq : Stops q spelled) :
    Stops (do if ← Grammar.consume token then p else q) spelled := by
  intro s s' error hc hfail
  obtain ⟨found, s₁, hf, hfail⟩ := bind_error_of_ok (consume_total token) hfail
  rcases consume_ok hf ht with ⟨rfl, -⟩ | ⟨rfl, rfl⟩
  · obtain ⟨a, s₂, ha⟩ := hp s₁
    cases ha.symm.trans hfail
  · exact hq _ _ _ hc hfail

/-- A required token is refused where another one stands. -/
theorem require {token : Token} (ht : token ≠ .eof) :
    Stops (Grammar.require token) (Written fun _ : Unit => [token]) := by
  intro s s' error hc hfail
  obtain ⟨found, s₁, hf, hfail⟩ := bind_error_of_ok (consume_total token) hfail
  rcases consume_ok hf ht with ⟨rfl, -⟩ | ⟨rfl, rfl⟩
  · cases hfail
  · cases hfail
    exact ⟨[], .here hc.entry, _, (), rfl⟩

/-- A repetition stops where one of its steps does, if whatever the steps before it read can stand
before what is spelled. -/
theorem repeatStep {step : α → Reading (α ⊕ β)} (hp : ∀ a, Stops (step a) spelled)
    (hs : ∀ {a a' : α} {s s' : State}, s.cursor.Closed → step a s = .ok (.inl a') s' →
      ∃ us, s.cursor.Passes us s'.cursor ∧ ∀ vs, spelled vs → spelled (us ++ vs)) (a : α) :
    Stops (Grammar.repeatStep step a) spelled := by
  intro s s' error hc hfail
  fun_induction Grammar.repeatStep step a s with
  | case1 a s failure s₁ ha =>
    cases hfail
    exact hp a _ _ _ hc ha
  | case2 => cases hfail
  | case3 a s a' s₁ ha _ ih =>
    obtain ⟨us, hpass, hu⟩ := hs hc ha
    obtain ⟨ts, hb, rest, hr⟩ := ih (hpass.closed hc) hfail
    refine ⟨us ++ ts, hpass.breaks hb, rest, ?_⟩
    rw [List.append_assoc]
    exact hu _ hr
  | case4 => cases hfail

/-- A reading that looks at the current token stops before it. -/
theorem peek_bind {f : Token → Reading α} (h : ∀ token, StopsAt token (f token) spelled) :
    Stops (Grammar.peek >>= f) spelled :=
  fun _ _ _ hc hfail => h _ _ _ _ hc rfl hfail

/-- A reading that looks where the cursor stands stops where what follows does. -/
theorem here_bind {f : Cursor → Reading α} (h : ∀ cursor, Stops (f cursor) spelled) :
    Stops (here >>= f) spelled :=
  fun _ _ _ hc hfail => h _ _ _ _ hc hfail

/-- A reading that takes the current token stops before some token or other. -/
theorem next_bind {f : Token → Reading α}
    (h : ∀ token, StopsAt token (next >>= f) spelled) : Stops (next >>= f) spelled :=
  fun _ _ _ hc hfail => h _ _ _ _ hc rfl hfail

/-- A reading that stops stops before any token. -/
theorem before {p : Reading α} (h : Stops p spelled) (token : Token) :
    StopsAt token p spelled :=
  fun _ _ _ hc _ hfail => h _ _ _ hc hfail

end Stops

namespace StopsAt

variable {token : Token} {f : Token → Reading α}

/-- A reading stops behind a token that it takes. -/
theorem read (ht : token ≠ .eof) (hf : Stops (f token) ended)
    (h : ∀ ts, ended ts → spelled (token :: ts)) : StopsAt token (next >>= f) spelled := by
  rintro s s' error hc rfl hfail
  obtain ⟨rest, ha⟩ := Cursor.ahead_of_peek rfl ht
  have hpass : s.cursor.Passes [s.cursor.peek] s.cursor.advance := .advance ha ht
  obtain ⟨ts, hb, rest, hr⟩ := hf _ _ _ (hpass.closed hc) hfail
  exact ⟨_, hpass.breaks hb, rest, h _ hr⟩

/-- A reading that gives a value behind a token that it takes does not stop. -/
theorem done (h : ∀ s, ∃ a s', f token s = .ok a s') :
    StopsAt token (next >>= f) spelled := by
  rintro s s' error - rfl hfail
  obtain ⟨a, s₁, ha⟩ := h { s with cursor := s.cursor.advance }
  cases ha.symm.trans hfail

/-- A token that was taken is refused, the end of the input too. -/
theorem refuse {expectation : Expectation} (h : ∃ ts, spelled ts)
    (hf : f token = rejectRead expectation token) : StopsAt token (next >>= f) spelled := by
  rintro s s' error hc rfl hfail
  change f s.cursor.peek { s with cursor := s.cursor.advance } = _ at hfail
  rw [hf] at hfail
  cases hfail
  refine ⟨[], .here ?_, h⟩
  change s.cursor.stream.entries[s.cursor.index]? =
    some ⟨s.cursor.peek, s.cursor.advance.previousPosition⟩
  rw [Cursor.previousPosition_advance hc]
  exact hc.entry

/-- A construct that is not supported has no place. -/
theorem unsupported {construct : Construct} (h : ∃ ts, spelled ts)
    (hf : f token = fail (.unsupported construct)) : StopsAt token (next >>= f) spelled := by
  rintro s s' error hc rfl hfail
  change f s.cursor.peek { s with cursor := s.cursor.advance } = _ at hfail
  rw [hf] at hfail
  cases hfail
  exact ⟨[], .here trivial, h⟩

/-- A reading goes back to before a token that it took. -/
theorem back {k : Unit → Reading α} (hf : f token = rewind >>= k) (hk : Stops (k ()) spelled) :
    StopsAt token (next >>= f) spelled := by
  rintro s s' error hc rfl hfail
  obtain ⟨first, rest, ha⟩ := hc.ahead_eq
  obtain ⟨s₁, hr, hpass⟩ := rewind_reads ha
  change f s.cursor.peek { s with cursor := s.cursor.advance } = _ at hfail
  rw [hf, run_bind hr] at hfail
  obtain ⟨ts, hb, hrest⟩ := hk _ _ _ (hpass.closed hc) hfail
  exact ⟨ts, hpass.breaks hb, hrest⟩

end StopsAt

/-! Lists of items that stop in the phrases that they spell. -/

section Lists

variable {tokens : Phrase → List Token} {item : Reading α}

/-- A separated list stops in such a list. -/
theorem Stops.separated (hi : Stops item (Written tokens)) (hs : Spells item (Written tokens))
    {separator : Token} (ht : separator ≠ .eof) :
    Stops (Grammar.separated item separator)
      (Written fun list : Phrase × List Phrase =>
        joined separator ((list.1 :: list.2).map tokens)) := by
  have hrest : ∀ found, Stops (Grammar.repeatStep (separatedStep item separator) found)
      (Written fun others : List Phrase => (others.map tokens).flatMap (separator :: ·)) := by
    refine Stops.repeatStep (fun found => ?_) ?_
    · refine Stops.choose ht (Stops.map hi fun a s => ⟨_, s, rfl⟩) ?_ (.pure _)
      rintro _ ⟨phrase, rfl⟩
      exact ⟨[phrase], List.append_nil _⟩
    · intro found found' s s' hc h
      obtain ⟨_, ⟨phrase, rfl⟩, hpass⟩ := hs.separatedStep ht hc h
      refine ⟨_, hpass, ?_⟩
      rintro _ ⟨others, rfl⟩
      exact ⟨phrase :: others, rfl⟩
  rw [separated_eq]
  exact Stops.andThen hi hs fun a => hrest [a]

/-- The tokens of one item or more with commas between them, up to a closing parenthesis. -/
def closedTokens (tokens : Phrase → List Token) (list : Phrase × List Phrase) : List Token :=
  joined .comma ((list.1 :: list.2).map tokens) ++ [.rightParen]

/-- A list may be closed behind its first item. -/
theorem closedTokens_one (phrase : Phrase) :
    closedTokens tokens (phrase, []) = tokens phrase ++ [.rightParen] := by
  rw [closedTokens, List.map_singleton, joined, List.flatMap_nil, List.append_nil]

/-- A list may begin with one more item and a comma. -/
theorem closedTokens_cons (phrase first : Phrase) (others : List Phrase) :
    closedTokens tokens (phrase, first :: others) =
      tokens phrase ++ [.comma] ++ closedTokens tokens (first, others) := by
  rw [closedTokens, closedTokens, List.map_cons, List.map_cons, joined_cons_cons,
    List.append_assoc, List.append_assoc]
  rfl

/-- A step through a list up to its closing parenthesis stops in an item or behind it, where the
list may be closed. -/
theorem Stops.closedStep (hi : Stops item (Written tokens)) (hs : Spells item (Written tokens))
    (expectation : Expectation) (found : List α) :
    Stops (Grammar.closedStep item expectation found) (Written (closedTokens tokens)) := by
  refine Stops.bind hi hs (fun a => ?_) (exists_written fun _ : Unit => [Token.rightParen]) ?_
  · have hreject : Stops (Grammar.reject expectation : Reading (List α ⊕ List α))
        (Written fun _ : Unit => [Token.rightParen]) := .reject (exists_written _)
    exact .choose_done (by decide) (fun s => ⟨_, s, rfl⟩)
      (.choose_done (by decide) (fun s => ⟨_, s, rfl⟩) hreject)
  · rintro _ _ ⟨phrase, rfl⟩ ⟨_, rfl⟩
    exact ⟨(phrase, []), closedTokens_one phrase⟩

/-- A list up to a closing parenthesis stops in such a list. -/
theorem Stops.closedList (hi : Stops item (Written tokens)) (hs : Spells item (Written tokens))
    (expectation : Expectation) :
    Stops (Grammar.closedList item expectation) (Written (closedTokens tokens)) := by
  rw [closedList_eq]
  refine Stops.repeatStep (Stops.closedStep hi hs expectation) ?_ []
  intro found found' s s' hc h
  obtain ⟨_, ⟨phrase, rfl⟩, hpass⟩ := hs.closedStep hc h
  refine ⟨_, hpass, ?_⟩
  rintro _ ⟨⟨first, others⟩, rfl⟩
  exact ⟨(phrase, first :: others), closedTokens_cons phrase first others⟩

/-- A list behind an opening parenthesis stops in such a list. -/
theorem Stops.listRest (hi : Stops item (Written tokens)) (hs : Spells item (Written tokens))
    (expectation : Expectation) :
    Stops (Grammar.listRest item expectation)
      (Written fun phrases : List Phrase =>
        joined .comma (phrases.map tokens) ++ [.rightParen]) := by
  refine Stops.choose_done (by decide) (fun s => ⟨_, s, rfl⟩)
    ((Stops.closedList hi hs expectation).mono ?_)
  rintro _ ⟨⟨first, others⟩, rfl⟩
  exact ⟨first :: others, rfl⟩

end Lists

end Grammar

end SqlDdl
