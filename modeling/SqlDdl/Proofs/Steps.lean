import SqlDdl.Proofs.Passage
import SqlDdl.Proofs.Sentence

/-!
# Steps of a reading in both directions

For every step of `Grammar.Reading` there are two facts. One starts from a success
and says which tokens were passed; the other starts from the tokens ahead and says
that the step succeeds on them. Repetitions and lists take the facts of their items
to the facts of the whole. The grammar is read off from these facts alone, without
looking at cursors again.
-/

namespace SqlDdl.Grammar

variable {α β : Type} {s s₁ s' : State} {ts us rest : List Token}

/-- From one state to another exactly the given tokens were read, and as many expressions are
begun and not ended. -/
structure State.Passes (s : State) (tokens : List Token) (s' : State) : Prop extends
    s.cursor.Passes tokens s'.cursor where
  /-- As many expressions stand open as before. -/
  nesting : s'.nesting = s.nesting

namespace State.Passes

/-- A state passes over nothing to reach itself. -/
theorem refl (s : State) : s.Passes [] s := ⟨.refl _, rfl⟩

/-- Two passages in a row pass over the tokens of the one and then of the other. -/
theorem trans (h₁ : s.Passes ts s₁) (h₂ : s₁.Passes us s') : s.Passes (ts ++ us) s' :=
  ⟨h₁.toPasses.trans h₂.toPasses, h₂.nesting.trans h₁.nesting⟩

/-- Staying in place after a passage changes nothing. -/
theorem stay (h₁ : s.Passes ts s₁) (h₂ : s₁.Passes [] s') : s.Passes ts s' :=
  ⟨h₁.toPasses.stay h₂.toPasses, h₂.nesting.trans h₁.nesting⟩

end State.Passes

/-- From a state a reading gives a value, passes over some tokens and leaves others. -/
def Reads (p : Reading α) (s : State) (ts rest : List Token) (a : α) : Prop :=
  ∃ s', p s = .ok a s' ∧ s.Passes ts s' ∧ s'.cursor.ahead = rest

/-- Whether a token can follow the parts of a column or a constraint: a comma, a semicolon, a
closing parenthesis, the end of the input, or a keyword other than the one that begins an
action. -/
def endsPart : Token → Bool
  | .comma => true
  | .semicolon => true
  | .rightParen => true
  | .eof => true
  | .keyword keyword => keyword != .on
  | _ => false

/-- A token that ends a part is none of those that do not. -/
theorem ne_of_endsPart {token other : Token} (h : endsPart token = true)
    (ho : endsPart other = false) : token ≠ other := by
  intro he
  rw [he, ho] at h
  cases h

/-- The current token is the one that follows where nothing stands in between. -/
theorem peek_eq_headD (h : s.cursor.ahead = rest) : s.cursor.peek = rest.headD .eof := by
  rw [Cursor.peek_eq_headD, h]

/-- The beginning of a reading of the given tokens, with the end of the input behind them. -/
def stateOf (tokens : List Token) : State :=
  ⟨.ofStream (.ofList ((tokens ++ [Token.eof]).map (⟨·, .start⟩))), [], 0⟩

/-- The given tokens and the end of the input lie ahead at first. -/
theorem ahead_stateOf (tokens : List Token) :
    (stateOf tokens).cursor.ahead = tokens ++ [.eof] := by
  have htokens : (TokenStream.ofList ((tokens ++ [Token.eof]).map (⟨·, .start⟩))).tokens =
      tokens ++ [.eof] := by
    simp only [TokenStream.tokens, TokenStream.ofList, List.map_map]
    exact List.map_id _
  rw [stateOf, Cursor.ahead_ofStream, htokens, if_pos List.getLast?_concat]

/-- A sequence succeeds only if both its parts do. -/
theorem bind_ok {x : Reading α} {f : α → Reading β} {b : β} (h : (x >>= f) s = .ok b s') :
    ∃ a s₁, x s = .ok a s₁ ∧ f a s₁ = .ok b s' := by
  change EStateM.bind x f s = .ok b s' at h
  unfold EStateM.bind at h
  split at h
  · exact ⟨_, _, by assumption, h⟩
  · cases h

/-- A sequence goes on where its first part stopped. -/
theorem run_bind {x : Reading α} {f : α → Reading β} {a : α} (h : x s = .ok a s₁) :
    (x >>= f) s = f a s₁ := by
  change EStateM.bind x f s = f a s₁
  rw [EStateM.bind, h]

/-- A sequence fails only if one of its parts does. -/
theorem bind_error {x : Reading α} {f : α → Reading β} {failure : Failure}
    (h : (x >>= f) s = .error failure s') :
    x s = .error failure s' ∨ ∃ a s₁, x s = .ok a s₁ ∧ f a s₁ = .error failure s' := by
  change EStateM.bind x f s = .error failure s' at h
  unfold EStateM.bind at h
  split at h
  · exact Or.inr ⟨_, _, by assumption, h⟩
  · cases h
    exact Or.inl (by assumption)

/-- A sequence stops where its first part failed. -/
theorem run_bind_error {x : Reading α} {f : α → Reading β} {failure : Failure}
    (h : x s = .error failure s₁) : (x >>= f) s = .error failure s₁ := by
  change EStateM.bind x f s = .error failure s₁
  rw [EStateM.bind, h]

/-- What follows on looking where the cursor stands goes on from there. -/
theorem run_here (f : Cursor → Reading α) (s : State) : (here >>= f) s = f s.cursor s := rfl

/-- Sequences that begin in the same way and go on in the same way are the same. -/
theorem run_bind_congr {x y : Reading α} {f : α → Reading β} (h : x s = y s) :
    (x >>= f) s = (y >>= f) s := by
  cases hy : y s with
  | ok a s₁ => rw [run_bind (h.trans hy), run_bind hy]
  | error failure s₁ => rw [run_bind_error (h.trans hy), run_bind_error hy]

/-- Giving a value reads nothing. -/
theorem pure_ok {a b : α} (h : (pure a : Reading α) s = .ok b s') : a = b ∧ s = s' := by
  cases h
  exact ⟨rfl, rfl⟩

/-- Nothing comes of a failure. -/
theorem fail_ok {error : Error} {a : α} (h : fail error s = .ok a s') : False := by
  cases h

/-- Nothing is read where something else was expected. -/
theorem reject_ok {expectation : Expectation} {a : α} (h : reject expectation s = .ok a s') :
    False := by
  cases h

/-- Nothing comes of a token that was read and not expected. -/
theorem rejectRead_ok {expectation : Expectation} {token : Token} {a : α}
    (h : rejectRead expectation token s = .ok a s') : False := by
  cases h

/-- Looking at the current token leaves the state as it is. -/
theorem peek_ok {token : Token} (h : peek s = .ok token s') : s.cursor.peek = token ∧ s = s' := by
  cases h
  exact ⟨rfl, rfl⟩

/-- The current token is the first of those ahead. -/
theorem run_peek {token : Token} (h : s.cursor.ahead = token :: rest) : peek s = .ok token s :=
  congrArg (EStateM.Result.ok · s) (Cursor.peek_of_ahead h)

/-- Reading a token passes over the current one, unless that is the end of the input. -/
theorem next_ok {token : Token} (h : next s = .ok token s') :
    s.cursor.peek = token ∧ s' = { s with cursor := s.cursor.advance } ∧
      (token ≠ .eof → s.cursor.Passes [token] s'.cursor) := by
  cases h
  refine ⟨rfl, rfl, fun ht => ?_⟩
  obtain ⟨rest, ha⟩ := Cursor.ahead_of_peek rfl ht
  exact .advance ha ht

/-- Reading a token gives the first of those ahead and moves the cursor on. -/
theorem run_next {token : Token} (h : s.cursor.ahead = token :: rest) :
    next s = .ok token { s with cursor := s.cursor.advance } :=
  congrArg (EStateM.Result.ok · _) (Cursor.peek_of_ahead h)

/-- A token is read where it stands. -/
theorem next_reads {token : Token} (h : s.cursor.ahead = token :: rest) (ht : token ≠ .eof) :
    Reads next s [token] rest token :=
  ⟨_, run_next h, ⟨.advance h ht, rfl⟩, Cursor.ahead_advance h⟩

/-- Going back behind a token that was read undoes that, but for the permission to go back. -/
theorem run_rewind {token : Token} (h : s.cursor.ahead = token :: rest) :
    rewind { s with cursor := s.cursor.advance } =
      .ok () { s with cursor := { s.cursor with rewindable := false } } := by
  rw [rewind, Cursor.rewind_advance h]

/-- Going back behind a token that was read leads to where it was read. -/
theorem rewind_reads {token : Token} (h : s.cursor.ahead = token :: rest) :
    ∃ s₁, rewind { s with cursor := s.cursor.advance } = .ok () s₁ ∧ s.Passes [] s₁ :=
  ⟨_, run_rewind h, .of_index rfl rfl, rfl⟩

/-- A conditional step passes over its token if it found it, and else stays. -/
theorem consume_ok {token : Token} {found : Bool} (h : consume token s = .ok found s')
    (ht : token ≠ .eof) :
    found = true ∧ s.cursor.Passes [token] s'.cursor ∨ found = false ∧ s = s' := by
  unfold consume Cursor.consumeToken? at h
  split at h
  · cases h
    obtain ⟨rest, ha⟩ := Cursor.ahead_of_peek (by assumption) ht
    exact Or.inl ⟨rfl, .advance ha ht⟩
  · cases h
    exact Or.inr ⟨rfl, rfl⟩

/-- A conditional step succeeds on its token. -/
theorem consume_reads {token : Token} (h : s.cursor.ahead = token :: rest) (ht : token ≠ .eof) :
    Reads (consume token) s [token] rest true := by
  have hc : s.cursor.consumeToken? token = some s.cursor.advance :=
    if_pos (Cursor.peek_of_ahead h)
  refine ⟨{ s with cursor := s.cursor.advance }, ?_, ⟨.advance h ht, rfl⟩,
    Cursor.ahead_advance h⟩
  exact congrArg (moveTo · s) hc

/-- A conditional step on another token changes nothing. -/
theorem consume_miss {token : Token} (h : s.cursor.peek ≠ token) :
    consume token s = .ok false s := by
  have hc : s.cursor.consumeToken? token = none := if_neg h
  exact congrArg (moveTo · s) hc

/-- A required token is passed over. -/
theorem require_ok {token : Token} (h : require token s = .ok () s') (ht : token ≠ .eof) :
    s.cursor.Passes [token] s'.cursor := by
  obtain ⟨found, s₁, hc, h⟩ := bind_ok h
  rcases consume_ok hc ht with ⟨rfl, h₁⟩ | ⟨rfl, rfl⟩
  · obtain ⟨-, rfl⟩ := pure_ok h
    exact h₁
  · exact (reject_ok h).elim

/-- A required token is read where it stands. -/
theorem require_reads {token : Token} (h : s.cursor.ahead = token :: rest) (ht : token ≠ .eof) :
    Reads (require token) s [token] rest () := by
  obtain ⟨s₁, hc, h₁⟩ := consume_reads h ht
  exact ⟨s₁, by rw [require, run_bind hc]; rfl, h₁⟩

/-- A conditional step over keywords goes on from the cursor behind all of them, or stays. -/
theorem consumeKeywords_eq_moveTo (keywords : List Keyword) (s : State) :
    consumeKeywords keywords s = moveTo (s.cursor.consumeKeywords? keywords) s := by
  rw [consumeKeywords, Cursor.consumeKeywords_eq]
  cases s.cursor.consumeKeywords? keywords <;> rfl

/-- A run of keywords is passed over as a whole or not at all. -/
theorem consumeKeywords_ok {keywords : List Keyword} {found : Bool}
    (h : consumeKeywords keywords s = .ok found s') :
    found = true ∧ s.cursor.Passes (keywords.map .keyword) s'.cursor ∨
      found = false ∧ s = s' := by
  rw [consumeKeywords_eq_moveTo] at h
  unfold moveTo at h
  split at h
  next behind hb =>
    cases h
    exact Or.inl ⟨rfl, Cursor.consumeKeywords?_passes hb⟩
  next =>
    cases h
    exact Or.inr ⟨rfl, rfl⟩

/-- A run of keywords is read where it stands. -/
theorem consumeKeywords_reads (keywords : List Keyword)
    (h : s.cursor.ahead = keywords.map .keyword ++ rest) :
    Reads (consumeKeywords keywords) s (keywords.map .keyword) rest true := by
  obtain ⟨behind, hb⟩ := Cursor.consumeKeywords?_of_ahead h
  have h₁ := Cursor.consumeKeywords?_passes hb
  refine ⟨{ s with cursor := behind }, ?_, ⟨h₁, rfl⟩, h₁.ahead_eq h⟩
  rw [consumeKeywords_eq_moveTo, hb, moveTo]

/-- A run of keywords that does not stand here as a whole is not touched. -/
theorem consumeKeywords_miss {keywords : List Keyword}
    (h : ¬ keywords.map .keyword <+: s.cursor.ahead) :
    consumeKeywords keywords s = .ok false s := by
  have hc : s.cursor.consumeKeywords? keywords = none := by
    cases hb : s.cursor.consumeKeywords? keywords with
    | none => rfl
    | some behind => exact absurd ⟨_, (Cursor.consumeKeywords?_passes hb).ahead.symm⟩ h
  rw [consumeKeywords_eq_moveTo, hc, moveTo]

/-- Keeping an event reads nothing. -/
theorem record_reads (event : Event) (h : s.cursor.ahead = rest) :
    Reads (record event) s [] rest () :=
  ⟨{ s with events := event :: s.events }, rfl, ⟨.refl _, rfl⟩, h⟩

/-- What every step of a repetition carries from its end to its beginning holds of the
repetition. -/
theorem repeatStep_ok {step : α → Reading (α ⊕ β)} {motive : α → State → β → State → Prop}
    (last : ∀ a s b s', step a s = .ok (.inr b) s' → motive a s b s')
    (again : ∀ a s a' s₁ b s', step a s = .ok (.inl a') s₁ → motive a' s₁ b s' → motive a s b s')
    {a : α} {b : β} (h : repeatStep step a s = .ok b s') : motive a s b s' := by
  fun_induction repeatStep step a s with
  | case1 => cases h
  | case2 a s b₁ s₁ hs =>
    cases h
    exact last a s b s' hs
  | case3 a s a' s₁ hs _ ih => exact again a s a' s₁ b s' hs (ih h)
  | case4 => cases h

/-- A repetition ends with the step that gives a result. -/
theorem repeatStep_last {step : α → Reading (α ⊕ β)} {a : α} {b : β}
    (h : Reads (step a) s ts rest (.inr b)) : Reads (repeatStep step a) s ts rest b := by
  obtain ⟨s₁, hs, h₁⟩ := h
  refine ⟨s₁, ?_, h₁⟩
  rw [repeatStep, hs]

/-- Behind a step that leaves fewer tokens a repetition goes on. -/
theorem repeatStep_inl {step : α → Reading (α ⊕ β)} {a a' : α} (h : step a s = .ok (.inl a') s₁)
    (hr : s₁.cursor.remaining < s.cursor.remaining) :
    repeatStep step a s = repeatStep step a' s₁ := by
  rw [repeatStep, h]
  exact if_pos hr

/-- A repetition fails where its next step does. -/
theorem repeatStep_failed {step : α → Reading (α ⊕ β)} {a : α} {failure : Failure}
    (h : step a s = .error failure s₁) : repeatStep step a s = .error failure s₁ := by
  rw [repeatStep, h]

/-- A repetition goes on behind a step that read something. -/
theorem repeatStep_again {step : α → Reading (α ⊕ β)} {a a' : α} {b : β}
    (h : Reads (step a) s ts us (.inl a')) (ht : ts ≠ []) {vs : List Token}
    (hr : ∀ s₁ : State, s₁.nesting = s.nesting → s₁.cursor.ahead = us →
      Reads (repeatStep step a') s₁ vs rest b) :
    Reads (repeatStep step a) s (ts ++ vs) rest b := by
  obtain ⟨s₁, hs, h₁, ha⟩ := h
  obtain ⟨s₂, hs₂, h₂, ha₂⟩ := hr s₁ h₁.nesting ha
  exact ⟨s₂, (repeatStep_inl hs (h₁.remaining_lt ht)).trans hs₂, h₁.trans h₂, ha₂⟩

/-- From a state a repetition passes over some tokens, goes on with another value and leaves the
rest of the tokens. -/
def GoesOn (step : α → Reading (α ⊕ β)) (a : α) (s : State) (ts rest : List Token) (a' : α) :
    Prop :=
  ∃ s', repeatStep step a s = repeatStep step a' s' ∧ s.Passes ts s' ∧ s'.cursor.ahead = rest

namespace GoesOn

variable {step : α → Reading (α ⊕ β)} {a a' a'' : α} {vs : List Token}

/-- A repetition goes on from where it is. -/
theorem refl (h : s.cursor.ahead = rest) : GoesOn step a s [] rest a := ⟨s, rfl, .refl s, h⟩

/-- A repetition goes on over a step that read something and from there. -/
theorem again (h : Reads (step a) s ts us (.inl a')) (ht : ts ≠ [])
    (hr : ∀ s₁ : State, s₁.nesting = s.nesting → s₁.cursor.ahead = us →
      GoesOn step a' s₁ vs rest a'') : GoesOn step a s (ts ++ vs) rest a'' := by
  obtain ⟨s₁, hs, h₁, ha⟩ := h
  obtain ⟨s₂, hs₂, h₂, ha₂⟩ := hr s₁ h₁.nesting ha
  exact ⟨s₂, (repeatStep_inl hs (h₁.remaining_lt ht)).trans hs₂, h₁.trans h₂, ha₂⟩

/-- A repetition that went on ends with the step that gives a result. -/
theorem last {b : β} (h : GoesOn step a s ts rest a')
    (hr : ∀ s₁ : State, s₁.cursor.ahead = rest → step a' s₁ = .ok (.inr b) s₁) :
    Reads (repeatStep step a) s ts rest b := by
  obtain ⟨s₁, hs, h₁, ha⟩ := h
  obtain ⟨s₂, hs₂, h₂, ha₂⟩ := repeatStep_last ⟨s₁, hr s₁ ha, .refl s₁, ha⟩
  exact ⟨s₂, hs.trans hs₂, h₁.stay h₂, ha₂⟩

end GoesOn

/-- One step through a separated list, the last item found standing first. -/
def separatedStep (item : Reading α) (separator : Token) (found : List α) :
    Reading (List α ⊕ List α) := do
  if ← consume separator then return .inl ((← item) :: found) else return .inr found.reverse

/-- A separated list is its first item and a repetition of its step. -/
theorem separated_eq (item : Reading α) (separator : Token) :
    separated item separator =
      item >>= fun first => repeatStep (separatedStep item separator) [first] :=
  rfl

/-- One step through a list up to its closing parenthesis, the last item found standing
first. -/
def closedStep (item : Reading α) (expectation : Expectation) (found : List α) :
    Reading (List α ⊕ List α) := do
  let a ← item
  if ← consume .rightParen then return .inr (a :: found).reverse
  else if ← consume .comma then return .inl (a :: found)
  else reject expectation

/-- What stands behind an item of a list, the last item found standing first. -/
def afterItem (expectation : Expectation) (found : List α) : Reading (List α ⊕ List α) := do
  if ← consume .rightParen then return .inr found.reverse
  else if ← consume .comma then return .inl found
  else reject expectation

/-- A step through a list reads an item and what stands behind it. -/
theorem closedStep_eq (item : Reading α) (expectation : Expectation) (found : List α) :
    closedStep item expectation found = item >>= fun a => afterItem expectation (a :: found) :=
  rfl

/-- A closed list is a repetition of its step. -/
theorem closedList_eq (item : Reading α) (expectation : Expectation) :
    closedList item expectation = repeatStep (closedStep item expectation) [] :=
  rfl

/-- The list behind an opening parenthesis, which may be closed at once. -/
def listRest (item : Reading α) (expectation : Expectation) : Reading (List α) := do
  if ← consume .rightParen then return [] else closedList item expectation

/-! Lists of items, each of which is written as some tokens and means some value. -/

section Lists

variable {Phrase : Type} {tokens : Phrase → List Token} {meaning : Phrase → α}
  {item : Reading α}

/-- The items behind the first were read, each behind a separator. -/
theorem separatedStep_ok {separator : Token} (hs : separator ≠ .eof)
    (hitem : ∀ {s s' : State} {a : α}, item s = .ok a s' →
      ∃ phrase, meaning phrase = a ∧ s.cursor.Passes (tokens phrase) s'.cursor)
    {found values : List α}
    (h : repeatStep (separatedStep item separator) found s = .ok values s') :
    ∃ others : List Phrase, values = found.reverse ++ others.map meaning ∧
      s.cursor.Passes ((others.map tokens).flatMap (separator :: ·)) s'.cursor := by
  refine repeatStep_ok (motive := fun found s values s' => ∃ others : List Phrase,
    values = found.reverse ++ others.map meaning ∧
      s.cursor.Passes ((others.map tokens).flatMap (separator :: ·)) s'.cursor) ?_ ?_ h
  · intro found s values s' h
    obtain ⟨b, s₁, hc, h⟩ := bind_ok h
    rcases consume_ok hc hs with ⟨rfl, -⟩ | ⟨rfl, rfl⟩
    · obtain ⟨_, _, -, h⟩ := bind_ok h
      cases h
    · cases h
      exact ⟨[], (List.append_nil _).symm, .refl _⟩
  · rintro found s found' s₂ values s' h ⟨others, rfl, h₃⟩
    obtain ⟨b, s₁, hc, h⟩ := bind_ok h
    rcases consume_ok hc hs with ⟨rfl, h₁⟩ | ⟨rfl, rfl⟩
    · obtain ⟨a, s₂, hi, h⟩ := bind_ok h
      cases h
      obtain ⟨phrase, rfl, h₂⟩ := hitem hi
      refine ⟨phrase :: others, ?_, h₁.trans (h₂.trans h₃)⟩
      rw [List.reverse_cons, List.append_assoc, List.map_cons]
      rfl
    · cases h

/-- A separated list that was read is made of items and separators. -/
theorem separated_ok {separator : Token} (hs : separator ≠ .eof)
    (hitem : ∀ {s s' : State} {a : α}, item s = .ok a s' →
      ∃ phrase, meaning phrase = a ∧ s.cursor.Passes (tokens phrase) s'.cursor)
    {values : List α} (h : separated item separator s = .ok values s') :
    ∃ first others, values = (first :: others).map meaning ∧
      s.cursor.Passes (joined separator ((first :: others).map tokens)) s'.cursor := by
  rw [separated_eq] at h
  obtain ⟨a, s₁, hf, h⟩ := bind_ok h
  obtain ⟨first, rfl, h₁⟩ := hitem hf
  obtain ⟨others, rfl, h₂⟩ := separatedStep_ok hs hitem h
  exact ⟨first, others, rfl, h₁.trans h₂⟩

/-- The items behind the first are read, each behind a separator, up to another token. -/
theorem separatedStep_reads {separator : Token} (hs : separator ≠ .eof)
    (hitem : ∀ (phrase : Phrase) {s : State} {rest : List Token},
      s.cursor.ahead = tokens phrase ++ rest → Reads item s (tokens phrase) rest (meaning phrase))
    (hr : rest.headD .eof ≠ separator) (others : List Phrase) (found : List α)
    (h : s.cursor.ahead = (others.map tokens).flatMap (separator :: ·) ++ rest) :
    Reads (repeatStep (separatedStep item separator) found) s
      ((others.map tokens).flatMap (separator :: ·)) rest
      (found.reverse ++ others.map meaning) := by
  induction others generalizing s found with
  | nil =>
    have hp : s.cursor.peek ≠ separator := peek_eq_headD h ▸ hr
    refine repeatStep_last ⟨s, ?_, .refl _, h⟩
    rw [separatedStep, run_bind (consume_miss hp), List.map_nil, List.append_nil]
    rfl
  | cons phrase others ih =>
    rw [List.map_cons, List.flatMap_cons, List.append_assoc] at h
    obtain ⟨s₁, hc, h₁, ha₁⟩ := consume_reads h hs
    obtain ⟨s₂, hi, h₂, ha₂⟩ := hitem phrase ha₁
    have hstep : Reads (separatedStep item separator found) s (separator :: tokens phrase)
        ((others.map tokens).flatMap (separator :: ·) ++ rest)
        (.inl (meaning phrase :: found)) := by
      refine ⟨s₂, ?_, h₁.trans h₂, ha₂⟩
      rw [separatedStep, run_bind hc]
      exact run_bind hi
    have hall := repeatStep_again hstep (List.cons_ne_nil _ _) fun _ _ ha =>
      ih (meaning phrase :: found) ha
    rw [List.reverse_cons, List.append_assoc] at hall
    exact hall

/-- A separated list is read where it stands, if no separator follows it. -/
theorem separated_reads {separator : Token} (hs : separator ≠ .eof)
    (hitem : ∀ (phrase : Phrase) {s : State} {rest : List Token},
      s.cursor.ahead = tokens phrase ++ rest → Reads item s (tokens phrase) rest (meaning phrase))
    (hr : rest.headD .eof ≠ separator) {first : Phrase} {others : List Phrase}
    (h : s.cursor.ahead = joined separator ((first :: others).map tokens) ++ rest) :
    Reads (separated item separator) s (joined separator ((first :: others).map tokens)) rest
      ((first :: others).map meaning) := by
  rw [List.map_cons, joined, List.append_assoc] at h
  obtain ⟨s₁, hf, h₁, ha⟩ := hitem first h
  obtain ⟨s₂, ho, h₂, ha₂⟩ := separatedStep_reads hs hitem hr others [meaning first] ha
  refine ⟨s₂, ?_, h₁.trans h₂, ha₂⟩
  rw [separated_eq, run_bind hf]
  exact ho

/-- The items up to the closing parenthesis were read, with commas between them. -/
theorem closedStep_ok {Good : Phrase → Prop} {expectation : Expectation}
    (hitem : ∀ {s s' : State} {a : α}, s.cursor.Closed → item s = .ok a s' →
      ∃ phrase, Good phrase ∧ meaning phrase = a ∧ s.cursor.Passes (tokens phrase) s'.cursor)
    {found values : List α} (hc : s.cursor.Closed)
    (h : repeatStep (closedStep item expectation) found s = .ok values s') :
    ∃ first others, (∀ phrase ∈ first :: others, Good phrase) ∧
      values = found.reverse ++ (first :: others).map meaning ∧
      s.cursor.Passes (joined .comma ((first :: others).map tokens) ++ [.rightParen])
        s'.cursor := by
  revert hc
  refine repeatStep_ok (motive := fun found s values s' => s.cursor.Closed →
    ∃ first others, (∀ phrase ∈ first :: others, Good phrase) ∧
      values = found.reverse ++ (first :: others).map meaning ∧
      s.cursor.Passes (joined .comma ((first :: others).map tokens) ++ [.rightParen])
        s'.cursor) ?_ ?_ h
  · intro found s values s' h hc
    obtain ⟨a, s₁, hi, h⟩ := bind_ok h
    obtain ⟨phrase, hg, rfl, h₁⟩ := hitem hc hi
    obtain ⟨b, s₂, hr, h⟩ := bind_ok h
    rcases consume_ok hr (by decide) with ⟨rfl, h₂⟩ | ⟨rfl, rfl⟩
    · cases h
      refine ⟨phrase, [], List.forall_mem_singleton.mpr hg, List.reverse_cons, ?_⟩
      rw [List.map_singleton, joined, List.flatMap_nil, List.append_nil]
      exact h₁.trans h₂
    · obtain ⟨b, s₃, hm, h⟩ := bind_ok h
      rcases consume_ok hm (by decide) with ⟨rfl, -⟩ | ⟨rfl, rfl⟩
      · cases h
      · exact (reject_ok h).elim
  · intro found s found' s₃ values s' h ih hc
    obtain ⟨a, s₁, hi, h⟩ := bind_ok h
    obtain ⟨phrase, hg, rfl, h₁⟩ := hitem hc hi
    obtain ⟨b, s₂, hr, h⟩ := bind_ok h
    rcases consume_ok hr (by decide) with ⟨rfl, -⟩ | ⟨rfl, rfl⟩
    · cases h
    · obtain ⟨b, s₂, hm, h⟩ := bind_ok h
      rcases consume_ok hm (by decide) with ⟨rfl, h₂⟩ | ⟨rfl, rfl⟩
      · cases h
        obtain ⟨first, others, ha, rfl, h₃⟩ := ih (h₂.closed (h₁.closed hc))
        refine ⟨phrase, first :: others, List.forall_mem_cons.mpr ⟨hg, ha⟩, ?_, ?_⟩
        · rw [List.reverse_cons, List.append_assoc]
          rfl
        · rw [List.map_cons, List.map_cons, joined_cons_cons, List.append_assoc]
          exact h₁.trans (h₂.trans h₃)
      · exact (reject_ok h).elim

/-- A list that was read up to its closing parenthesis is made of items and commas. -/
theorem closedList_ok {Good : Phrase → Prop} {expectation : Expectation}
    (hitem : ∀ {s s' : State} {a : α}, s.cursor.Closed → item s = .ok a s' →
      ∃ phrase, Good phrase ∧ meaning phrase = a ∧ s.cursor.Passes (tokens phrase) s'.cursor)
    {values : List α} (hc : s.cursor.Closed) (h : closedList item expectation s = .ok values s') :
    ∃ phrases : List Phrase, (∀ phrase ∈ phrases, Good phrase) ∧ values = phrases.map meaning ∧
      s.cursor.Passes (joined .comma (phrases.map tokens) ++ [.rightParen]) s'.cursor := by
  rw [closedList_eq] at h
  obtain ⟨first, others, hg, hv, h₁⟩ := closedStep_ok hitem hc h
  exact ⟨first :: others, hg, hv, h₁⟩

/-- A list goes on behind an item that is read and has a comma behind it. -/
theorem closedStep_goesOn (expectation : Expectation) (found : List α) {a : α}
    (hi : Reads item s ts (.comma :: rest) a) :
    Reads (closedStep item expectation found) s (ts ++ [.comma]) rest (.inl (a :: found)) := by
  obtain ⟨s₁, hi, h₁, ha₁⟩ := hi
  have hp : s₁.cursor.peek ≠ .rightParen := by
    rw [Cursor.peek_of_ahead ha₁]
    decide
  obtain ⟨s₂, hm, h₂, ha₂⟩ := consume_reads ha₁ (by decide)
  refine ⟨s₂, ?_, h₁.trans h₂, ha₂⟩
  rw [closedStep, run_bind hi, run_bind (consume_miss hp)]
  exact run_bind hm

/-- The items up to the closing parenthesis are read where they stand. -/
theorem closedStep_reads {expectation : Expectation} {count : Nat} {first : Phrase}
    {others : List Phrase}
    (hitem : ∀ phrase ∈ first :: others, ∀ {s : State} {rest : List Token}, s.nesting = count →
      rest.headD .eof = .comma ∨ rest.headD .eof = .rightParen →
      s.cursor.ahead = tokens phrase ++ rest → Reads item s (tokens phrase) rest (meaning phrase))
    (found : List α) (hs : s.nesting = count)
    (h : s.cursor.ahead =
      joined .comma ((first :: others).map tokens) ++ .rightParen :: rest) :
    Reads (repeatStep (closedStep item expectation) found) s
      (joined .comma ((first :: others).map tokens) ++ [.rightParen]) rest
      (found.reverse ++ (first :: others).map meaning) := by
  induction others generalizing s first found with
  | nil =>
    rw [List.map_singleton, joined, List.flatMap_nil, List.append_nil] at h ⊢
    obtain ⟨s₁, hi, h₁, ha₁⟩ := hitem first List.mem_cons_self hs (.inr rfl) h
    obtain ⟨s₂, hr, h₂, ha₂⟩ := consume_reads ha₁ (by decide)
    refine repeatStep_last ⟨s₂, ?_, h₁.trans h₂, ha₂⟩
    rw [closedStep, run_bind hi, run_bind hr, List.map_singleton, ← List.reverse_cons]
    rfl
  | cons second others ih =>
    rw [List.map_cons, List.map_cons, joined_cons_cons, List.append_assoc] at h
    have hstep := closedStep_goesOn expectation found
      (hitem first List.mem_cons_self hs (.inl rfl) h)
    have hne : tokens first ++ [.comma] ≠ [] :=
      List.append_ne_nil_of_right_ne_nil _ (List.cons_ne_nil _ _)
    have hall := repeatStep_again hstep hne
      fun _ hn ha => ih (fun phrase hp => hitem phrase (List.mem_cons_of_mem _ hp))
        (meaning first :: found) (hn.trans hs) ha
    rw [List.reverse_cons, List.append_assoc, List.append_assoc] at hall
    rw [List.map_cons, List.map_cons, joined_cons_cons, List.append_assoc]
    exact hall

/-- A list of at least one item is read up to its closing parenthesis. -/
theorem closedList_reads {expectation : Expectation} {count : Nat} {phrases : List Phrase}
    (hitem : ∀ phrase ∈ phrases, ∀ {s : State} {rest : List Token}, s.nesting = count →
      rest.headD .eof = .comma ∨ rest.headD .eof = .rightParen →
      s.cursor.ahead = tokens phrase ++ rest → Reads item s (tokens phrase) rest (meaning phrase))
    (hp : phrases ≠ []) (hs : s.nesting = count)
    (h : s.cursor.ahead = joined .comma (phrases.map tokens) ++ .rightParen :: rest) :
    Reads (closedList item expectation) s (joined .comma (phrases.map tokens) ++ [.rightParen]) rest
      (phrases.map meaning) := by
  cases phrases with
  | nil => exact absurd rfl hp
  | cons first others => exact closedStep_reads hitem [] hs h

/-- What was read behind an opening parenthesis is made of items and commas and closed. -/
theorem listRest_ok {Good : Phrase → Prop} {expectation : Expectation}
    (hitem : ∀ {s s' : State} {a : α}, s.cursor.Closed → item s = .ok a s' →
      ∃ phrase, Good phrase ∧ meaning phrase = a ∧ s.cursor.Passes (tokens phrase) s'.cursor)
    {values : List α} (hc : s.cursor.Closed) (h : listRest item expectation s = .ok values s') :
    ∃ phrases : List Phrase, (∀ phrase ∈ phrases, Good phrase) ∧ values = phrases.map meaning ∧
      s.cursor.Passes (joined .comma (phrases.map tokens) ++ [.rightParen]) s'.cursor := by
  obtain ⟨found, s₁, hr, h⟩ := bind_ok h
  rcases consume_ok hr (by decide) with ⟨rfl, h₁⟩ | ⟨rfl, rfl⟩
  · obtain ⟨rfl, rfl⟩ := pure_ok h
    exact ⟨[], nofun, rfl, h₁⟩
  · exact closedList_ok hitem hc h

/-- A list behind an opening parenthesis is read where it stands, if no item begins with the
closing one. -/
theorem listRest_reads {expectation : Expectation} {count : Nat} {phrases : List Phrase}
    (hitem : ∀ phrase ∈ phrases, ∀ {s : State} {rest : List Token}, s.nesting = count →
      rest.headD .eof = .comma ∨ rest.headD .eof = .rightParen →
      s.cursor.ahead = tokens phrase ++ rest → Reads item s (tokens phrase) rest (meaning phrase))
    (hfirst : ∀ phrase rest, (tokens phrase ++ rest).headD .eof ≠ .rightParen)
    (hs : s.nesting = count)
    (h : s.cursor.ahead = joined .comma (phrases.map tokens) ++ .rightParen :: rest) :
    Reads (listRest item expectation) s (joined .comma (phrases.map tokens) ++ [.rightParen]) rest
      (phrases.map meaning) := by
  cases phrases with
  | nil =>
    obtain ⟨s₁, hr, h₁⟩ := consume_reads h (by decide)
    refine ⟨s₁, ?_, h₁⟩
    rw [listRest, run_bind hr]
    rfl
  | cons first others =>
    have hp : s.cursor.peek ≠ .rightParen := by
      rw [peek_eq_headD h, List.map_cons, joined, List.append_assoc]
      exact hfirst first _
    obtain ⟨s₁, hl, h₁⟩ := closedList_reads hitem (List.cons_ne_nil _ _) hs h
    refine ⟨s₁, ?_, h₁⟩
    rw [listRest, run_bind (consume_miss hp)]
    exact hl

end Lists

end SqlDdl.Grammar
