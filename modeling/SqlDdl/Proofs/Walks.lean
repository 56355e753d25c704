import SqlDdl.Cursor.Step
import SqlDdl.Proofs.Sessions

/-!
# Walks of a cursor

However requests are mixed, a cursor stays in its stream and no farther than behind its end. A
request that is not met leaves it as it was, with the permission to go back that it had, and a
run of keywords is passed over as a whole or not at all. A step back undoes the step forward
before it also at the end of the stream, where the one does not move the cursor and the other
does: the end of the input is seen from both places. A request that is refused ends a walk where
it was made.
-/

namespace SqlDdl.Cursor

/-- The cursor that a walk leaves. -/
def after (cursor : Cursor) (steps : List Step) : Cursor := (cursor.walk steps).left

/-- A walk and the rest of it from where it ended, unless it ended with a request that was
refused. -/
def Walk.andThen (walk rest : Walk) : Walk :=
  match walk.fault with
  | none => { rest with answers := walk.answers ++ rest.answers }
  | some _ => walk

/-- Whether an answer says that a request was not met. -/
def Answer.isMiss : Answer → Bool
  | .consumed false => true
  | .error _ => true
  | _ => false

/-- Whether a request only looks at the tokens. -/
def Step.looks : Step → Bool
  | .peek => true
  | .lookAhead _ => true
  | _ => false

/-- Every request of a walk is answered, and only looks at the tokens or is not met. -/
def Idles (cursor : Cursor) : List Step → Prop
  | [] => True
  | step :: steps => ∃ answer behind, cursor.perform step = .ok (answer, behind) ∧
      (step.looks = true ∨ answer.isMiss = true) ∧ behind.Idles steps

variable {cursor behind : Cursor} {stream : TokenStream} {step : Step} {steps : List Step}
  {answer : Answer} {fault : Fault}

/-- Behind a request that is answered the walk goes on. -/
theorem walk_cons (h : cursor.perform step = .ok (answer, behind)) :
    cursor.walk (step :: steps) = { behind.walk steps with
      answers := (answer, behind) :: (behind.walk steps).answers } := by
  rw [walk, h]

/-- A request that is refused ends the walk. -/
theorem walk_cons_fault (h : cursor.perform step = .error fault) :
    cursor.walk (step :: steps) = ⟨[], cursor, some fault⟩ := by
  rw [walk, h]

/-- More requests are made of the cursor that a walk leaves, unless it ended with a refusal. -/
theorem walk_append (cursor : Cursor) (steps more : List Step) :
    cursor.walk (steps ++ more) =
      (cursor.walk steps).andThen ((cursor.after steps).walk more) := by
  induction steps generalizing cursor with
  | nil => rfl
  | cons step steps ih =>
    rw [List.cons_append]
    cases hp : cursor.perform step with
    | error fault =>
      rw [walk_cons_fault hp, walk_cons_fault hp]
      rfl
    | ok result =>
      obtain ⟨answer, behind⟩ := result
      rw [after, walk_cons hp, walk_cons hp, ih, after, Walk.andThen, Walk.andThen]
      cases (behind.walk steps).fault <;> rfl

/-- A request that only looks at the tokens leaves the cursor as it is. -/
theorem perform_looks (hl : step.looks = true)
    (h : cursor.perform step = .ok (answer, behind)) : behind = cursor := by
  cases step with
  | peek =>
    cases h
    rfl
  | lookAhead n =>
    rw [perform] at h
    cases hn : cursor.lookAhead n with
    | error fault =>
      rw [hn] at h
      cases h
    | ok token =>
      rw [hn] at h
      cases h
      rfl
  | _ => cases hl

/-- A conditional step is met where something was found; else it leaves the cursor as it is. -/
theorem consumedOr_cases {found : Option Cursor} (h : cursor.consumedOr found = (answer, behind)) :
    behind = cursor ∨ answer.isMiss = false ∧ found = some behind := by
  cases found with
  | none =>
    cases h
    exact .inl rfl
  | some reached =>
    cases h
    exact .inr ⟨rfl, rfl⟩

/-- A required step is met where nothing else was found; else it leaves the cursor as it is. -/
theorem metOr_cases {result : Except Error Cursor}
    (h : cursor.metOr result = (answer, behind)) :
    behind = cursor ∨ answer.isMiss = false ∧ result = .ok behind := by
  cases result with
  | error error =>
    cases h
    exact .inl rfl
  | ok reached =>
    cases h
    exact .inr ⟨rfl, rfl⟩

/-- A token that is consumed is stepped over. -/
theorem eq_advance_of_consumeToken? {token : Token} (h : cursor.consumeToken? token = some behind) :
    behind = cursor.advance := by
  rw [consumeToken?] at h
  split at h
  · exact (Option.some.inj h).symm
  · cases h

/-- A token that is required and stands here is stepped over. -/
theorem eq_advance_of_expectToken {token : Token} (h : cursor.expectToken token = .ok behind) :
    behind = cursor.advance := by
  rw [expectToken] at h
  cases hc : cursor.consumeToken? token with
  | none =>
    rw [hc] at h
    cases h
  | some other =>
    rw [hc] at h
    cases h
    exact eq_advance_of_consumeToken? hc

/-- The ways in which a request that is met may move a cursor. -/
inductive Moves (cursor : Cursor) : Cursor → Prop where
  /-- By a step forward, which does not move it at the end of the stream. -/
  | forward : cursor.Moves cursor.advance
  /-- By a step back that is allowed. -/
  | back {behind : Cursor} (allowed : cursor.rewind = .ok behind) : cursor.Moves behind
  /-- Over tokens that stand ahead. -/
  | past {behind : Cursor} {tokens : List Token} (passes : cursor.Passes tokens behind) :
      cursor.Moves behind

/-- What an answered request does to the cursor: it stays as it is or is moved, and it stays where
the request is not met. That is so also for a run of keywords, which may have moved the cursor
before one was found missing. -/
theorem perform_cases (h : cursor.perform step = .ok (answer, behind)) :
    behind = cursor ∨ answer.isMiss = false ∧ cursor.Moves behind := by
  have hconsumed {token : Token}
      (hf : cursor.consumedOr (cursor.consumeToken? token) = (answer, behind)) :
      behind = cursor ∨ answer.isMiss = false ∧ cursor.Moves behind :=
    (consumedOr_cases hf).imp_right fun ⟨hmet, hreached⟩ =>
      ⟨hmet, eq_advance_of_consumeToken? hreached ▸ .forward⟩
  have hrequired {token : Token}
      (hr : cursor.metOr (cursor.expectToken token) = (answer, behind)) :
      behind = cursor ∨ answer.isMiss = false ∧ cursor.Moves behind :=
    (metOr_cases hr).imp_right fun ⟨hmet, hreached⟩ =>
      ⟨hmet, eq_advance_of_expectToken hreached ▸ .forward⟩
  cases step with
  | peek => exact .inl (perform_looks rfl h)
  | lookAhead n => exact .inl (perform_looks rfl h)
  | next =>
    cases h
    exact .inr ⟨rfl, .forward⟩
  | rewind =>
    rw [perform] at h
    cases hb : cursor.rewind with
    | error fault =>
      rw [hb] at h
      cases h
    | ok back =>
      rw [hb] at h
      cases h
      exact .inr ⟨rfl, .back hb⟩
  | consumeToken token => exact hconsumed (Except.ok.inj h)
  | consumeKeyword reserved => exact hconsumed (Except.ok.inj h)
  | consumeKeywords run =>
    -- Where a keyword was missing, the index and the permission are back by now.
    rw [perform, consumeKeywords_eq] at h
    cases hb : cursor.consumeKeywords? run with
    | none =>
      rw [hb] at h
      cases h
      exact .inl rfl
    | some reached =>
      rw [hb] at h
      cases h
      exact .inr ⟨rfl, .past (consumeKeywords?_passes hb)⟩
  | expectToken token => exact hrequired (Except.ok.inj h)
  | expectKeyword reserved => exact hrequired (Except.ok.inj h)
  | complain expectation found =>
    cases h
    exact .inl rfl

/-- A request that is not met leaves the cursor as it is. -/
theorem perform_miss (h : cursor.perform step = .ok (answer, behind))
    (hm : answer.isMiss = true) : behind = cursor := by
  obtain hstay | ⟨hmet, -⟩ := perform_cases h
  · exact hstay
  · cases hm.symm.trans hmet

/-- A walk that only looks and misses is answered to its end and leaves the cursor as it is. -/
theorem walk_of_idles (h : cursor.Idles steps) :
    (cursor.walk steps).fault = none ∧ (cursor.walk steps).left = cursor := by
  induction steps generalizing cursor with
  | nil => exact ⟨rfl, rfl⟩
  | cons step steps ih =>
    obtain ⟨answer, behind, hp, hidle, hsteps⟩ := h
    have hstay : behind = cursor := by
      rcases hidle with hlooks | hmiss
      · exact perform_looks hlooks hp
      · exact perform_miss hp hmiss
    subst hstay
    rw [walk_cons hp]
    exact ih hsteps

/-- A cursor stands in the stream that it was made for, closed if it was not. -/
structure Within (cursor : Cursor) (stream : TokenStream) : Prop where
  /-- The stream is the given one, with an end of the input behind it if it had none. -/
  stream_eq : cursor.stream = (ofStream stream).stream
  /-- The cursor stands in the stream or at its end. -/
  index_le : cursor.index ≤ cursor.stream.size

namespace Within

/-- The stream that a cursor stands in ends with the end of the input. -/
theorem closed (h : cursor.Within stream) : cursor.stream.Closed := by
  rw [h.stream_eq]
  exact closed_stream_ofStream stream

/-- A new cursor stands in its stream. -/
theorem ofStream (stream : TokenStream) : (Cursor.ofStream stream).Within stream where
  stream_eq := rfl
  index_le := Nat.zero_le _

/-- A step forward stays in the stream. -/
theorem advance (h : cursor.Within stream) : cursor.advance.Within stream where
  stream_eq := h.stream_eq
  index_le := by
    have hle := h.index_le
    simp only [Cursor.advance]
    split <;> omega

/-- A passage over tokens stays in the stream. -/
theorem passes {behind : Cursor} {ts : List Token} (h : cursor.Within stream)
    (hp : cursor.Passes ts behind) : behind.Within stream where
  stream_eq := hp.stream.trans h.stream_eq
  index_le := by
    have hle := h.index_le
    have hlength := congrArg List.length hp.ahead
    rw [List.length_append, ahead, List.length_drop, ← TokenStream.size_eq_length] at hlength
    rw [hp.index, hp.stream]
    omega

/-- A step back stays in the stream. -/
theorem rewind {back : Cursor} (h : cursor.Within stream) (hb : cursor.rewind = .ok back) :
    back.Within stream := by
  rw [Cursor.rewind] at hb
  split at hb
  · cases hb
    exact ⟨h.stream_eq, Nat.le_trans (Nat.sub_le _ _) h.index_le⟩
  · cases hb

/-- Every move stays in the stream. -/
theorem moves (h : cursor.Within stream) (hm : cursor.Moves behind) : behind.Within stream := by
  cases hm with
  | forward => exact h.advance
  | back allowed => exact h.rewind allowed
  | past passes => exact h.passes passes

/-- Every request that is answered leaves the cursor in the stream. -/
theorem perform (h : cursor.Within stream) (hp : cursor.perform step = .ok (answer, behind)) :
    behind.Within stream := by
  obtain rfl | ⟨-, hmoves⟩ := perform_cases hp
  · exact h
  · exact h.moves hmoves

/-- Every walk leaves the cursor in the stream. -/
theorem after (h : cursor.Within stream) (steps : List Step) :
    (cursor.after steps).Within stream := by
  induction steps generalizing cursor with
  | nil => exact h
  | cons step steps ih =>
    rw [Cursor.after]
    cases hp : cursor.perform step with
    | error fault =>
      rw [walk_cons_fault hp]
      exact h
    | ok result =>
      obtain ⟨answer, behind⟩ := result
      rw [walk_cons hp]
      exact ih (h.perform hp)

end Within

/-- A run of keywords is consumed exactly if it stands ahead. -/
theorem consumed_iff {run : List Keyword} :
    (∃ behind, cursor.perform (.consumeKeywords run) = .ok (.consumed true, behind)) ↔
      run.map .keyword <+: cursor.ahead := by
  rw [perform, consumeKeywords_eq]
  constructor
  · rintro ⟨behind, h⟩
    cases hb : cursor.consumeKeywords? run with
    | none =>
      rw [hb] at h
      cases h
    | some reached => exact ⟨reached.ahead, (consumeKeywords?_passes hb).ahead.symm⟩
  · rintro ⟨rest, hrest⟩
    obtain ⟨behind, hb⟩ := consumeKeywords?_of_ahead hrest.symm
    rw [hb]
    exact ⟨behind, rfl⟩

/-- A run of keywords that is consumed moves the cursor by as many tokens. -/
theorem index_of_consumed {run : List Keyword}
    (h : cursor.perform (.consumeKeywords run) = .ok (.consumed true, behind)) :
    behind.index = cursor.index + run.length := by
  rw [perform, consumeKeywords_eq] at h
  cases hb : cursor.consumeKeywords? run with
  | none =>
    rw [hb] at h
    cases h
  | some reached =>
    rw [hb] at h
    cases h
    have hindex := (consumeKeywords?_passes hb).index
    rwa [List.length_map] at hindex

/-- A cursor sees what another one sees, from no farther on. -/
structure SeesLike (back cursor : Cursor) : Prop where
  /-- It stands no farther on. -/
  index_le : back.index ≤ cursor.index
  /-- Every token ahead of it is the same. -/
  peekNth : ∀ n, back.peekNth n = cursor.peekNth n
  /-- The place of its current token is the same. -/
  position : back.position = cursor.position

/-- What is seen from farther on is seen in the same way. -/
theorem SeesLike.lookAhead {back : Cursor} (h : back.SeesLike cursor) {n : Nat} {token : Token}
    (hlook : cursor.lookAhead n = .ok token) : back.lookAhead n = .ok token := by
  rw [Cursor.lookAhead] at hlook ⊢
  have hle := h.index_le
  split at hlook
  · rw [if_pos (by omega), h.peekNth]
    exact hlook
  · cases hlook

/-- Behind the last token of a closed stream the same is seen as from that token. -/
theorem seesLike_atEnd {back : Cursor} (hclosed : cursor.stream.Closed)
    (hend : cursor.index = cursor.stream.size) (hstream : back.stream = cursor.stream)
    (hback : back.index = cursor.index - 1) : back.SeesLike cursor where
  index_le := by omega
  peekNth n := by
    have hbehind : ∀ k, cursor.stream.size ≤ k → cursor.stream.get? k = none := by
      intro k hk
      rw [TokenStream.size_eq_length] at hk
      rw [TokenStream.get?_eq_tokens, List.getElem?_eq_none hk]
    have hcursor : cursor.stream.get? (cursor.index + n) = none := hbehind _ (by omega)
    rw [Cursor.peekNth, Cursor.peekNth, hstream, hcursor, hback, hend]
    cases n with
    | zero => rw [Nat.add_zero, hclosed.get?_last, Option.getD_some, Option.getD_none]
    | succ n => rw [hbehind _ (by omega)]
  position := by
    have hnone : cursor.stream.entries[cursor.stream.size]? = none :=
      Array.getElem?_eq_none (Nat.le_refl _)
    have hlast : cursor.stream.entries[cursor.stream.size - 1]? = cursor.stream.entries.back? :=
      Array.back?_eq_getElem?.symm
    rw [Cursor.position, Cursor.position, hstream, hback, hend, TokenStream.position,
      TokenStream.position, hnone, hlast]
    cases cursor.stream.entries.back? <;> rfl

/-- A step back undoes a step forward as far as can be seen. -/
theorem Within.rewind_advance (h : cursor.Within stream) :
    ∃ back, cursor.advance.rewind = .ok back ∧ back.SeesLike cursor := by
  refine ⟨_, if_pos rfl, ?_⟩
  by_cases hi : cursor.index < cursor.stream.size
  · have hindex : cursor.advance.index - 1 = cursor.index := by
      simp only [Cursor.advance, if_pos hi, Nat.add_sub_cancel]
    refine ⟨Nat.le_of_eq hindex, fun n => ?_, ?_⟩
    · rw [Cursor.peekNth, Cursor.peekNth, hindex]
      rfl
    · rw [Cursor.position, Cursor.position, hindex]
      rfl
  · have hend : cursor.index = cursor.stream.size := Nat.le_antisymm h.index_le (Nat.not_lt.mp hi)
    refine seesLike_atEnd h.closed hend rfl ?_
    rw [Cursor.advance, if_neg hi]

/-- Whatever was requested of a cursor, it stands in the stream that it was made for, which ends
with the end of the input, and no farther than behind it. A request that is not met leaves it as it
is. A run of keywords is consumed exactly if it stands ahead, and then the cursor goes over it. A
step back behind a step forward, and behind further requests that only look or are not met, is
allowed and leaves a cursor that sees what was seen before the step forward. -/
theorem after_ofStream (stream : TokenStream) (steps : List Step) :
    let cursor := (ofStream stream).after steps
    (∀ more, (ofStream stream).walk (steps ++ more) =
      ((ofStream stream).walk steps).andThen (cursor.walk more)) ∧
    (cursor.stream = (ofStream stream).stream ∧ cursor.stream.tokens.getLast? = some .eof ∧
      cursor.index ≤ cursor.stream.size) ∧
    (∀ step answer behind, cursor.perform step = .ok (answer, behind) → answer.isMiss = true →
      behind = cursor) ∧
    (∀ run : List Keyword,
      ((∃ behind, cursor.perform (.consumeKeywords run) = .ok (.consumed true, behind)) ↔
        run.map .keyword <+: cursor.stream.tokens.drop cursor.index) ∧
      ∀ behind, cursor.perform (.consumeKeywords run) = .ok (.consumed true, behind) →
        behind.index = cursor.index + run.length) ∧
    ∀ between, (cursor.after [.next]).Idles between →
      let back := cursor.after (.next :: (between ++ [.rewind]))
      (cursor.walk (.next :: (between ++ [.rewind]))).fault = none ∧ back.peek = cursor.peek ∧
        (∀ n token, cursor.lookAhead n = .ok token → back.lookAhead n = .ok token) ∧
        back.position = cursor.position := by
  intro cursor
  have hwithin : cursor.Within stream := (Within.ofStream stream).after steps
  refine ⟨walk_append _ steps,
    ⟨hwithin.stream_eq, hwithin.closed, hwithin.index_le⟩, fun _ _ _ => perform_miss,
    fun run => ⟨consumed_iff, fun _ => index_of_consumed⟩, ?_⟩
  intro between hidles
  obtain ⟨hanswered, hstay⟩ := walk_of_idles hidles
  obtain ⟨reached, hreached, hsees⟩ := hwithin.rewind_advance
  have hrewind : cursor.advance.perform .rewind = .ok (.done, reached) := by
    rw [perform, hreached]
    rfl
  have hnext : cursor.perform .next = .ok (.token cursor.peek, cursor.advance) := rfl
  have hwalk : cursor.advance.walk (between ++ [.rewind]) =
      ⟨(cursor.advance.walk between).answers ++ [(.done, reached)], reached, none⟩ := by
    have hback : cursor.advance.walk [.rewind] = ⟨[(.done, reached)], reached, none⟩ :=
      walk_cons hrewind
    have hthere : cursor.after [.next] = cursor.advance := rfl
    rw [hthere] at hanswered hstay
    rw [walk_append, Walk.andThen, hanswered, after, hstay, hback]
  intro back
  have hback : back = reached := by
    have hleft : back = (cursor.advance.walk (between ++ [.rewind])).left := rfl
    rw [hleft, hwalk]
  have hfault : (cursor.walk (.next :: (between ++ [.rewind]))).fault = none := by
    rw [walk_cons hnext, hwalk]
  rw [hback]
  exact ⟨hfault, hsees.peekNth 0, fun n token => hsees.lookAhead, hsees.position⟩

/-- Behind the end a step forward does not move the cursor, but the step back does, also behind
keywords that are asked for in vain: the end is seen again. -/
theorem after_ofStream_atEnd :
    let cursor := (ofStream .empty).after [.next]
    let between : List Step := [.consumeKeywords [.create, .table], .expectToken .comma, .peek]
    let back := cursor.after (.next :: (between ++ [.rewind]))
    cursor.index = 1 ∧ (cursor.after [.next]).index = 1 ∧ (cursor.after [.next]).Idles between ∧
      (cursor.walk (.next :: (between ++ [.rewind]))).fault = none ∧ back.index = 0 ∧
      back.peek = cursor.peek ∧ back.position = cursor.position := by
  intro cursor between back
  have hidles : (cursor.after [.next]).Idles between :=
    ⟨_, _, rfl, .inr rfl, _, _, rfl, .inr rfl, _, _, rfl, .inl rfl, trivial⟩
  obtain ⟨-, -, -, -, hwalk⟩ := after_ofStream .empty [.next]
  obtain ⟨hfault, hpeek, -, hposition⟩ := hwalk between hidles
  exact ⟨by decide, by decide, hidles, hfault, by decide, hpeek, hposition⟩

end SqlDdl.Cursor
