import SqlDdl.Proofs.Laws
import SqlDdl.Proofs.Sessions
import SqlDdl.Proofs.Stops

/-!
# Steps back

The grammar goes back by one token in two places: behind a word in an expression, which is
then read as a name, and behind a token that begins no table constraint. Each time it has
just read that token. A step forward does not move at the end of the stream, and a step back
behind it would lead elsewhere; but an end of the input lies ahead wherever the two places
are entered, so the steps forward do move. The grammar is read with the plain step back. With
one that checks where it is made it reads the same, so that no check ever fails.
-/

namespace SqlDdl.Grammar

namespace Retreat

/-- A step back behind a token that was read from a cursor on, with all that is expected of it
checked: it is allowed, it is made from where reading the token led, reading the token moved on by
one index, and the index before it is that of the cursor now. Where a check fails, `broken` takes
over. -/
def checkedBack (broken : Reading Unit) (start : Cursor) : Reading Unit := fun s =>
  match s.cursor.rewind with
  | .ok cursor =>
    if s.cursor = start.advance ∧ s.cursor.index = start.index + 1 ∧ cursor.index = start.index
    then .ok () { s with cursor := cursor }
    else broken s
  | .error _ => broken s

/-- Where a table constraint was looked for from a cursor on and not found, the index is checked to
be the same as before. Where it is not, `broken` takes over. -/
def checkedAbsent (broken : Reading Unit) (start : Cursor) : Reading Unit := fun s =>
  if s.cursor.index = start.index then .ok () s else broken s

/-- Going back with the checks. -/
@[reducible]
def checked (broken : Reading Unit) : Retreat where
  back := checkedBack broken
  absent := checkedAbsent broken

end Retreat

/-- Where the end of the input lies ahead, it still does behind a value. -/
def Law.closing : Law where
  begins s := s.cursor.Closed
  gives _ s' := s'.cursor.Closed
  fails _ _ _ := True
  stays hc := hc
  begins_behind _ hgives := hgives
  gives_behind _ hmore := hmore
  fails_behind _ _ := trivial
  stalls _ := trivial

variable {α : Type} {settings : Settings} {broken : Reading Unit} {s : State}
  {spelled : List Token → Prop}

/-- A reading that spells some tokens does not pass over the end of the input. -/
theorem Spells.closing {p : Reading α} (h : Spells p spelled) : Obeys .closing p := by
  intro s hc
  cases hrun : p s with
  | ok a s' =>
    obtain ⟨ts, -, hpass⟩ := h hc hrun
    exact hpass.closed hc
  | error failure s' => trivial

/-- A conditional step on another token than the end of the input does not pass over that end. -/
theorem consume_closing {token : Token} (ht : token ≠ .eof) : Obeys .closing (consume token) := by
  intro s hc
  obtain ⟨found, s', hrun⟩ := consume_total token s
  rw [hrun]
  rcases consume_ok hrun ht with ⟨-, hpass⟩ | ⟨-, rfl⟩
  · exact hpass.closed hc
  · exact hc

/-- What stands behind an item of a list is read up to the end of the input. -/
theorem afterItem_closing (expectation : Expectation) (found : List α) :
    Obeys .closing (afterItem expectation found) :=
  .afterItem_of (consume_closing (by decide)) (consume_closing (by decide)) (fun _ _ => trivial)
    found

/-- A table constraint does not pass over the end of the input. -/
theorem tableConstraint_closing : Obeys .closing (tableConstraint settings) := by
  intro s hc
  cases hrun : tableConstraint settings s with
  | error failure s' => trivial
  | ok result s' =>
    have hspelled := tableConstraint_ok hc hrun
    cases result with
    | found declared =>
      obtain ⟨name, phrase, attributes, -, -, hpass⟩ := hspelled
      exact hpass.closed hc
    | discarded =>
      obtain ⟨name, hpass⟩ := hspelled
      exact hpass.closed hc
    | absent => exact Cursor.Passes.closed hspelled hc

/-- A step through the options of a column does not pass over the end of the input. -/
theorem columnStep_closing (found : List NamedOption) :
    Obeys .closing (columnStep settings found) := by
  intro s hc
  cases hrun : columnStep settings found s with
  | error failure s' => trivial
  | ok result s' =>
    rcases columnStep_ok hc hrun with ⟨-, rfl⟩ | ⟨phrase, -, -, -, hpass⟩
    · exact hc
    · exact hpass.closed hc

/-- Behind a token that was read, two readings do the same if they do before the end of the input,
and are the same behind it. -/
theorem Agrees.next_bind {f g : Token → Reading α}
    (h : ∀ token, token ≠ .eof → Agrees .closing (f token) (g token)) (hend : f .eof = g .eof) :
    Agrees .closing (next >>= f) (next >>= g) := by
  intro s hc
  obtain ⟨token, rest, ha⟩ := Cursor.Closed.ahead_eq hc
  have hn := run_next ha
  rw [run_bind hn, run_bind hn]
  by_cases ht : token = .eof
  · rw [ht, hend]
  · have hpass : s.cursor.Passes [token] s.cursor.advance := .advance ha ht
    exact h token ht _ (hpass.closed hc)

namespace Retreat

/-- Where a token was read before the end of the input, the checks of a step back behind it are met,
and the step leads back. -/
theorem checked_back {token : Token} {rest : List Token} {f g : Unit → Reading α}
    (ha : s.cursor.ahead = token :: rest)
    (h : f () { s with cursor := { s.cursor with rewindable := false } } =
      g () { s with cursor := { s.cursor with rewindable := false } }) :
    (checkedBack broken s.cursor >>= f) { s with cursor := s.cursor.advance } =
      (rewind >>= g) { s with cursor := s.cursor.advance } := by
  have hindex : s.cursor.advance.index = s.cursor.index + 1 :=
    if_pos (Cursor.index_lt_of_ahead ha)
  have hchecked : checkedBack broken s.cursor { s with cursor := s.cursor.advance } =
      .ok () { s with cursor := { s.cursor with rewindable := false } } := by
    simp only [checkedBack, Cursor.rewind_advance ha, hindex, and_self, if_true]
  rw [run_bind hchecked, run_bind (run_rewind ha)]
  exact h

/-- What one level of an expression holds is read the same with checks, if what it nests is. -/
theorem agrees_operand {inner inner' : Reading Expression} (h : Agrees .closing inner inner')
    (hi : Spells inner' spelled) :
    Agrees .closing (@operand (checked broken) settings inner) (operand settings inner') := by
  intro s hc
  obtain ⟨token, rest, ha⟩ := Cursor.Closed.ahead_eq hc
  have hn := run_next ha
  have hread : token ≠ .eof → s.cursor.advance.Closed := fun ht =>
    (Cursor.Passes.advance ha ht).closed hc
  unfold operand
  rw [run_here, run_here, run_bind hn, run_bind hn]
  cases token with
  | keyword keyword => cases keyword <;> rfl
  | minus => exact h.bind_left _ (hread (by decide))
  | leftParen => exact h.bind_left _ (hread (by decide))
  | word word =>
    have hname : Obeys .closing (identifier settings .identifier) :=
      Spells.closing (spells_identifier _)
    have harguments : Agrees .closing (arguments inner) (arguments inner') :=
      .bind_right (consume_closing (by decide)) fun _ =>
        .ite (.refl _) (h.closedList hi.closing (afterItem_closing _))
    refine checked_back ha ?_
    refine Agrees.bind_right hname (fun name => ?_) _ hc
    exact .bind_right (consume_closing (by decide)) fun _ =>
      .ite harguments.bind_left (.refl _)
  | _ => rfl

/-- A level of its own is read the same if what it holds is. -/
theorem agrees_nested {level level' : Reading Expression} (h : Agrees .closing level level') :
    Agrees .closing (nested settings level) (nested settings level') := by
  intro s hc
  rw [nested, nested, h { s with nesting := s.nesting + 1 } hc]

/-- An expression is read the same with checks. -/
theorem agrees_expressionWithin (levels : Nat) :
    Agrees .closing (@expressionWithin (checked broken) settings levels)
      (expressionWithin settings levels) := by
  induction levels with
  | zero => exact .refl _
  | succ levels ih =>
    exact agrees_nested (agrees_operand ih (spells_expressionWithin levels))

/-- An option of a column is read the same with checks. -/
theorem agrees_columnOption :
    Agrees .closing (@columnOption (checked broken) settings) (columnOption settings) := by
  refine .bind_right spells_constraintName?.closing fun name => ?_
  refine .next_bind (fun token _ => ?_) rfl
  cases token with
  | keyword keyword =>
    cases keyword with
    | default => exact (agrees_expressionWithin _).bind_left
    | _ => exact .refl _
  | _ => exact .refl _

/-- A step through the options of a column is read the same with checks. -/
theorem agrees_columnStep (found : List NamedOption) :
    Agrees .closing (@columnStep (checked broken) settings found) (columnStep settings found) :=
  .bind_right .peek fun _ => .ite (.refl _)
    (.bind_right .position fun _ => agrees_columnOption.bind_left)

/-- A column is read the same with checks. -/
theorem agrees_columnEntry :
    Agrees .closing (@columnEntry (checked broken) settings) (columnEntry settings) := by
  have hname : Obeys .closing (identifier settings .columnName) :=
    Spells.closing (spells_identifier _)
  refine .bind_right hname fun name => ?_
  refine .bind_right spells_dataType.closing fun dataType => ?_
  refine .bind_right spells_collation?.closing fun collation => ?_
  exact (Agrees.repeatStep agrees_columnStep columnStep_closing []).bind_left

/-- A table constraint is read the same with checks. Where none is found the index is that where
it was looked for. -/
theorem agrees_tableConstraint :
    Agrees .closing (@tableConstraint (checked broken) settings) (tableConstraint settings) := by
  intro s hc
  unfold tableConstraint
  rw [run_here, run_here]
  cases hname : constraintName? settings s with
  | error failure s₁ => rw [run_bind_error hname, run_bind_error hname]
  | ok name s₁ =>
    obtain ⟨phrase, hphrase, hpass⟩ := constraintName?_ok hname
    obtain ⟨token, rest, ha⟩ := (hpass.closed hc).ahead_eq
    have hn := run_next ha
    -- Without a name nothing was read before the token, so the check of the index is met.
    have habsent : ∀ other : Token,
        (if name.isSome then rejectRead .namedConstraint other
          else do
            checkedBack broken s₁.cursor
            checkedAbsent broken s.cursor
            return TableConstraint.absent) { s₁ with cursor := s₁.cursor.advance } =
        (if name.isSome then rejectRead .namedConstraint other
          else do
            rewind
            return TableConstraint.absent) { s₁ with cursor := s₁.cursor.advance } := by
      intro other
      cases phrase with
      | some given =>
        rw [← hphrase]
        rfl
      | none =>
        rw [← hphrase]
        have hindex : s₁.cursor.index = s.cursor.index := hpass.index
        exact checked_back ha (run_bind (if_pos hindex))
    rw [run_bind hname, run_bind hname, run_here, run_here, run_bind hn, run_bind hn]
    cases token with
    | keyword keyword =>
      cases keyword with
      | not => rfl
      | null => rfl
      | primary => rfl
      | unique => rfl
      | foreign => rfl
      | check => rfl
      | _ => exact habsent _
    | _ => exact habsent _

/-- An entry of a table is read the same with checks. -/
theorem agrees_tableEntry :
    Agrees .closing (@tableEntry (checked broken) settings) (tableEntry settings) := by
  have hconstraint : ∀ f : TableConstraint → Reading TableEntry,
      Agrees .closing (@tableConstraint (checked broken) settings >>= f)
        (tableConstraint settings >>= f) := fun _ => agrees_tableConstraint.bind_left
  intro s hc
  unfold tableEntry
  rw [hconstraint _ s hc]
  refine Agrees.bind_right tableConstraint_closing (fun result => ?_) s hc
  cases result with
  | absent => exact .bind_right .peek fun _ => .ite agrees_columnEntry.bind_left (.refl _)
  | _ => exact .refl _

/-- The creation of a table is read the same with checks. -/
theorem agrees_createTable :
    Agrees .closing (@createTable (checked broken) settings) (createTable settings) := by
  have hentries : Agrees .closing (@tableEntries (checked broken) settings)
      (tableEntries settings) := by
    refine .bind_right (consume_closing (by decide)) fun _ => .ite ?_ (.refl _)
    refine .bind_right (consume_closing (by decide)) fun _ => .ite (.refl _) ?_
    exact agrees_tableEntry.closedList spells_tableEntry.closing (afterItem_closing _)
  have hexists : Obeys .closing (consumeKeywords [.«if», .not, .«exists»]) :=
    Spells.closing (spells_keywordTokens _)
  refine .bind_right hexists fun ifNotExists => ?_
  exact .bind_right spells_objectName.closing fun name => hentries.bind_left

/-- Where the end of the input lies ahead or is read, a statement is read the same with checks. -/
theorem checked_statement (h : s.cursor.Closed ∨ s.cursor.peek = .eof) :
    @statement (checked broken) settings s = statement settings s := by
  have hcreate : Agrees .closing (@create (checked broken) settings) (create settings) := by
    refine .next_bind (fun token _ => ?_) rfl
    cases token with
    | keyword keyword =>
      cases keyword with
      | table => exact agrees_createTable
      | _ => exact .refl _
    | _ => exact .refl _
  have hopen : Agrees .closing (@openStatement (checked broken) settings)
      (openStatement settings) := by
    refine .next_bind (fun token _ => ?_) rfl
    cases token with
    | keyword keyword =>
      cases keyword with
      | create => exact hcreate
      | _ => exact .refl _
    | _ => exact .refl _
  rcases h with hc | hend
  · exact hopen.bind_left s hc
  · have hn : next s = .ok .eof { s with cursor := s.cursor.advance } := by rw [next, hend]
    refine run_bind_congr ?_
    unfold openStatement
    rw [run_bind hn, run_bind hn]

end Retreat

end SqlDdl.Grammar

namespace SqlDdl.Session

variable {settings : Settings} {stream : TokenStream} {session : Session}

/-- No call makes a request that is refused. -/
theorem Reached.parse_ne_fault (hr : session.Reached settings stream) (fault : Fault) :
    session.parse.1 ≠ .error (.fault fault) := by
  rcases Nat.lt_or_eq_of_le hr.inside with hlt | hend
  · obtain ⟨last, hlast⟩ := hr.closed.exists_firstEnd hlt
    have hentries : ∀ k ≤ last - session.index, session.tokens.entries[session.index + k]? =
        (session.tokens.drop session.index).entries[k]? := fun k _ =>
      (TokenStream.entries_drop _ _ k).symm
    have hlevel := level_copies hr.closed hr.nesting (hr.closed.drop hlt) hlast.drop hentries
    -- Beside a call on the rest of the stream, a call ends with a statement or an error.
    cases callsBeside rfl rfl hlevel with
    | ok read =>
      rw [parse_of_ok read]
      exact nofun
    | error read =>
      rw [parse_of_error read]
      exact nofun
    | cutShort lower => exact absurd lower (Nat.lt_irrefl _)
  · rw [parse_atEnd hend]
    exact nofun

/-- However many calls were made on whatever stream, the next call makes no request that is refused,
and every step back that it makes is one behind a token that was just read: reading it moved the
cursor on by one index, and the step leads back to the index before. The index is also the same
where a table constraint is called absent. For checking all this on the way makes no difference
to what the call reads, whatever takes over where a check fails. -/
theorem parse_retreats (settings : Settings) (stream : TokenStream) (calls : Nat) :
    let session := (ofStream settings stream).after calls
    (∀ fault, session.parse.1 ≠ .error (.fault fault)) ∧
      ∀ broken, @Grammar.statement (.checked broken) session.settings session.state =
        Grammar.statement session.settings session.state := by
  intro session
  have hr : session.Reached settings stream := reached_after settings stream calls
  refine ⟨hr.parse_ne_fault, fun broken => Grammar.Retreat.checked_statement ?_⟩
  rcases Nat.lt_or_eq_of_le hr.inside with hlt | hend
  · exact Or.inl (Cursor.closed_of_index_lt hr.closed hlt)
  · exact Or.inr (Cursor.peek_atEnd hend)

end SqlDdl.Session
