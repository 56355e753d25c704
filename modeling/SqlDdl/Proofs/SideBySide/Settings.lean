import SqlDdl.Proofs.Sessions

/-!
# Two settings side by side

One stream is read twice from the same index on, the second time with settings that
allow expressions to nest at least as deep. The two calls make the same choices, so
they give a statement together or the same error together, and go to the same index;
only the first can stop at a limit of nesting that the second does not have. The
statements are the same if identifiers are kept in the same way.
-/

namespace SqlDdl

/-- One closed stream on both sides up to an end of the input, with a limit of nesting on the
right that is no lower. -/
def Twins.oneStream (left right : Settings) {stream : TokenStream} {last : Nat}
    (hs : stream.Closed) (hlast : stream.get? last = some .eof)
    (hlimit : left.maxExpressionDepth ≤ right.maxExpressionDepth) : Twins where
  left := stream
  right := stream
  leftSettings := left
  rightSettings := right
  shift := 0
  last := last
  Related := Eq
  alike := @Token.Alike.of_eq
  limit := hlimit
  leftClosed := hs
  rightClosed := hs
  entries := by
    intro k hk
    obtain ⟨ending, hending, -⟩ := Option.map_eq_some_iff.mp hlast
    have hsize : k < stream.entries.size :=
      Nat.lt_of_le_of_lt hk (Array.getElem?_eq_some_iff.mp hending).choose
    have hentry : stream.entries[k]? = some stream.entries[k] := Array.getElem?_eq_getElem hsize
    exact ⟨_, _, (Nat.zero_add k).symm ▸ hentry, hentry, rfl, rfl⟩
  ends := hlast

namespace Session

variable {left right : Settings} {stream : TokenStream} {session other : Session}

/-- How a call and another one from the same index of the same stream end, the second with settings
that allow expressions to nest at least as deep. -/
inductive EndsBeside (left right : Settings) (session other : Session) : Prop where
  | statements {tree beside : Statement} (given : session.parse.1 = .ok tree)
      (givenBeside : other.parse.1 = .ok beside)
      (same : left.foldIdentifiers = right.foldIdentifiers → tree = beside)
      (index : other.parse.2.index = session.parse.2.index)
  | errors {error : Error} (given : session.parse.1 = .error (.error error))
      (givenBeside : other.parse.1 = .error (.error error))
      (index : other.parse.2.index = session.parse.2.index)
  /-- The first call stopped at its limit, which is lower than that of the second. -/
  | cutShort {position : Position} (lower : left.maxExpressionDepth < right.maxExpressionDepth)
      (given : session.parse.1 =
        .error (.error (.expressionTooDeep left.maxExpressionDepth position)))

/-- Settings that fold identifiers alike keep every word as the same text. -/
theorem identifier_eq_of_fold (h : left.foldIdentifiers = right.foldIdentifiers) (word : Word) :
    left.identifier word = right.identifier word := by
  rw [Settings.identifier, Settings.identifier, h]

/-- Calls from the same index of one stream end side by side. -/
theorem Reached.endsBeside (hr : session.Reached left stream) (ho : other.Reached right stream)
    (hi : other.index = session.index)
    (hlimit : left.maxExpressionDepth ≤ right.maxExpressionDepth) :
    EndsBeside left right session other := by
  have hstreams : other.tokens = session.tokens := ho.tokens.trans hr.tokens.symm
  obtain rfl := hr.settings
  obtain rfl := ho.settings
  rcases Nat.lt_or_eq_of_le hr.inside with hlt | hend
  · obtain ⟨last, hlast⟩ := hr.closed.exists_firstEnd hlt
    have hlevel : (Twins.oneStream session.settings other.settings hr.closed hlast.ends
        hlimit).Level 0 session.state other.state :=
      ⟨rfl, hstreams, hi.symm.trans (Nat.zero_add _).symm, Nat.le_trans (Nat.le_of_eq hi)
        hlast.behind, hr.nesting, ho.nesting⟩
    cases callsBeside rfl rfl hlevel with
    | @ok tree beside s' t' hx hy same abreast =>
      have hindex : s'.cursor.index = t'.cursor.index := abreast.index.trans (Nat.zero_add _)
      refine .statements (by rw [parse_of_ok hx]) (by rw [parse_of_ok hy]) (fun hfold => ?_) ?_
      · refine same ?_
        rintro word _ ⟨⟩
        exact identifier_eq_of_fold hfold word
      · rw [parse_of_ok hx, parse_of_ok hy]
        exact hindex.symm
    | @error error beside s' t' hx hy alike halted =>
      obtain rfl : error = beside := by
        cases alike with
        | same => rfl
        | expected _ _ related => rw [related]
      have hindex : s'.cursor.index = t'.cursor.index := halted.index.trans (Nat.zero_add _)
      refine .errors (by rw [parse_of_error hx]) (by rw [parse_of_error hy]) ?_
      rw [parse_of_error hx, parse_of_error hy]
      exact hindex.symm
    | cutShort lower hx => exact .cutShort lower (by rw [parse_of_error hx]; rfl)
  · have hend' : other.index = other.tokens.size := by rw [hi, hend, hstreams]
    refine .errors (by rw [parse_atEnd hend]) (by rw [parse_atEnd hend', hstreams, hi]) ?_
    rw [parse_atEnd hend, parse_atEnd hend']
    exact hi

end Session

end SqlDdl
