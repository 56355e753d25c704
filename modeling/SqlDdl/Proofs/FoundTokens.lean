import SqlDdl.Proofs.Sessions
import SqlDdl.Proofs.Stops.Grammar

/-!
# Errors name the token they point at

A syntax error holds a token and a place, and they belong together: the stream has an
entry of that token at that place. Some errors are found before the token is read and
some behind it, and at the end of the stream nothing is read any more; the entry is the
right one in every case. It lies among the tokens that the failing call could see, from
where the call started up to the next end of the input.
-/

namespace SqlDdl

namespace TokenStream

variable {stream : TokenStream} {index last : Nat}

/-- The tokens up to an index, that one included, with their places. -/
def upTo (stream : TokenStream) (last : Nat) : TokenStream :=
  .ofList (stream.entries.toList.take (last + 1))

/-- The entries of a front of a stream. -/
theorem entries_upTo (stream : TokenStream) {last k : Nat} (hk : k ≤ last) :
    (stream.upTo last).entries[k]? = stream.entries[k]? := by
  rw [upTo, ofList, List.getElem?_toArray, List.getElem?_take_of_lt (Nat.lt_succ_of_le hk),
    Array.getElem?_toList]

/-- A front of a stream has no entry behind its last index. -/
theorem le_of_entries_upTo {entry : Located} (h : (stream.upTo last).entries[index]? = some entry) :
    index ≤ last := by
  have hlt : index < (stream.entries.toList.take (last + 1)).length :=
    (Array.getElem?_eq_some_iff.mp h).choose
  rw [List.length_take] at hlt
  omega

/-- A front of a stream that ends with the end of the input is closed. -/
theorem closed_upTo (h : stream.get? last = some .eof) : (stream.upTo last).Closed := by
  obtain ⟨entry, hentry, htoken⟩ := Option.map_eq_some_iff.mp h
  have hlt : last < stream.entries.toList.length := (Array.getElem?_eq_some_iff.mp hentry).choose
  have htake : stream.entries.toList.take (last + 1) =
      stream.entries.toList.take last ++ [entry] := by
    rw [List.take_add_one, Array.getElem?_toList, hentry]
    rfl
  rw [Closed, upTo, ofList, tokens, htake, List.map_append, List.map_singleton,
    List.getLast?_concat, htoken]

end TokenStream

namespace Session

variable {session : Session} {settings : Settings} {stream : TokenStream} {error : Error}

/-- An error of a call inside the stream points at a token from the index on at which the call
started. -/
theorem Reached.pointsAt (hr : session.Reached settings stream)
    (hlt : session.index < session.tokens.size) (h : session.parse.1 = .error (.error error)) :
    ∃ index, session.index ≤ index ∧ error.PointsAt session.tokens index := by
  have hclosed : session.state.cursor.Closed := Cursor.closed_of_index_lt hr.closed hlt
  cases hs : Grammar.statement session.settings session.state with
  | ok tree s' =>
    rw [parse_of_ok hs] at h
    cases h
  | error failure s' =>
    rw [parse_of_error hs] at h
    cases h
    obtain ⟨ts, hbreaks, -⟩ := Grammar.statement_stops _ _ _ hclosed hs
    exact ⟨_, Nat.le_add_right _ _, hbreaks.points⟩

/-- The tokens that a call can see: from where it starts up to an end of the input. -/
def seen (session : Session) (last : Nat) : TokenStream :=
  (session.tokens.drop session.index).upTo (last - session.index)

/-- The tokens that a call can see stand in the stream from the index on. -/
theorem entries_seen {last k : Nat} (hk : k ≤ last - session.index) :
    (session.seen last).entries[k]? = session.tokens.entries[session.index + k]? := by
  rw [seen, TokenStream.entries_upTo _ hk, TokenStream.entries_drop]

/-- A token that stands where another was expected lies between the index at which the call
started and the next end of the input, that end included. -/
theorem Reached.entry_of_expected {last : Nat} {expectation : Expectation} {found : Token}
    {position : Position} (hr : session.Reached settings stream)
    (hlast : session.tokens.FirstEnd session.index last)
    (h : session.parse.1 = .error (.error (.expected expectation found position))) :
    ∃ index, session.index ≤ index ∧ index ≤ last ∧
      session.tokens.entries[index]? = some ⟨found, position⟩ := by
  have hclosed : (session.seen last).Closed := TokenStream.closed_upTo hlast.drop.ends
  have hend : (session.seen last).FirstEnd 0 (last - session.index) :=
    hlast.drop.congr fun _ _ hk => TokenStream.entries_upTo _ hk
  -- The call fails as it would on the tokens that it can see, where nothing lies behind.
  have hm := matches_copy hr.closed hr.nesting hclosed hend fun k hk => (entries_seen hk).symm
  have hother := reached_after session.settings (session.seen last) 0
  have hstream : (ofStream session.settings (session.seen last)).tokens = session.seen last :=
    Cursor.stream_ofStream_of_closed hclosed
  have hlt : 0 < (ofStream session.settings (session.seen last)).tokens.size := by
    rw [hstream]
    exact Nat.zero_lt_of_lt hend.lt_size
  obtain ⟨k, -, hentry⟩ := hother.pointsAt hlt (hm.result ▸ h)
  have hseen : (session.seen last).entries[k]? = some ⟨found, position⟩ := hstream ▸ hentry
  have hk : k ≤ last - session.index := TokenStream.le_of_entries_upTo hseen
  have hbehind := hlast.behind
  refine ⟨session.index + k, Nat.le_add_right _ _, by omega, ?_⟩
  rw [← entries_seen hk, hseen]

/-- A call that fails because a token is not what was expected names one token of the stream both in
its message and by its place. Inside the stream it is one that the call could see, from where it
started up to the next end of the input; at the end of the stream it is the last one. -/
theorem found_of_parse (settings : Settings) (stream : TokenStream) (calls : Nat)
    {expectation : Expectation} {found : Token} {position : Position}
    (h : ((ofStream settings stream).after calls).parse.1 =
      .error (.error (.expected expectation found position))) :
    let session := (ofStream settings stream).after calls
    let tokens := (Cursor.ofStream stream).stream
    ∃ (index : Nat) (entry : Located), tokens.entries[index]? = some entry ∧
      (Error.expected expectation found position).position? = some entry.position ∧
      (Error.expected expectation found position).message =
        "expected " ++ expectation.describe ++ " found " ++ entry.token.display ∧
      (∀ last, tokens.FirstEnd session.index last → session.index ≤ index ∧ index ≤ last) ∧
      (session.index = tokens.size → index = tokens.size - 1) := by
  intro session tokens
  have hr : session.Reached settings stream := reached_after settings stream calls
  have htokens : session.tokens = tokens := hr.tokens
  rcases Nat.lt_or_eq_of_le hr.inside with hlt | hend
  · obtain ⟨last, hlast⟩ := hr.closed.exists_firstEnd hlt
    obtain ⟨index, hle, hlel, hentry⟩ := hr.entry_of_expected hlast h
    rw [htokens] at hentry hlt hlast
    refine ⟨index, _, hentry, rfl, rfl, fun other ho => ⟨hle, ?_⟩,
      fun he => absurd he (Nat.ne_of_lt hlt)⟩
    exact Nat.le_trans hlel (hlast.le ho.behind ho.ends)
  · have hfound : session.parse.1 = .error (.error (.expected expectation found position)) := h
    rw [parse_atEnd hend, hend, htokens] at hfound
    cases hfound
    obtain ⟨entry, hentry, htoken⟩ :=
      Option.map_eq_some_iff.mp (Cursor.closed_stream_ofStream stream).get?_last
    rw [htokens] at hend
    refine ⟨tokens.size - 1, entry, hentry, ?_, ?_, fun last hlast => ?_, fun _ => rfl⟩
    · exact congrArg some (TokenStream.position_of_entry hentry)
    · rw [htoken]
      rfl
    · have hbehind := hlast.behind
      have hlast := hlast.lt_size
      omega

/-- The tokens of `DROP TABLE IF x`, without an end. -/
def danglingIf : TokenStream :=
  ⟨#[⟨.keyword .drop, .start⟩, ⟨.keyword .table, ⟨1, 6, 5⟩⟩, ⟨.keyword .«if», ⟨1, 12, 11⟩⟩,
    ⟨.word ⟨"x", false⟩, ⟨1, 15, 14⟩⟩]⟩

/-- The first call gives `IF` back, since `EXISTS` does not follow, and names it as the token that
is no name. The second call starts there and names it as the token that is no statement. -/
theorem found_of_parse_danglingIf :
    (∃ (index : Nat) (entry : Located),
      (Cursor.ofStream danglingIf).stream.entries[index]? = some entry ∧
      entry.position = ⟨1, 12, 11⟩ ∧
      "expected identifier found IF" = "expected identifier found " ++ entry.token.display) ∧
    ∃ (index : Nat) (entry : Located),
      (Cursor.ofStream danglingIf).stream.entries[index]? = some entry ∧
      entry.position = ⟨1, 12, 11⟩ ∧
      "expected a statement found IF" = "expected a statement found " ++ entry.token.display := by
  have hfirst : ((ofStream .standard danglingIf).after 0).parse.1 =
      .error (.error (.expected .identifier (.keyword .«if») ⟨1, 12, 11⟩)) := by
    rfl
  have hsecond : ((ofStream .standard danglingIf).after 1).parse.1 =
      .error (.error (.expected .statement (.keyword .«if») ⟨1, 12, 11⟩)) := by
    rfl
  obtain ⟨index, entry, hentry, hposition, hmessage, -⟩ := found_of_parse _ _ _ hfirst
  obtain ⟨index', entry', hentry', hposition', hmessage', -⟩ := found_of_parse _ _ _ hsecond
  exact ⟨⟨index, entry, hentry, (Option.some.inj hposition).symm, hmessage⟩,
    index', entry', hentry', (Option.some.inj hposition').symm, hmessage'⟩

end Session

end SqlDdl
