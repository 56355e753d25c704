import Mathlib.Data.Nat.Find
import SqlDdl.Proofs.SideBySide.Grammar

/-!
# Calls of a session

A session is a run of calls, each of which starts where the one before it stopped. A
call reads up to the first end of the input and never behind it: whatever it reads,
it would read in the same way from the start of a stream that begins there. So a call
depends on nothing but the settings and these tokens, and none of what happened before
it is left in the session but the place of the cursor.
-/

namespace SqlDdl

namespace TokenStream

variable {stream : TokenStream} {index last : Nat}

/-- The tokens from an index on, with their places. -/
def drop (stream : TokenStream) (index : Nat) : TokenStream :=
  .ofList (stream.entries.toList.drop index)

/-- The entries of a rest of a stream. -/
theorem entries_drop (stream : TokenStream) (index k : Nat) :
    (stream.drop index).entries[k]? = stream.entries[index + k]? := by
  rw [drop, ofList, List.getElem?_toArray, List.getElem?_drop, Array.getElem?_toList]

/-- The tokens of a rest of a stream. -/
theorem tokens_drop (stream : TokenStream) (index : Nat) :
    (stream.drop index).tokens = stream.tokens.drop index := by
  rw [drop, ofList, tokens, tokens, List.map_drop]

/-- The last token is the end of the input. -/
def Closed (stream : TokenStream) : Prop := stream.tokens.getLast? = some .eof

/-- A rest of a closed stream is closed, unless nothing is left. -/
theorem Closed.drop (h : stream.Closed) (hi : index < stream.size) :
    (stream.drop index).Closed := by
  rw [size_eq_length] at hi
  rw [Closed, tokens_drop, List.getLast?_drop, if_neg (Nat.not_le.mpr hi)]
  exact h

/-- One more token at the end of a stream is one more at the end of its rest. -/
theorem drop_push (hi : index ≤ stream.size) (token : Token) (position : Position) :
    (stream.push token position).drop index = (stream.drop index).push token position := by
  have hlength : index ≤ stream.entries.toList.length := hi
  rw [drop, push, Array.toList_push, List.drop_append_of_le_length hlength, drop, push, ofList,
    ofList, List.push_toArray]

/-- Behind a rest of a stream is the same place as behind the stream, unless nothing is left. -/
theorem position_size_drop (hi : index < stream.size) :
    (stream.drop index).position (stream.drop index).size = stream.position stream.size := by
  have hlength : index < stream.entries.toList.length := hi
  have hlast : (stream.drop index).entries.back? = stream.entries.back? := by
    rw [drop, ofList, List.back?_toArray, List.getLast?_drop, if_neg (Nat.not_le.mpr hlength),
      Array.getLast?_toList]
  have hnone : ∀ stream : TokenStream, stream.entries[stream.size]? = none :=
    fun stream => Array.getElem?_eq_none (Nat.le_refl _)
  rw [position, position, hnone, hnone, hlast]

/-- The last token of a closed stream stands at its last index. -/
theorem Closed.get?_last (h : stream.Closed) : stream.get? (stream.size - 1) = some .eof := by
  rw [get?_eq_tokens, size_eq_length, ← List.getLast?_eq_getElem?]
  exact h

/-- The first end of the input from an index on. -/
structure FirstEnd (stream : TokenStream) (index last : Nat) : Prop where
  /-- The end does not lie before the index. -/
  behind : index ≤ last
  /-- An end of the input stands there. -/
  ends : stream.get? last = some .eof
  /-- No end of the input stands between. -/
  notBefore : ∀ k, index ≤ k → k < last → stream.get? k ≠ some .eof

/-- From everywhere inside a closed stream there is a first end of the input. -/
theorem Closed.exists_firstEnd (h : stream.Closed) (hi : index < stream.size) :
    ∃ last, stream.FirstEnd index last := by
  have hex : ∃ k, index ≤ k ∧ stream.get? k = some .eof :=
    ⟨stream.size - 1, Nat.le_sub_one_of_lt hi, h.get?_last⟩
  obtain ⟨hb, he⟩ := Nat.find_spec hex
  exact ⟨Nat.find hex, hb, he, fun k hk hlt he => Nat.find_min hex hlt ⟨hk, he⟩⟩

/-- The first end of the input stands inside the stream. -/
theorem FirstEnd.lt_size (h : stream.FirstEnd index last) : last < stream.size := by
  obtain ⟨entry, hentry, -⟩ := Option.map_eq_some_iff.mp h.ends
  exact (Array.getElem?_eq_some_iff.mp hentry).choose

/-- In the rest of a stream the first end of the input stands where it stood. -/
theorem FirstEnd.drop (h : stream.FirstEnd index last) :
    (stream.drop index).FirstEnd 0 (last - index) := by
  have hget : ∀ k, (stream.drop index).get? k = stream.get? (index + k) := fun k => by
    rw [get?, get?, entries_drop]
  have hbehind := h.behind
  refine ⟨Nat.zero_le _, ?_, fun k _ hk => ?_⟩
  · rw [hget, Nat.add_sub_cancel' hbehind]
    exact h.ends
  · rw [hget]
    exact h.notBefore _ (Nat.le_add_right index k) (by omega)

/-- Streams with the same entries up to it have the same first end of the input. -/
theorem FirstEnd.congr {other : TokenStream} (h : stream.FirstEnd index last)
    (he : ∀ k, index ≤ k → k ≤ last → other.entries[k]? = stream.entries[k]?) :
    other.FirstEnd index last := by
  have hget : ∀ k, index ≤ k → k ≤ last → other.get? k = stream.get? k := fun k hk hl => by
    rw [get?, get?, he k hk hl]
  refine ⟨h.behind, ?_, fun k hk hl => ?_⟩
  · rw [hget last h.behind (Nat.le_refl _)]
    exact h.ends
  · rw [hget k hk (Nat.le_of_lt hl)]
    exact h.notBefore k hk hl

/-- No end of the input from the index on comes before the first. -/
theorem FirstEnd.le (h : stream.FirstEnd index last) {k : Nat} (hk : index ≤ k)
    (he : stream.get? k = some .eof) : last ≤ k := by
  by_contra hlt
  exact h.notBefore k hk (Nat.lt_of_not_le hlt) he

/-- The last token starts where its entry says. -/
theorem position_last {entry : Located} (h : stream.entries.back? = some entry) :
    stream.position (stream.size - 1) = entry.position := by
  rw [Array.back?_eq_getElem?] at h
  exact position_of_entry h

end TokenStream

/-- The stream of a new cursor is closed. -/
theorem Cursor.closed_stream_ofStream (stream : TokenStream) :
    (Cursor.ofStream stream).stream.Closed := by
  have h := Cursor.closed_ofStream stream
  rwa [Cursor.Closed, Cursor.ahead, show (Cursor.ofStream stream).index = 0 from rfl,
    List.drop_zero] at h

/-- A closed stream is read as it is. -/
theorem Cursor.stream_ofStream_of_closed {stream : TokenStream} (h : stream.Closed) :
    (Cursor.ofStream stream).stream = stream :=
  (Cursor.stream_ofStream stream).trans (if_pos h)

/-- A new cursor has at least the tokens of its stream. -/
theorem Cursor.size_le_ofStream (stream : TokenStream) :
    stream.size ≤ (Cursor.ofStream stream).stream.size := by
  rw [Cursor.stream_ofStream]
  split
  · exact Nat.le_refl _
  · rw [TokenStream.size, TokenStream.size, TokenStream.push, Array.size_push]
    exact Nat.le_succ _

/-- At the end of a stream the end of the input is seen. -/
theorem Cursor.peek_atEnd {cursor : Cursor} (h : cursor.index = cursor.stream.size) :
    cursor.peek = .eof := by
  rw [peek_eq_headD, ahead, List.drop_of_length_le]
  · rfl
  · rw [← TokenStream.size_eq_length]
    exact Nat.le_of_eq h.symm

/-- What is left of a stream is closed in the same way as the stream. -/
theorem Cursor.ofStream_drop {stream : TokenStream} {index : Nat} (hi : index < stream.size) :
    Cursor.ofStream (stream.drop index) =
      Cursor.ofStream ((Cursor.ofStream stream).stream.drop index) := by
  have hsize : index < (Cursor.ofStream stream).stream.size :=
    Nat.lt_of_lt_of_le hi (Cursor.size_le_ofStream stream)
  have hclosed := (Cursor.closed_stream_ofStream stream).drop hsize
  have hlast : (stream.drop index).tokens.getLast? = stream.tokens.getLast? := by
    rw [TokenStream.size_eq_length] at hi
    rw [TokenStream.tokens_drop, List.getLast?_drop, if_neg (Nat.not_le.mpr hi)]
  have hstream : (Cursor.ofStream (stream.drop index)).stream =
      (Cursor.ofStream stream).stream.drop index := by
    rw [Cursor.stream_ofStream, Cursor.stream_ofStream, hlast]
    split
    · rfl
    · rw [TokenStream.drop_push (Nat.le_of_lt hi), TokenStream.position_size_drop hi]
  calc Cursor.ofStream (stream.drop index)
    _ = ⟨(Cursor.ofStream (stream.drop index)).stream, 0, false⟩ := rfl
    _ = ⟨(Cursor.ofStream ((Cursor.ofStream stream).stream.drop index)).stream, 0, false⟩ := by
      rw [hstream, Cursor.stream_ofStream_of_closed hclosed]
    _ = Cursor.ofStream ((Cursor.ofStream stream).stream.drop index) := rfl

namespace Session

/-- The index at which the next call starts. -/
def index (session : Session) : Nat := session.state.cursor.index

/-- The tokens that the calls read. -/
def tokens (session : Session) : TokenStream := session.state.cursor.stream

/-- A session after so many calls. -/
def after (session : Session) : Nat → Session
  | 0 => session
  | calls + 1 => (session.after calls).parse.2

/-- The results of so many calls are those of each call after the calls before it. -/
theorem parseMany_eq_map (session : Session) (count : Nat) :
    session.parseMany count =
      (List.range count).map fun calls => (session.after calls).parse.1 := by
  have hafter : ∀ (session : Session) (calls : Nat),
      session.parse.2.after calls = session.after (calls + 1) := by
    intro session calls
    induction calls with
    | zero => rfl
    | succ calls ih =>
      rw [after, ih]
      rfl
  induction count generalizing session with
  | zero => rfl
  | succ count ih =>
    rw [List.range_succ_eq_map, List.map_cons, List.map_map]
    refine congrArg (session.parse.1 :: ·) ((ih session.parse.2).trans ?_)
    exact List.map_congr_left fun calls _ => congrArg (·.parse.1) (hafter session calls)

/-- A call whose statement was read gives it and leaves the session where it ended. -/
theorem parse_of_ok {session : Session} {tree : Statement} {s' : Grammar.State}
    (h : Grammar.statement session.settings session.state = .ok tree s') :
    session.parse = (.ok tree, { session with state := s' }) := by
  rw [parse, h]

/-- A call that failed gives its failure and leaves the session where it stopped. -/
theorem parse_of_error {session : Session} {failure : Grammar.Failure} {s' : Grammar.State}
    (h : Grammar.statement session.settings session.state = .error failure s') :
    session.parse = (.error failure, { session with state := s' }) := by
  rw [parse, h]

/-- How two calls side by side end: with statements read up to places side by side, with errors
that are alike, or the left one at a limit of nesting that the right one does not have. -/
inductive CallsBeside (w : Twins) (session other : Session) : Prop where
  | ok {tree beside : Statement} {s t : Grammar.State}
      (read : Grammar.statement session.settings session.state = .ok tree s)
      (readBeside : Grammar.statement other.settings other.state = .ok beside t)
      (same : w.Same tree beside) (abreast : w.Abreast 0 s t)
  | error {error beside : Error} {s t : Grammar.State}
      (read : Grammar.statement session.settings session.state = .error (.error error) s)
      (readBeside : Grammar.statement other.settings other.state = .error (.error beside) t)
      (alike : w.ErrorsAlike error beside) (halted : w.Halted 0 s t)
  | cutShort {position : Position} {s : Grammar.State}
      (lower : w.leftSettings.maxExpressionDepth < w.rightSettings.maxExpressionDepth)
      (read : Grammar.statement session.settings session.state =
        .error (.error (.expressionTooDeep w.leftSettings.maxExpressionDepth position)) s)

/-- Calls from one level end side by side. -/
theorem callsBeside {w : Twins} {session other : Session}
    (hl : w.leftSettings = session.settings) (hr : w.rightSettings = other.settings)
    (h : w.Level 0 session.state other.state) : CallsBeside w session other := by
  have hout := Twins.statement_outcome h
  rw [hl, hr] at hout
  generalize hx : Grammar.statement session.settings session.state = x at hout
  generalize hy : Grammar.statement other.settings other.state = y at hout
  cases hout with
  | ok same abreast => exact .ok hx hy same abreast
  | error alike halted => exact .error hx hy alike halted
  | cutShort lower => exact .cutShort lower hx

end Session

/-- Two streams that hold the same entries up to the first end of the input of the second, read
with the same settings. -/
def Twins.copies (settings : Settings) {stream copy : TokenStream} {index last : Nat}
    (hs : stream.Closed) (hc : copy.Closed) (hlast : copy.FirstEnd 0 last)
    (he : ∀ k ≤ last, stream.entries[index + k]? = copy.entries[k]?) : Twins where
  left := stream
  right := copy
  leftSettings := settings
  rightSettings := settings
  shift := index
  last := last
  Related := Eq
  alike := by
    rintro token _ rfl
    exact .refl token
  limit := Nat.le_refl _
  leftClosed := hs
  rightClosed := hc
  entries := by
    intro k hk
    obtain ⟨entry, hentry, -⟩ := Option.map_eq_some_iff.mp hlast.ends
    have hsize : k < copy.entries.size :=
      Nat.lt_of_le_of_lt hk (Array.getElem?_eq_some_iff.mp hentry).choose
    have hk' : copy.entries[k]? = some copy.entries[k] := Array.getElem?_eq_getElem hsize
    exact ⟨_, _, (he k hk).trans hk', hk', rfl, rfl⟩
  ends := hlast.ends

namespace Session

variable {session : Session} {copy : TokenStream} {last : Nat}

/-- What a call of a session and the first call on a copy of the tokens before it have in common,
where `last` is the first end of the input in the copy. -/
structure Matches (session : Session) (copy : TokenStream) (last : Nat) : Prop where
  /-- Both give the same statement or the same error. -/
  result : session.parse.1 = (ofStream session.settings copy).parse.1
  /-- Both read the same number of tokens. -/
  index : session.parse.2.index = session.index + (ofStream session.settings copy).parse.2.index
  /-- At least one token is read. -/
  forward : 0 < (ofStream session.settings copy).parse.2.index
  /-- Nothing behind the first end of the input is read. -/
  inside : (ofStream session.settings copy).parse.2.index ≤ last + 1
  /-- A statement is read up to that end, which is left there. -/
  atEnd : ∀ tree, session.parse.1 = .ok tree →
    (ofStream session.settings copy).parse.2.index = last
  /-- The tokens stay as they are. -/
  tokens : session.parse.2.tokens = session.tokens
  /-- The settings stay as they are. -/
  settings : session.parse.2.settings = session.settings
  /-- No expression is left begun. -/
  nesting : session.parse.2.state.nesting = 0

/-- A statement that was read up to the end of the input leaves the cursor at its first end. -/
theorem index_eq_last {tree : Statement} {settings : Settings} {s s' : Grammar.State}
    (hc : s.cursor.Closed) (hlast : s'.cursor.stream.FirstEnd 0 last)
    (hi : s'.cursor.index ≤ last) (h : Grammar.statement settings s = .ok tree s') :
    s'.cursor.index = last := by
  obtain ⟨-, -, -, -, -, hend⟩ := Grammar.statement_ok hc h
  rw [Cursor.ahead, List.head?_drop, ← TokenStream.get?_eq_tokens] at hend
  exact Nat.le_antisymm hi (hlast.le (Nat.zero_le _) hend)

/-- Two calls that end in the same way and stop side by side match. -/
theorem matches_of_halted {result : Except Grammar.Failure Statement} {s' t' : Grammar.State}
    (hs : session.tokens.Closed) (hc : copy.Closed) (hlast : copy.FirstEnd 0 last)
    (he : ∀ k ≤ last, session.tokens.entries[session.index + k]? = copy.entries[k]?)
    (hp : session.parse = (result, { session with state := s' }))
    (hq : (ofStream session.settings copy).parse = (result, ⟨session.settings, t'⟩))
    (hh : (Twins.copies session.settings hs hc hlast he).Halted 0 s' t')
    (hend : ∀ tree, result = .ok tree → t'.cursor.index = last) : session.Matches copy last where
  result := by rw [hp, hq]
  index := by
    rw [hp, hq]
    exact hh.index
  forward := by
    rw [hq]
    exact hh.begun
  inside := by
    rw [hq]
    exact hh.inside
  atEnd := by
    rw [hp, hq]
    exact hend
  tokens := by
    rw [hp]
    exact hh.left
  settings := by rw [hp]
  nesting := by
    rw [hp]
    exact hh.leftNesting

/-- A call and the first call on a closed stream that holds the same entries up to its first end of
the input begin side by side. -/
theorem level_copies (hs : session.tokens.Closed) (hn : session.state.nesting = 0)
    (hc : copy.Closed) (hlast : copy.FirstEnd 0 last)
    (he : ∀ k ≤ last, session.tokens.entries[session.index + k]? = copy.entries[k]?) :
    (Twins.copies session.settings hs hc hlast he).Level 0 session.state
      (ofStream session.settings copy).state :=
  ⟨rfl, Cursor.stream_ofStream_of_closed hc, rfl, Nat.zero_le _, hn, rfl⟩

/-- A call matches the first call on any closed stream that holds the same entries up to its first
end of the input. -/
theorem matches_copy (hs : session.tokens.Closed) (hn : session.state.nesting = 0)
    (hc : copy.Closed) (hlast : copy.FirstEnd 0 last)
    (he : ∀ k ≤ last, session.tokens.entries[session.index + k]? = copy.entries[k]?) :
    session.Matches copy last := by
  have hlevel := level_copies hs hn hc hlast he
  cases callsBeside rfl rfl hlevel with
  | @ok tree other s' t' hx hy hr ha =>
    obtain rfl : tree = other := by
      refine hr ?_
      rintro word _ ⟨⟩
      rfl
    have hlast' : t'.cursor.stream.FirstEnd 0 last := ha.right ▸ hlast
    have hend := index_eq_last hlevel.closed.2 hlast' ha.notEnded hy
    exact matches_of_halted hs hc hlast he (parse_of_ok hx) (parse_of_ok hy) ha.halted
      fun _ _ => hend
  | @error error other s' t' hx hy he' hh =>
    obtain rfl : error = other := by
      cases he' with
      | same => rfl
      | expected _ _ related => rw [related]
    exact matches_of_halted hs hc hlast he (parse_of_error hx) (parse_of_error hy) hh nofun
  | cutShort hl => exact absurd hl (Nat.lt_irrefl _)

/-- What holds of a session on a stream before and after every call. -/
structure Reached (settings : Settings) (stream : TokenStream) (session : Session) : Prop where
  /-- The settings are those that the session began with. -/
  settings : session.settings = settings
  /-- The tokens are those that it began with. -/
  tokens : session.tokens = (Cursor.ofStream stream).stream
  /-- The session stands in the stream or at its end. -/
  inside : session.index ≤ session.tokens.size
  /-- No expression is begun. -/
  nesting : session.state.nesting = 0

/-- A call at the end of the stream fails there and leaves the session as it is, but for the
permission to go back. -/
theorem parse_atEnd (h : session.index = session.tokens.size) :
    session.parse =
      (.error (.error (.expected .statement .eof (session.tokens.position (session.index - 1)))),
        { session with
          state := { session.state with
            cursor := { session.state.cursor with rewindable := true } } }) := by
  have hpeek : session.state.cursor.peek = .eof := Cursor.peek_atEnd h
  have hstay : session.state.cursor.advance =
      { session.state.cursor with rewindable := true } := by
    have hnot : ¬ session.state.cursor.index < session.state.cursor.stream.size :=
      Nat.not_lt.mpr (Nat.le_of_eq h.symm)
    simp only [Cursor.advance, if_neg hnot]
  have hnext : Grammar.next session.state = .ok .eof
      { session.state with cursor := { session.state.cursor with rewindable := true } } := by
    rw [Grammar.next, hpeek, hstay]
  refine parse_of_error (Grammar.run_bind_error ?_)
  rw [Grammar.openStatement, Grammar.run_bind hnext]
  rfl

variable {settings : Settings} {stream : TokenStream}

/-- The stream of a session is closed. -/
theorem Reached.closed (hr : session.Reached settings stream) : session.tokens.Closed :=
  hr.tokens ▸ Cursor.closed_stream_ofStream stream

/-- Inside its stream a call of a session matches the first call on the rest of the stream. -/
theorem Reached.matches_drop (hr : session.Reached settings stream)
    (hlast : session.tokens.FirstEnd session.index last) :
    session.Matches (session.tokens.drop session.index) (last - session.index) := by
  have hlt := Nat.lt_of_le_of_lt hlast.behind hlast.lt_size
  exact matches_copy hr.closed hr.nesting (hr.closed.drop hlt) hlast.drop fun k _ =>
    (TokenStream.entries_drop _ _ k).symm

/-- Every call leaves a session as it found it, but for its place in the stream. -/
theorem Reached.parse (hr : session.Reached settings stream) :
    session.parse.2.Reached settings stream := by
  rcases Nat.lt_or_eq_of_le hr.inside with hlt | hend
  · obtain ⟨last, hlast⟩ := hr.closed.exists_firstEnd hlt
    have hm := hr.matches_drop hlast
    refine ⟨hm.settings.trans hr.settings, hm.tokens.trans hr.tokens, ?_, hm.nesting⟩
    have hinside := hm.inside
    have hbehind := hlast.behind
    have hsize := hlast.lt_size
    rw [hm.tokens, hm.index]
    omega
  · rw [parse_atEnd hend]
    exact ⟨hr.settings, hr.tokens, hr.inside, hr.nesting⟩

/-- A session stays what it is over any number of calls. -/
theorem reached_after (settings : Settings) (stream : TokenStream) (calls : Nat) :
    ((ofStream settings stream).after calls).Reached settings stream := by
  induction calls with
  | zero => exact ⟨rfl, rfl, Nat.zero_le _, rfl⟩
  | succ calls ih => exact ih.parse

/-- The tokens from the index of the next call on, up to the end of the input. -/
def upcoming (session : Session) : List Token := (session.tokens.drop session.index).beforeEnd

/-- The tokens before the next end of the input lie ahead. -/
theorem upcoming_eq (session : Session) :
    session.upcoming = session.state.cursor.ahead.takeWhile (· ≠ .eof) := by
  rw [upcoming, TokenStream.beforeEnd, TokenStream.tokens_drop]
  rfl

/-- What lies ahead is what stands before the next end of the input, and then that end or
nothing. -/
theorem ahead_eq_upcoming (session : Session) :
    ∃ rest, session.state.cursor.ahead = session.upcoming ++ rest ∧ rest.headD .eof = .eof := by
  refine ⟨session.state.cursor.ahead.dropWhile (· ≠ .eof), ?_, ?_⟩
  · rw [upcoming_eq, List.takeWhile_append_dropWhile]
  · have hhead := List.head?_dropWhile_not (· ≠ .eof) session.state.cursor.ahead
    cases hd : session.state.cursor.ahead.dropWhile (· ≠ .eof) with
    | nil => rfl
    | cons token rest =>
      rw [hd] at hhead
      exact of_not_not (of_decide_eq_false hhead)

/-- A statement that a call gives is what an admissible sentence means, which is all that stands
before the next end of the input but for a semicolon. -/
theorem Reached.written_of_ok {tree : Statement} (hr : session.Reached settings stream)
    (h : session.parse.1 = .ok tree) :
    ∃ (sentence : Sentence) (semicolon : Bool),
      sentence.Admissible settings.maxExpressionDepth ∧ sentence.meaning settings = tree ∧
      session.upcoming = sentence.tokens ++ endTokens semicolon := by
  have hlt : session.index < session.tokens.size := by
    refine Nat.lt_of_le_of_ne hr.inside fun hend => ?_
    rw [parse_atEnd hend] at h
    cases h
  have hclosed : session.state.cursor.Closed := Cursor.closed_of_index_lt hr.closed hlt
  cases hs : Grammar.statement session.settings session.state with
  | error failure s' =>
    rw [parse_of_error hs] at h
    cases h
  | ok given s' =>
    rw [parse_of_ok hs] at h
    cases h
    obtain ⟨sentence, semicolon, hp, hm, hpass, hend⟩ := Grammar.statement_ok hclosed hs
    rw [hr.settings] at hp hm
    refine ⟨sentence, semicolon, hp, hm, ?_⟩
    rw [upcoming_eq]
    exact hpass.takeWhile_ahead hend

/-- An admissible sentence before the next end of the input is parsed to the statement it means. -/
theorem Reached.parse_of_written {sentence : Sentence} {semicolon : Bool}
    (hr : session.Reached settings stream) (hp : sentence.Admissible settings.maxExpressionDepth)
    (h : session.upcoming = sentence.tokens ++ endTokens semicolon) :
    session.parse.1 = .ok (sentence.meaning settings) := by
  obtain ⟨rest, hahead, hrest⟩ := session.ahead_eq_upcoming
  rw [h, List.append_assoc] at hahead
  obtain ⟨s', hs, -⟩ := Grammar.statement_reads settings sentence semicolon hr.nesting hp hrest
    hahead
  rw [← hr.settings] at hs
  rw [parse_of_ok hs, hr.settings]

/-- A statement that a call gives is what an admissible sentence means. -/
theorem Reached.sentence_of_ok {tree : Statement} (hr : session.Reached settings stream)
    (h : session.parse.1 = .ok tree) :
    ∃ sentence : Sentence, sentence.Admissible settings.maxExpressionDepth ∧
      sentence.meaning settings = tree := by
  obtain ⟨sentence, -, hp, hm, -⟩ := hr.written_of_ok h
  exact ⟨sentence, hp, hm⟩

/-- A call that reads something, no more than up to an end of the input, and up to it if it gives
a statement. -/
structure StopsAt (session : Session) (last : Nat) : Prop where
  /-- At least one token is read. -/
  forward : session.index < session.parse.2.index
  /-- Nothing behind the end of the input is read. -/
  inside : session.parse.2.index ≤ last + 1
  /-- A statement is read up to that end, which is left there. -/
  atEnd : ∀ tree, session.parse.1 = .ok tree → session.parse.2.index = last

/-- Inside its stream a call stops at the first end of the input that lies ahead. -/
theorem Reached.stopsAt (hr : session.Reached settings stream)
    (hlast : session.tokens.FirstEnd session.index last) : session.StopsAt last := by
  have hm := hr.matches_drop hlast
  have hindex := hm.index
  have hforward := hm.forward
  have hinside := hm.inside
  have hbehind := hlast.behind
  refine ⟨by omega, by omega, fun tree h => ?_⟩
  have hend := hm.atEnd tree h
  omega

/-- No call goes back. -/
theorem Reached.index_le (hr : session.Reached settings stream) :
    session.index ≤ session.parse.2.index := by
  rcases Nat.lt_or_eq_of_le hr.inside with hlt | hend
  · obtain ⟨last, hlast⟩ := hr.closed.exists_firstEnd hlt
    exact Nat.le_of_lt (hr.stopsAt hlast).forward
  · rw [parse_atEnd hend]
    exact Nat.le_refl _

/-- As many tokens as calls were made have been read at least, unless none is left. -/
theorem le_index_after (settings : Settings) (stream : TokenStream) (calls : Nat) :
    min calls (Cursor.ofStream stream).stream.size ≤
      ((ofStream settings stream).after calls).index := by
  induction calls with
  | zero => exact Nat.min_le_left _ _
  | succ calls ih =>
    have hr := reached_after settings stream calls
    rw [← hr.tokens] at ih ⊢
    rw [after]
    rcases Nat.lt_or_eq_of_le hr.inside with hlt | hend
    · obtain ⟨last, hlast⟩ := hr.closed.exists_firstEnd hlt
      have hforward := (hr.stopsAt hlast).forward
      omega
    · have hindex := hr.index_le
      omega

/-- Two sessions at one index of streams that hold the same entries from there up to the next end
of the input give the same result and go to the same index. -/
theorem Reached.parse_congr {other : Session} {beside : TokenStream}
    (hr : session.Reached settings stream) (ho : other.Reached settings beside)
    (hi : other.index = session.index) (hlast : session.tokens.FirstEnd session.index last)
    (he : ∀ k, session.index ≤ k → k ≤ last →
      other.tokens.entries[k]? = session.tokens.entries[k]?) :
    other.parse.1 = session.parse.1 ∧ other.parse.2.index = session.parse.2.index := by
  have hlast' := hlast.congr he
  have hm := ho.matches_drop (hi.symm ▸ hlast')
  have hbehind := hlast.behind
  have hm' : session.Matches (other.tokens.drop other.index) (last - other.index) := by
    have hlt := Nat.lt_of_le_of_lt hbehind hlast'.lt_size
    rw [hi]
    refine matches_copy hr.closed hr.nesting (ho.closed.drop hlt) hlast'.drop fun k hk => ?_
    rw [TokenStream.entries_drop]
    exact (he _ (Nat.le_add_right _ k) (by omega)).symm
  have hsettings := ho.settings.trans hr.settings.symm
  have hindex := hm.index
  have hindex' := hm'.index
  rw [hsettings] at hindex
  refine ⟨?_, by omega⟩
  rw [hm.result, hm'.result, hsettings]

/-- Up to any end of the input that was not read beyond, sessions on streams with the same entries
stand at the same index. -/
theorem index_after_congr {other : TokenStream} {calls : Nat}
    (hlast : (Cursor.ofStream stream).stream.get? last = some .eof)
    (hi : ((ofStream settings stream).after calls).index ≤ last)
    (he : ∀ k ≤ last, (Cursor.ofStream other).stream.entries[k]? =
      (Cursor.ofStream stream).stream.entries[k]?) :
    ((ofStream settings other).after calls).index =
      ((ofStream settings stream).after calls).index := by
  induction calls with
  | zero => rfl
  | succ calls ih =>
    have hr := reached_after settings stream calls
    have ho := reached_after settings other calls
    have hle : ((ofStream settings stream).after calls).index ≤ last := Nat.le_trans hr.index_le hi
    rw [← hr.tokens] at hlast he
    rw [← ho.tokens] at he
    have hlt : ((ofStream settings stream).after calls).index <
        ((ofStream settings stream).after calls).tokens.size := by
      obtain ⟨entry, hentry, -⟩ := Option.map_eq_some_iff.mp hlast
      exact Nat.lt_of_le_of_lt hle (Array.getElem?_eq_some_iff.mp hentry).choose
    obtain ⟨first, hfirst⟩ := hr.closed.exists_firstEnd hlt
    have hfirstle := hfirst.le hle hlast
    exact (hr.parse_congr ho (ih hle) hfirst fun k _ hk => he k (Nat.le_trans hk hfirstle)).2

end Session

/-- The error of every call at the end of a stream. -/
def TokenStream.exhausted (stream : TokenStream) : Error :=
  .expected .statement .eof (stream.position (stream.size - 1))

namespace Session

/-- Every call inside the stream goes forward, at most over the next end of the input, and exactly
to it if it gives a statement; neither its place nor its result nor its end depends on what stands
behind that end. A call at the end of the stream fails and stays there, and so does every call after
as many calls as there are tokens. -/
theorem parse_progress (settings : Settings) (stream : TokenStream) (calls : Nat) :
    let session := (ofStream settings stream).after calls
    let tokens := (Cursor.ofStream stream).stream
    session.tokens = tokens ∧ session.index ≤ tokens.size ∧
      (session.index < tokens.size →
        ∃ last, tokens.FirstEnd session.index last ∧ session.StopsAt last ∧
          ∀ other : TokenStream,
            (∀ k ≤ last, (Cursor.ofStream other).stream.entries[k]? = tokens.entries[k]?) →
              ((ofStream settings other).after calls).index = session.index ∧
              ((ofStream settings other).after calls).parse.1 = session.parse.1 ∧
              ((ofStream settings other).after calls).parse.2.index = session.parse.2.index) ∧
      (session.index = tokens.size → session.parse.1 = .error (.error tokens.exhausted) ∧
        session.parse.2.index = session.index) ∧
      (tokens.size ≤ calls → session.parse.1 = .error (.error tokens.exhausted)) ∧
      tokens.exhausted.message = "expected a statement found EOF" ∧
      ∃ entry, tokens.entries.back? = some entry ∧
        tokens.exhausted.position? = some entry.position := by
  intro session tokens
  have hr : session.Reached settings stream := reached_after settings stream calls
  have htokens : session.tokens = tokens := hr.tokens
  have hatEnd : session.index = tokens.size → session.parse.1 = .error (.error tokens.exhausted) ∧
      session.parse.2.index = session.index := by
    intro hend
    rw [parse_atEnd (hend.trans (congrArg _ htokens.symm)), hend, htokens]
    exact ⟨rfl, hend⟩
  refine ⟨htokens, htokens ▸ hr.inside, fun hlt => ?_, hatEnd, fun hcalls => ?_, rfl, ?_⟩
  · have hclosed : tokens.Closed := Cursor.closed_stream_ofStream stream
    obtain ⟨last, hlast⟩ := hclosed.exists_firstEnd hlt
    have hlast' : session.tokens.FirstEnd session.index last := htokens.symm ▸ hlast
    refine ⟨last, hlast, hr.stopsAt hlast', fun other he => ?_⟩
    have ho := reached_after settings other calls
    have hindex : ((ofStream settings other).after calls).index = session.index :=
      index_after_congr hlast.ends hlast.behind he
    refine ⟨hindex, hr.parse_congr ho hindex hlast' fun k _ hk => ?_⟩
    rw [htokens, ho.tokens]
    exact he k hk
  · have hle := le_index_after settings stream calls
    have hinside := hr.inside
    rw [Nat.min_eq_right hcalls] at hle
    rw [htokens] at hinside
    exact (hatEnd (Nat.le_antisymm hinside hle)).1
  · obtain ⟨entry, hentry, -⟩ :=
      Option.map_eq_some_iff.mp (Cursor.closed_stream_ofStream stream).get?_last
    have hback : tokens.entries.back? = some entry := Array.back?_eq_getElem?.trans hentry
    exact ⟨entry, hback, congrArg some (TokenStream.position_last hback)⟩

/-- Every call inside the stream gives what the first call gives on the rest of the stream, read
with the same settings, and goes forward as far; no expression is left begun, whatever the calls
before gave. -/
theorem parse_rest (settings : Settings) (stream : TokenStream) (calls : Nat) :
    let session := (ofStream settings stream).after calls
    let tokens := (Cursor.ofStream stream).stream
    (session.index < tokens.size →
      session.parse.1 = (ofStream settings (tokens.drop session.index)).parse.1 ∧
      session.parse.2.index =
        session.index + (ofStream settings (tokens.drop session.index)).parse.2.index) ∧
    (session.index < stream.size →
      session.parse.1 = (ofStream settings (stream.drop session.index)).parse.1 ∧
      session.parse.2.index =
        session.index + (ofStream settings (stream.drop session.index)).parse.2.index) ∧
    session.state.nesting = 0 := by
  intro session tokens
  have hr : session.Reached settings stream := reached_after settings stream calls
  have hinside : session.index < tokens.size →
      session.parse.1 = (ofStream settings (tokens.drop session.index)).parse.1 ∧
      session.parse.2.index =
        session.index + (ofStream settings (tokens.drop session.index)).parse.2.index := by
    intro hlt
    have htokens : session.tokens = tokens := hr.tokens
    obtain ⟨last, hlast⟩ := hr.closed.exists_firstEnd (htokens.symm ▸ hlt)
    have hm := hr.matches_drop hlast
    rw [← htokens, ← hr.settings]
    exact ⟨hm.result, hm.index⟩
  refine ⟨hinside, fun hlt => ?_, hr.nesting⟩
  have hrest := Cursor.ofStream_drop hlt
  have hsize : session.index < tokens.size :=
    Nat.lt_of_lt_of_le hlt (Cursor.size_le_ofStream stream)
  have hsession : ofStream settings (stream.drop session.index) =
      ofStream settings (tokens.drop session.index) := by
    rw [ofStream, ofStream, hrest]
  rw [hsession]
  exact hinside hsize

end Session

end SqlDdl
