import SqlDdl.Grammar.Reading

/-!
# Passages of a reading

A successful reading passes over some of the tokens that lie ahead of its cursor
and over nothing else: the stream stays, the index grows by their number, and none
of them is the end of the input. Each step of `Grammar.Reading` is described here
in both directions, by what it passed over when it succeeded and by the tokens
ahead that make it succeed. Failures are not described here.
-/

namespace SqlDdl

/-- The token at an index is the member of the token list there. -/
theorem TokenStream.get?_eq_tokens (stream : TokenStream) (index : Nat) :
    stream.get? index = stream.tokens[index]? := by
  simp only [get?, tokens, List.getElem?_map, Array.getElem?_toList]

/-- A stream has as many tokens as its list. -/
theorem TokenStream.size_eq_length (stream : TokenStream) : stream.size = stream.tokens.length := by
  simp only [size, tokens, List.length_map, Array.length_toList]

/-- A token inside a stream starts where its entry says. -/
theorem TokenStream.position_of_entry {stream : TokenStream} {index : Nat} {entry : Located}
    (h : stream.entries[index]? = some entry) : stream.position index = entry.position := by
  rw [position, h]
  rfl

namespace Cursor

/-- The tokens from the cursor on. -/
def ahead (cursor : Cursor) : List Token := cursor.stream.tokens.drop cursor.index

/-- The current token is the first of those ahead, the end of the input if there is none. -/
theorem peek_eq_headD (cursor : Cursor) : cursor.peek = cursor.ahead.headD .eof := by
  rw [peek, peekNth, Nat.add_zero, TokenStream.get?_eq_tokens, ahead, List.headD_eq_head?_getD,
    List.head?_drop]

/-- As many tokens remain as lie ahead. -/
theorem remaining_eq_length (cursor : Cursor) : cursor.remaining = cursor.ahead.length := by
  rw [remaining, ahead, List.length_drop, TokenStream.size_eq_length]

/-- A cursor with a token ahead stands inside its stream. -/
theorem index_lt_of_ahead {cursor : Cursor} {token : Token} {rest : List Token}
    (h : cursor.ahead = token :: rest) : cursor.index < cursor.stream.size := by
  have hl := congrArg List.length h
  rw [ahead, List.length_drop, ← TokenStream.size_eq_length, List.length_cons] at hl
  omega

/-- A step forward over a token leaves the tokens behind it. -/
theorem ahead_advance {cursor : Cursor} {token : Token} {rest : List Token}
    (h : cursor.ahead = token :: rest) : cursor.advance.ahead = rest := by
  have hi := index_lt_of_ahead h
  have hd : cursor.stream.tokens.drop (cursor.index + 1) = (cursor.ahead).drop 1 := by
    rw [ahead, List.drop_drop]
  simp only [ahead, advance, if_pos hi]
  rw [hd, h]
  rfl

/-- A step back undoes a step forward that passed a token, but for the permission to go
back. -/
theorem rewind_advance {cursor : Cursor} {token : Token} {rest : List Token}
    (h : cursor.ahead = token :: rest) :
    cursor.advance.rewind = .ok { cursor with rewindable := false } := by
  have hi := index_lt_of_ahead h
  simp only [rewind, advance, if_pos hi, if_true, Nat.add_sub_cancel]

/-- From one cursor to another exactly the given tokens were read. -/
structure Passes (c : Cursor) (tokens : List Token) (c' : Cursor) : Prop where
  /-- The tokens are read from one stream. -/
  stream : c'.stream = c.stream
  /-- The index grew by as many tokens. -/
  index : c'.index = c.index + tokens.length
  /-- What lay ahead begins with these tokens. -/
  ahead : c.ahead = tokens ++ c'.ahead
  /-- The end of the input was not read. -/
  noEnd : .eof ∉ tokens

/-- The end of the input lies ahead, and nothing lies behind it. -/
def Closed (cursor : Cursor) : Prop := cursor.ahead.getLast? = some .eof

/-- Where the end of the input lies ahead, there is a current token. -/
theorem Closed.ahead_eq {cursor : Cursor} (h : cursor.Closed) :
    ∃ token rest, cursor.ahead = token :: rest := by
  cases ha : cursor.ahead with
  | nil =>
    rw [Closed, ha] at h
    cases h
  | cons token rest => exact ⟨token, rest, rfl⟩

namespace Passes

variable {c c₁ c₂ : Cursor} {ts us : List Token}

/-- Staying at an index passes over nothing. -/
theorem of_index (hs : c₁.stream = c.stream) (hi : c₁.index = c.index) : c.Passes [] c₁ where
  stream := hs
  index := by rw [hi, List.length_nil, Nat.add_zero]
  ahead := by rw [List.nil_append, Cursor.ahead, Cursor.ahead, hs, hi]
  noEnd := List.not_mem_nil

/-- A cursor passes over nothing to reach itself. -/
theorem refl (c : Cursor) : c.Passes [] c := of_index rfl rfl

/-- A step forward passes over the token ahead. -/
theorem advance {token : Token} (h : c.ahead = token :: us) (ht : token ≠ .eof) :
    c.Passes [token] c.advance where
  stream := rfl
  index := by simp only [Cursor.advance, if_pos (index_lt_of_ahead h), List.length_singleton]
  ahead := by
    rw [ahead_advance h, h]
    rfl
  noEnd := by simpa only [List.mem_singleton] using ht.symm

/-- Two passages in a row pass over the tokens of the one and then of the other. -/
theorem trans (h₁ : c.Passes ts c₁) (h₂ : c₁.Passes us c₂) : c.Passes (ts ++ us) c₂ where
  stream := h₂.stream.trans h₁.stream
  index := by rw [h₂.index, h₁.index, List.length_append, Nat.add_assoc]
  ahead := by rw [h₁.ahead, h₂.ahead, List.append_assoc]
  noEnd := by
    intro h
    rcases List.mem_append.mp h with h | h
    · exact h₁.noEnd h
    · exact h₂.noEnd h

/-- Staying in place after a passage changes nothing. -/
theorem stay (h₁ : c.Passes ts c₁) (h₂ : c₁.Passes [] c₂) : c.Passes ts c₂ := by
  have h := h₁.trans h₂
  rwa [List.append_nil] at h

/-- Behind a passage lies what lay behind its tokens. -/
theorem ahead_eq (h : c.Passes ts c₁) (ha : c.ahead = ts ++ us) : c₁.ahead = us := by
  rw [h.ahead] at ha
  exact List.append_cancel_left ha

/-- Between two cursors lie the same tokens in every passage. -/
theorem tokens_unique (h₁ : c.Passes ts c₁) (h₂ : c.Passes us c₁) : ts = us :=
  List.append_cancel_right (h₁.ahead.symm.trans h₂.ahead)

/-- A passage over tokens leaves fewer of them. -/
theorem remaining_lt (h : c.Passes ts c₁) (ht : ts ≠ []) : c₁.remaining < c.remaining := by
  have hl := congrArg List.length h.ahead
  have hp := List.length_pos_iff.mpr ht
  rw [List.length_append] at hl
  rw [remaining_eq_length, remaining_eq_length]
  omega

/-- What was passed over up to the end of the input is all that lies before it. -/
theorem takeWhile_ahead (h : c.Passes ts c₁) (hend : c₁.ahead.head? = some .eof) :
    c.ahead.takeWhile (· ≠ .eof) = ts := by
  obtain ⟨others, ha⟩ : ∃ others, c₁.ahead = .eof :: others := List.head?_eq_some_iff.mp hend
  have hts : ∀ token ∈ ts, decide (token ≠ .eof) = true := by
    intro token hm
    refine decide_eq_true fun he => h.noEnd ?_
    rwa [← he]
  rw [h.ahead, ha, List.takeWhile_append_of_pos hts, List.takeWhile_cons_of_neg (by decide),
    List.append_nil]

/-- Behind the passage over one token the token before is the one that was passed. -/
theorem previousPosition {token : Token} (h : c.Passes [token] c₁) :
    c₁.previousPosition = c.position := by
  rw [Cursor.previousPosition, h.stream, h.index, List.length_singleton, Nat.add_sub_cancel,
    Cursor.position]

/-- Behind a passage the current token starts where the stream says. -/
theorem position (h : c.Passes ts c₁) :
    c₁.position = c.stream.position (c.index + ts.length) := by
  rw [Cursor.position, h.stream, h.index]

/-- The end of the input stays ahead. -/
theorem closed (h : c.Passes ts c₁) (hc : c.Closed) : c₁.Closed := by
  rw [Closed, h.ahead, List.getLast?_append] at hc
  cases hl : c₁.ahead.getLast? with
  | some token =>
    rw [hl] at hc
    exact hl.trans hc
  | none =>
    rw [hl] at hc
    exact absurd (List.mem_of_getLast? hc) h.noEnd

end Passes

/-- A current token other than the end of the input lies ahead. -/
theorem ahead_of_peek {cursor : Cursor} {token : Token} (h : cursor.peek = token)
    (ht : token ≠ .eof) : ∃ rest, cursor.ahead = token :: rest := by
  rw [peek_eq_headD] at h
  cases ha : cursor.ahead with
  | nil =>
    rw [ha] at h
    exact absurd h.symm ht
  | cons first others =>
    rw [ha] at h
    exact ⟨others, congrArg (· :: others) h⟩

/-- The current token is the first of those ahead. -/
theorem peek_of_ahead {cursor : Cursor} {token : Token} {rest : List Token}
    (h : cursor.ahead = token :: rest) : cursor.peek = token := by
  rw [peek_eq_headD, h]
  rfl

/-- The cursor behind a run of keywords, if all of them stand here in this order. -/
def consumeKeywords? (cursor : Cursor) : List Keyword → Option Cursor
  | [] => some cursor
  | keyword :: keywords =>
    match cursor.consumeKeyword? keyword with
    | some behind => behind.consumeKeywords? keywords
    | none => none

/-- Keywords that all stand here are gone over one by one. -/
theorem passKeywords_of_some {cursor behind : Cursor} {run : List Keyword}
    (h : cursor.consumeKeywords? run = some behind) : cursor.passKeywords run = (true, behind) := by
  induction run generalizing cursor with
  | nil =>
    cases h
    rfl
  | cons keyword keywords ih =>
    rw [consumeKeywords?] at h
    rw [passKeywords]
    cases hk : cursor.consumeKeyword? keyword with
    | some first =>
      rw [hk] at h
      exact ih h
    | none =>
      rw [hk] at h
      cases h

/-- Short of a keyword that does not stand here, the cursor may have moved, but in the same
stream. -/
theorem passKeywords_of_none {cursor : Cursor} {run : List Keyword}
    (h : cursor.consumeKeywords? run = none) :
    ∃ reached, cursor.passKeywords run = (false, reached) ∧ reached.stream = cursor.stream := by
  induction run generalizing cursor with
  | nil => cases h
  | cons keyword keywords ih =>
    rw [consumeKeywords?] at h
    rw [passKeywords]
    cases hk : cursor.consumeKeyword? keyword with
    | none => exact ⟨cursor, rfl, rfl⟩
    | some first =>
      rw [hk] at h
      obtain ⟨reached, hreached, hstream⟩ := ih h
      have hfirst : first.stream = cursor.stream := by
        rw [consumeKeyword?, consumeToken?] at hk
        split at hk <;> cases hk
        rfl
      exact ⟨reached, hreached, hstream.trans hfirst⟩

/-- The cursor that is put back where a keyword is missing is the one before the run. -/
theorem consumeKeywords_eq (cursor : Cursor) (run : List Keyword) :
    cursor.consumeKeywords run =
      ((cursor.consumeKeywords? run).isSome, (cursor.consumeKeywords? run).getD cursor) := by
  rw [consumeKeywords]
  cases h : cursor.consumeKeywords? run with
  | some behind =>
    rw [passKeywords_of_some h]
    rfl
  | none =>
    obtain ⟨reached, hreached, hstream⟩ := passKeywords_of_none h
    have hback : { reached with index := cursor.index, rewindable := cursor.rewindable } =
        cursor := by rw [hstream]
    rw [hreached]
    exact congrArg (Prod.mk false) hback

/-- A run of keywords that was consumed was passed over. -/
theorem consumeKeywords?_passes {cursor behind : Cursor} {keywords : List Keyword}
    (h : cursor.consumeKeywords? keywords = some behind) :
    cursor.Passes (keywords.map .keyword) behind := by
  induction keywords generalizing cursor with
  | nil =>
    cases h
    exact .refl _
  | cons keyword keywords ih =>
    unfold consumeKeywords? consumeKeyword? consumeToken? at h
    by_cases hk : cursor.peek = .keyword keyword
    · rw [if_pos hk] at h
      obtain ⟨rest, ha⟩ := ahead_of_peek hk nofun
      exact (Passes.advance ha nofun).trans (ih h)
    · rw [if_neg hk] at h
      cases h

/-- A run of keywords ahead is consumed. -/
theorem consumeKeywords?_of_ahead {cursor : Cursor} {keywords : List Keyword} {rest : List Token}
    (h : cursor.ahead = keywords.map .keyword ++ rest) :
    ∃ behind, cursor.consumeKeywords? keywords = some behind := by
  induction keywords generalizing cursor with
  | nil => exact ⟨cursor, rfl⟩
  | cons keyword keywords ih =>
    obtain ⟨behind, hb⟩ := ih (ahead_advance h)
    refine ⟨behind, ?_⟩
    rw [consumeKeywords?, consumeKeyword?, consumeToken?, if_pos (peek_of_ahead h)]
    exact hb

/-- The stream of a new cursor is the given one, or that one and the end of the input. -/
theorem stream_ofStream (stream : TokenStream) :
    (ofStream stream).stream =
      if stream.tokens.getLast? = some .eof then stream
      else stream.push .eof (stream.position stream.size) := by
  have hlast : stream.tokens.getLast? = stream.entries.back?.map (·.token) := by
    rw [TokenStream.tokens, List.getLast?_map, Array.getLast?_toList]
  simp only [ofStream, hlast, beq_iff_eq]

/-- Before the first token, the tokens of the stream lie ahead, with an end of the input if they
have none at their end. -/
theorem ahead_ofStream (stream : TokenStream) :
    (ofStream stream).ahead =
      if stream.tokens.getLast? = some .eof then stream.tokens else stream.tokens ++ [.eof] := by
  have hindex : (ofStream stream).index = 0 := rfl
  rw [ahead, stream_ofStream, hindex, List.drop_zero]
  by_cases hc : stream.tokens.getLast? = some .eof
  · rw [if_pos hc, if_pos hc]
  · rw [if_neg hc, if_neg hc]
    simp only [TokenStream.tokens, TokenStream.push, Array.toList_push, List.map_append,
      List.map_singleton]

/-- Inside a stream that ends with the end of the input, that end lies ahead. -/
theorem closed_of_index_lt {cursor : Cursor} (hs : cursor.stream.tokens.getLast? = some .eof)
    (hi : cursor.index < cursor.stream.size) : cursor.Closed := by
  rw [Closed, ahead, List.getLast?_drop, if_neg, hs]
  rw [← TokenStream.size_eq_length]
  omega

/-- Before the first token, the end of the input lies ahead. -/
theorem closed_ofStream (stream : TokenStream) : (ofStream stream).Closed := by
  rw [Closed, ahead_ofStream]
  by_cases hc : stream.tokens.getLast? = some .eof
  · rw [if_pos hc, hc]
  · rw [if_neg hc, List.getLast?_concat]

/-- Before the first token, the first end of the input lies ahead where it is in the stream, or
behind the stream if it has none. -/
theorem ahead_ofStream_of_tokens {stream : TokenStream} {ts rest : List Token}
    (h : stream.tokens = ts ++ rest) (hr : rest.headD .eof = .eof) :
    ∃ behind, (ofStream stream).ahead = ts ++ behind ∧ behind.headD .eof = .eof := by
  rw [ahead_ofStream, h]
  by_cases hc : (ts ++ rest).getLast? = some .eof
  · exact ⟨rest, if_pos hc, hr⟩
  · refine ⟨rest ++ [.eof], ?_, ?_⟩
    · rw [if_neg hc, List.append_assoc]
    · cases rest with
      | nil => rfl
      | cons token rest => exact hr

/-- The tokens before the first end of the input are those of the stream. -/
theorem takeWhile_ahead_ofStream (stream : TokenStream) :
    (ofStream stream).ahead.takeWhile (· ≠ .eof) = stream.tokens.takeWhile (· ≠ .eof) := by
  rw [ahead_ofStream]
  by_cases hc : stream.tokens.getLast? = some .eof
  · rw [if_pos hc]
  · rw [if_neg hc]
    clear hc
    induction stream.tokens with
    | nil => rfl
    | cons token tokens ih =>
      rw [List.cons_append, List.takeWhile_cons, List.takeWhile_cons, ih]

end Cursor

end SqlDdl
