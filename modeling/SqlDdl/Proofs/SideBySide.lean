import SqlDdl.Proofs.Spellings

/-!
# Readings side by side

Two readings run next to each other, each on a stream of its own. The streams hold
tokens that the grammar treats alike, at the same places of the text, from some index
on up to an end of the input. The steps of a reading then make the same choices
on both sides: they go on by as many tokens, or both stop with the same error at the
same token. Only that end of the input is ever read beyond, and nothing is read behind
it. What the values of two readings have in common is left to a relation; they are the
same wherever words side by side name the same.
-/

namespace SqlDdl

/-- Two tokens on which the grammar makes the same choices: equal tokens, or words that are
read as the same parts of type names and are empty together. -/
inductive Token.Alike : Token → Token → Prop where
  | same {token : Token} (mark : token.isWord = false) : Token.Alike token token
  | words {word other : Word} (empty : word.value.isEmpty = other.value.isEmpty)
      (head : Grammar.typeHead? word = Grammar.typeHead? other)
      (named : ∀ capitals, Grammar.isWordNamed capitals (.word word) =
        Grammar.isWordNamed capitals (.word other)) :
      Token.Alike (.word word) (.word other)

namespace Token.Alike

variable {token other : Token}

/-- Every token is alike to itself. -/
theorem refl (token : Token) : token.Alike token := by
  cases token with
  | word word => exact words rfl rfl fun _ => rfl
  | _ => exact same rfl

/-- Equal tokens are alike. -/
theorem of_eq (h : token = other) : token.Alike other := h ▸ refl token

/-- A token that is no word is alike to itself only. -/
theorem eq_iff (h : Token.Alike token other) {wanted : Token} (hw : wanted.isWord = false) :
    token = wanted ↔ other = wanted := by
  cases h with
  | same => rfl
  | words =>
    constructor
    · rintro rfl
      cases hw
    · rintro rfl
      cases hw

/-- Tokens that are alike are words together. -/
theorem isWord_eq (h : Token.Alike token other) : token.isWord = other.isWord := by
  cases h <;> rfl

/-- Tokens that are alike end a column together. -/
theorem endsColumn_eq (h : Token.Alike token other) :
    Grammar.endsColumn token = Grammar.endsColumn other := by
  cases h <;> rfl

/-- Tokens that are alike are the second word of a type together. -/
theorem isWordNamed_eq (h : Token.Alike token other) (capitals : String) :
    Grammar.isWordNamed capitals token = Grammar.isWordNamed capitals other := by
  cases h with
  | same => rfl
  | words _ _ named => exact named capitals

end Token.Alike

/-- Two streams whose tokens are related, with equal places, from an index of the one and from the
beginning of the other on, up to an end of the input; and the settings that each is read with. -/
structure Twins where
  /-- The stream that is read from the index on. -/
  left : TokenStream
  /-- The stream that is read from its beginning. -/
  right : TokenStream
  /-- The settings on the left. -/
  leftSettings : Settings
  /-- The settings on the right. -/
  rightSettings : Settings
  /-- How many tokens of the left stream stand before the first token of the right one. -/
  shift : Nat
  /-- The index of an end of the input in the right stream. -/
  last : Nat
  /-- How a token on the left and the one beside it are related. -/
  Related : Token → Token → Prop
  /-- No reading tells related tokens apart but by what words are kept as. -/
  alike : ∀ {token other : Token}, Related token other → token.Alike other
  /-- The right reading may nest expressions as deep as the left one. -/
  limit : leftSettings.maxExpressionDepth ≤ rightSettings.maxExpressionDepth
  /-- The left stream ends with the end of the input. -/
  leftClosed : left.tokens.getLast? = some .eof
  /-- The right stream ends with the end of the input. -/
  rightClosed : right.tokens.getLast? = some .eof
  /-- Up to that end the tokens beside each other are related and have equal places. -/
  entries : ∀ k ≤ last, ∃ entry other, left.entries[shift + k]? = some entry ∧
    right.entries[k]? = some other ∧ Related entry.token other.token ∧
    entry.position = other.position
  /-- An end of the input stands at the last index. -/
  ends : right.get? last = some .eof

namespace Twins

open Grammar (State Failure Reading)

/-- Two errors that differ at most in the token that was found, which is related. -/
inductive ErrorsAlike (w : Twins) : Error → Error → Prop where
  | same (error : Error) : w.ErrorsAlike error error
  | expected (expectation : Expectation) (position : Position) {found other : Token}
      (related : w.Related found other) :
      w.ErrorsAlike (.expected expectation found position) (.expected expectation other position)

/-- Two states that stand at the same place, at the end of the input or before it. -/
structure Level (w : Twins) (count : Nat) (s t : State) : Prop where
  /-- The left state stands in the left stream. -/
  left : s.cursor.stream = w.left
  /-- The right state stands in the right stream. -/
  right : t.cursor.stream = w.right
  /-- The left state has read as many tokens from the index on as the right one. -/
  index : s.cursor.index = w.shift + t.cursor.index
  /-- The end of the input has not been read. -/
  notEnded : t.cursor.index ≤ w.last
  /-- On the left so many expressions have been begun and not ended. -/
  leftNesting : s.nesting = count
  /-- On the right it is the same number. -/
  rightNesting : t.nesting = count

/-- Two states behind the first token from which both readings go on. -/
structure Abreast (w : Twins) (count : Nat) (s t : State) : Prop extends w.Level count s t where
  /-- A token has been read. -/
  begun : 0 < t.cursor.index

/-- Two states behind the first token in which both readings have stopped: the end of the input
may have been read too. -/
structure Halted (w : Twins) (count : Nat) (s t : State) : Prop where
  /-- The left state stands in the left stream. -/
  left : s.cursor.stream = w.left
  /-- The right state stands in the right stream. -/
  right : t.cursor.stream = w.right
  /-- The left state has read as many tokens from the index on as the right one. -/
  index : s.cursor.index = w.shift + t.cursor.index
  /-- A token has been read. -/
  begun : 0 < t.cursor.index
  /-- Nothing behind the end of the input has been read. -/
  inside : t.cursor.index ≤ w.last + 1
  /-- On the left so many expressions have been begun and not ended. -/
  leftNesting : s.nesting = count
  /-- On the right it is the same number. -/
  rightNesting : t.nesting = count

/-- How two readings side by side end: with related values, with errors that are alike, or the
left one at a limit of nesting that the right one does not have. -/
inductive Outcome (w : Twins) (count : Nat) {α β : Type} (R : α → β → Prop) :
    EStateM.Result Failure State α → EStateM.Result Failure State β → Prop where
  | ok {a : α} {b : β} {s t : State} (related : R a b) (abreast : w.Abreast count s t) :
      Outcome w count R (.ok a s) (.ok b t)
  | error {error other : Error} {s t : State} (alike : w.ErrorsAlike error other)
      (halted : w.Halted count s t) :
      Outcome w count R (.error (.error error) s) (.error (.error other) t)
  | cutShort {position : Position} {s : State} {result : EStateM.Result Failure State β}
      (lower : w.leftSettings.maxExpressionDepth < w.rightSettings.maxExpressionDepth) :
      Outcome w count R
        (.error (.error (.expressionTooDeep w.leftSettings.maxExpressionDepth position)) s) result

/-- An outcome is one for every weaker relation of the values. -/
theorem Outcome.mono {w : Twins} {count : Nat} {α β : Type} {R S : α → β → Prop}
    {x : EStateM.Result Failure State α} {y : EStateM.Result Failure State β}
    (h : w.Outcome count R x y) (hs : ∀ {a b}, R a b → S a b) : w.Outcome count S x y := by
  cases h with
  | ok hr ha => exact .ok (hs hr) ha
  | error he hh => exact .error he hh
  | cutShort hl => exact .cutShort hl

/-- Two readings that keep each other company, wherever they start abreast. -/
def Agree (w : Twins) (count : Nat) {α β : Type} (R : α → β → Prop) (p : Reading α)
    (q : Reading β) : Prop :=
  ∀ s t : State, w.Abreast count s t → w.Outcome count R (p s) (q t)

/-- Words side by side are kept as the same text. -/
def SameNames (w : Twins) : Prop :=
  ∀ {word other : Word}, w.Related (.word word) (.word other) →
    w.leftSettings.identifier word = w.rightSettings.identifier other

/-- Two values that are the same if names are. -/
def Same (w : Twins) {α : Type} (a b : α) : Prop := w.SameNames → a = b

variable {w : Twins} {count : Nat} {s t : State}

namespace Same

variable {α β γ : Type} {a a' : α} {b b' : β}

/-- A value is the same as itself. -/
theorem refl (a : α) : w.Same a a := fun _ => rfl

/-- A function takes same values to same values. -/
theorem map (f : α → β) (h : w.Same a a') : w.Same (f a) (f a') := fun hn => congrArg f (h hn)

/-- A function of two arguments takes same values to same values. -/
theorem map₂ (f : α → β → γ) (ha : w.Same a a') (hb : w.Same b b') :
    w.Same (f a b) (f a' b') := by
  intro hn
  rw [ha hn, hb hn]

end Same

namespace Level

/-- The entries at two places of one level. -/
theorem entries (h : w.Level count s t) :
    ∃ entry other, s.cursor.stream.entries[s.cursor.index]? = some entry ∧
      t.cursor.stream.entries[t.cursor.index]? = some other ∧
      w.Related entry.token other.token ∧ entry.position = other.position := by
  rw [h.left, h.right, h.index]
  exact w.entries t.cursor.index h.notEnded

/-- The current tokens are related. -/
theorem peek (h : w.Level count s t) : w.Related s.cursor.peek t.cursor.peek := by
  obtain ⟨entry, other, he, ho, hr, -⟩ := h.entries
  simp only [Cursor.peek, Cursor.peekNth, Nat.add_zero, TokenStream.get?, he, ho, Option.map_some,
    Option.getD_some]
  exact hr

/-- The current tokens start at the same place. -/
theorem position (h : w.Level count s t) : s.cursor.position = t.cursor.position := by
  obtain ⟨entry, other, he, ho, -, hp⟩ := h.entries
  rw [Cursor.position, Cursor.position, TokenStream.position_of_entry he,
    TokenStream.position_of_entry ho, hp]

/-- Both cursors stand inside their streams. -/
theorem index_lt (h : w.Level count s t) :
    s.cursor.index < s.cursor.stream.size ∧ t.cursor.index < t.cursor.stream.size := by
  obtain ⟨entry, other, he, ho, -, -⟩ := h.entries
  exact ⟨(Array.getElem?_eq_some_iff.mp he).choose, (Array.getElem?_eq_some_iff.mp ho).choose⟩

/-- The end of the input lies ahead on both sides. -/
theorem closed (h : w.Level count s t) : s.cursor.Closed ∧ t.cursor.Closed := by
  obtain ⟨hs, ht⟩ := h.index_lt
  exact ⟨Cursor.closed_of_index_lt (h.left ▸ w.leftClosed) hs,
    Cursor.closed_of_index_lt (h.right ▸ w.rightClosed) ht⟩

/-- Before another token than the end of the input, that end is not reached. -/
theorem index_lt_last (h : w.Level count s t) (ht : t.cursor.peek ≠ .eof) :
    t.cursor.index < w.last := by
  refine Nat.lt_of_le_of_ne h.notEnded fun he => ht ?_
  rw [Cursor.peek, Cursor.peekNth, h.right, Nat.add_zero, he, w.ends]
  rfl

/-- From one level the cursors step forward together, also over the end of the input. -/
theorem halted_advance (h : w.Level count s t) :
    w.Halted count { s with cursor := s.cursor.advance } { t with cursor := t.cursor.advance } := by
  obtain ⟨hs, ht⟩ := h.index_lt
  have hindex := h.index
  have hnot := h.notEnded
  refine ⟨h.left, h.right, ?_, ?_, ?_, h.leftNesting, h.rightNesting⟩
  · simp only [Cursor.advance, if_pos hs, if_pos ht]
    omega
  · simp only [Cursor.advance, if_pos ht]
    omega
  · simp only [Cursor.advance, if_pos ht]
    omega

/-- Over another token than the end of the input the cursors step forward and stay abreast. -/
theorem advance (h : w.Level count s t) (ht : t.cursor.peek ≠ .eof) :
    w.Abreast count { s with cursor := s.cursor.advance }
      { t with cursor := t.cursor.advance } := by
  have hlast := h.index_lt_last ht
  have hbehind := h.halted_advance
  refine ⟨⟨h.left, h.right, hbehind.index, ?_, h.leftNesting, h.rightNesting⟩, hbehind.begun⟩
  simp only [Cursor.advance, if_pos h.index_lt.2]
  omega

end Level

namespace Abreast

/-- Both readings may stop where they could go on. -/
theorem halted (h : w.Abreast count s t) : w.Halted count s t :=
  ⟨h.left, h.right, h.index, h.begun, Nat.le_succ_of_le h.notEnded, h.leftNesting,
    h.rightNesting⟩

/-- A step back behind a step forward leads to where both sides were abreast. -/
theorem rewind_advance (h : w.Abreast count s t) :
    Grammar.rewind { s with cursor := s.cursor.advance } =
        .ok () { s with cursor := { s.cursor with rewindable := false } } ∧
      Grammar.rewind { t with cursor := t.cursor.advance } =
        .ok () { t with cursor := { t.cursor with rewindable := false } } ∧
      w.Abreast count { s with cursor := { s.cursor with rewindable := false } }
        { t with cursor := { t.cursor with rewindable := false } } := by
  obtain ⟨_, _, hs⟩ := h.closed.1.ahead_eq
  obtain ⟨_, _, ht⟩ := h.closed.2.ahead_eq
  refine ⟨?_, ?_, ⟨h.left, h.right, h.index, h.notEnded, h.leftNesting, h.rightNesting⟩, h.begun⟩
  · rw [Grammar.rewind, Cursor.rewind_advance hs]
  · rw [Grammar.rewind, Cursor.rewind_advance ht]

end Abreast

/-- The tokens before two cursors that stopped side by side start at the same place. -/
theorem Halted.previousPosition (h : w.Halted count s t) :
    s.cursor.previousPosition = t.cursor.previousPosition := by
  have hbegun := h.begun
  have hinside := h.inside
  have hindex : s.cursor.index - 1 = w.shift + (t.cursor.index - 1) := by
    rw [h.index]
    omega
  obtain ⟨entry, other, he, ho, -, hp⟩ := w.entries (t.cursor.index - 1) (by omega)
  rw [Cursor.previousPosition, Cursor.previousPosition, h.left, h.right, hindex,
    TokenStream.position_of_entry he, TokenStream.position_of_entry ho, hp]

/-- What agrees behind the outcome of two readings continues it. -/
theorem Outcome.bind {α β α' β' : Type} {R : α → β → Prop} {S : α' → β' → Prop}
    {p : Reading α} {q : Reading β} {f : α → Reading α'} {g : β → Reading β'}
    (ho : w.Outcome count R (p s) (q t)) (hf : ∀ a b, R a b → w.Agree count S (f a) (g b)) :
    w.Outcome count S ((p >>= f) s) ((q >>= g) t) := by
  change w.Outcome count S (EStateM.bind p f s) (EStateM.bind q g t)
  unfold EStateM.bind
  generalize p s = x at ho ⊢
  generalize q t = y at ho ⊢
  cases ho with
  | ok hr ha => exact hf _ _ hr _ _ ha
  | error he hh => exact .error he hh
  | cutShort hl => exact .cutShort hl

namespace Agree

open Grammar

variable {α β α' β' : Type} {R : α → β → Prop} {S : α' → β' → Prop}

/-- Giving related values keeps both sides abreast. -/
theorem pure {a : α} {b : β} (h : R a b) :
    w.Agree count R (Pure.pure a : Reading α) (Pure.pure b : Reading β) :=
  fun _ _ ha => .ok h ha

/-- Sequences agree part by part. -/
theorem bind {p : Reading α} {q : Reading β} {f : α → Reading α'} {g : β → Reading β'}
    (hp : w.Agree count R p q) (hf : ∀ a b, R a b → w.Agree count S (f a) (g b)) :
    w.Agree count S (p >>= f) (q >>= g) :=
  fun s t h => (hp s t h).bind hf

/-- Alike errors stop both sides together. -/
theorem fail {error other : Error} (h : w.ErrorsAlike error other) :
    w.Agree count R (Grammar.fail error) (Grammar.fail other) :=
  fun _ _ ha => .error h ha.halted

/-- Both sides refuse their current tokens together. -/
theorem reject (expectation : Expectation) :
    w.Agree count R (Grammar.reject expectation) (Grammar.reject expectation) := by
  intro s t h
  refine .error ?_ h.halted
  rw [Cursor.expected, Cursor.expected, h.position]
  exact .expected expectation _ h.peek

/-- The current tokens start at one place. -/
theorem position : w.Agree count Eq Grammar.position Grammar.position :=
  fun _ _ h => .ok h.position h

/-- The tokens just read start at one place. -/
theorem previousPosition : w.Agree count Eq Grammar.previousPosition Grammar.previousPosition :=
  fun _ _ h => .ok h.halted.previousPosition h

/-- Events are kept apart from all else. -/
theorem record (event other : Event) :
    w.Agree count Eq (Grammar.record event) (Grammar.record other) :=
  fun _ _ h => .ok rfl
    ⟨⟨h.left, h.right, h.index, h.notEnded, h.leftNesting, h.rightNesting⟩, h.begun⟩

/-- Both sides find a token that is no word, or neither does. -/
theorem consume {token : Token} (hw : token.isWord = false) (he : token ≠ .eof) :
    w.Agree count Eq (Grammar.consume token) (Grammar.consume token) := by
  intro s t h
  have hiff := (w.alike h.peek).eq_iff hw
  by_cases ht : t.cursor.peek = token
  · have hs : s.cursor.peek = token := hiff.mpr ht
    rw [Grammar.consume, Grammar.consume, Cursor.consumeToken?, Cursor.consumeToken?, if_pos hs,
      if_pos ht]
    exact .ok rfl (h.advance (ht ▸ he))
  · have hs : s.cursor.peek ≠ token := fun hs => ht (hiff.mp hs)
    rw [consume_miss hs, consume_miss ht]
    exact .ok rfl h

/-- Both sides take the same branch, and the branches agree. -/
theorem branch {p p' : Reading α} {q q' : Reading β} (found : Bool) (hp : w.Agree count R p q)
    (hp' : w.Agree count R p' q') :
    w.Agree count R (if found then p else p') (if found then q else q') := by
  cases found with
  | true => exact hp
  | false => exact hp'

/-- Both sides find out the same and go on in the same way. -/
theorem choose {c c' : Reading Bool} {p p' : Reading α} {q q' : Reading β}
    (hc : w.Agree count Eq c c') (hp : w.Agree count R p q) (hp' : w.Agree count R p' q') :
    w.Agree count R (do if ← c then p else p') (do if ← c' then q else q') := by
  refine bind hc ?_
  rintro found _ rfl
  exact branch found hp hp'

/-- Both sides fail where the same is found, and else go on in the same way. -/
theorem guard (found : Bool) {error other : Error} (he : w.ErrorsAlike error other)
    {p : Unit → Reading α} {q : Unit → Reading β} (h : w.Agree count R (p ()) (q ())) :
    w.Agree count R (if found then Grammar.fail error >>= p else p ())
      (if found then Grammar.fail other >>= q else q ()) :=
  branch found (bind (R := Eq) (fail he) fun _ _ _ => h) h

/-- Both sides go on in the same way, behind one more reading where nothing is found. -/
theorem otherwise {found : Bool} {p q : Reading Unit} {k : Unit → Reading α}
    {k' : Unit → Reading β} (hp : w.Agree count Eq p q) (hk : w.Agree count R (k ()) (k' ())) :
    w.Agree count R (if found then k () else p >>= k) (if found then k' () else q >>= k') :=
  branch found hk (bind hp fun _ _ _ => hk)

/-- Both sides require a token that is no word. -/
theorem require {token : Token} (hw : token.isWord = false) (he : token ≠ .eof) :
    w.Agree count Eq (Grammar.require token) (Grammar.require token) := by
  refine bind (consume hw he) ?_
  rintro found _ rfl
  exact branch found (pure rfl) (reject _)

/-- Behind two runs of keywords that were read both sides are abreast; else neither was. -/
theorem consumeKeywords?_abreast (keywords : List Keyword) (h : w.Abreast count s t) :
    (s.cursor.consumeKeywords? keywords = none ∧ t.cursor.consumeKeywords? keywords = none) ∨
      ∃ behind beside, s.cursor.consumeKeywords? keywords = some behind ∧
        t.cursor.consumeKeywords? keywords = some beside ∧
        w.Abreast count { s with cursor := behind } { t with cursor := beside } := by
  induction keywords generalizing s t with
  | nil => exact Or.inr ⟨s.cursor, t.cursor, rfl, rfl, h⟩
  | cons keyword keywords ih =>
    have hword : (Token.keyword keyword).isWord = false := rfl
    have hiff := (w.alike h.peek).eq_iff hword
    simp only [Cursor.consumeKeywords?, Cursor.consumeKeyword?, Cursor.consumeToken?]
    by_cases ht : t.cursor.peek = .keyword keyword
    · rw [if_pos (hiff.mpr ht), if_pos ht]
      refine ih (h.advance fun he => ?_)
      rw [ht] at he
      cases he
    · rw [if_neg fun hs => ht (hiff.mp hs), if_neg ht]
      exact Or.inl ⟨rfl, rfl⟩

/-- Both sides find a run of keywords, or neither does. -/
theorem consumeKeywords (keywords : List Keyword) :
    w.Agree count Eq (Grammar.consumeKeywords keywords) (Grammar.consumeKeywords keywords) := by
  intro s t h
  rw [consumeKeywords_eq_moveTo, consumeKeywords_eq_moveTo]
  rcases consumeKeywords?_abreast keywords h with ⟨hs, ht⟩ | ⟨behind, beside, hs, ht, ha⟩
  · rw [hs, ht]
    exact .ok rfl h
  · rw [hs, ht]
    exact .ok rfl ha

/-- Tokens just read are refused together, the end of the input too. -/
theorem rejectRead_outcome {found other : Token} (expectation : Expectation)
    (h : w.Halted count s t) (hr : w.Related found other) :
    w.Outcome count R (Grammar.rejectRead expectation found s)
      (Grammar.rejectRead expectation other t) := by
  refine .error ?_ h
  rw [h.previousPosition]
  exact .expected expectation _ hr

end Agree

open Grammar

variable {α β α' β' : Type} {R : α → β → Prop} {S : α' → β' → Prop}

/-- Two readings that keep each other company before two given tokens. -/
def AgreeAt (w : Twins) (count : Nat) (token other : Token) (R : α → β → Prop) (p : Reading α)
    (q : Reading β) : Prop :=
  ∀ s t : State, w.Abreast count s t → s.cursor.peek = token → t.cursor.peek = other →
    w.Outcome count R (p s) (q t)

/-- Readings that agree anywhere agree before given tokens. -/
theorem Agree.before {p : Reading α} {q : Reading β} (h : w.Agree count R p q)
    (token other : Token) : w.AgreeAt count token other R p q :=
  fun s t ha _ _ => h s t ha

/-- Both sides look at related tokens and go on before them. -/
theorem Agree.peek_bind {f : Token → Reading α} {g : Token → Reading β}
    (h : ∀ token other, w.Related token other → w.AgreeAt count token other R (f token) (g other)) :
    w.Agree count R (Grammar.peek >>= f) (Grammar.peek >>= g) :=
  fun s t ha => h _ _ ha.peek s t ha rfl rfl

/-- Both sides go on from where they stand. -/
theorem Agree.here_bind {f : Cursor → Reading α} {g : Cursor → Reading β}
    (h : ∀ left right, w.Agree count R (f left) (g right)) :
    w.Agree count R (here >>= f) (here >>= g) :=
  fun _ _ ha => h _ _ _ _ ha

/-- Both sides read related tokens. -/
theorem Agree.next_bind {f : Token → Reading α} {g : Token → Reading β}
    (h : ∀ token other, w.Related token other →
      w.AgreeAt count token other R (next >>= f) (next >>= g)) :
    w.Agree count R (next >>= f) (next >>= g) :=
  fun s t ha => h _ _ ha.peek s t ha rfl rfl

namespace AgreeAt

variable {token other : Token} {f : Token → Reading α} {g : Token → Reading β}

/-- Both sides go on behind tokens that are not the end of the input. -/
theorem read (ht : other ≠ .eof) (h : w.Agree count R (f token) (g other)) :
    w.AgreeAt count token other R (next >>= f) (next >>= g) := by
  rintro s t ha rfl rfl
  exact h _ _ (ha.advance ht)

/-- Both sides refuse the tokens that they read, the end of the input too. -/
theorem refuse {expectation : Expectation} (hr : w.Related token other)
    (hf : f token = rejectRead expectation token) (hg : g other = rejectRead expectation other) :
    w.AgreeAt count token other R (next >>= f) (next >>= g) := by
  rintro s t ha rfl rfl
  change w.Outcome count R (f s.cursor.peek { s with cursor := s.cursor.advance })
    (g t.cursor.peek { t with cursor := t.cursor.advance })
  rw [hf, hg]
  exact Agree.rejectRead_outcome expectation ha.halted_advance hr

/-- Both sides go back to before the tokens that they read, and on from there. -/
theorem back {k : Unit → Reading α} {k' : Unit → Reading β} (hf : f token = rewind >>= k)
    (hg : g other = rewind >>= k') (h : w.Agree count R (k ()) (k' ())) :
    w.AgreeAt count token other R (next >>= f) (next >>= g) := by
  rintro s t ha rfl rfl
  obtain ⟨hs, ht, hback⟩ := ha.rewind_advance
  change w.Outcome count R (f s.cursor.peek { s with cursor := s.cursor.advance })
    (g t.cursor.peek { t with cursor := t.cursor.advance })
  rw [hf, hg, run_bind hs, run_bind ht]
  exact h _ _ hback

end AgreeAt

/-- Whenever a step goes on, it has read something. -/
def Progress (step : α → Reading (α ⊕ β)) : Prop :=
  ∀ {a a' : α} {s s' : State}, s.cursor.Closed → step a s = .ok (.inl a') s' →
    ∃ ts, ts ≠ [] ∧ s.cursor.Passes ts s'.cursor

/-- Repetitions of steps that agree and read something agree, and no step is repeated in vain. -/
theorem Agree.repeatStep {step : α → Reading (α ⊕ α')} {step' : β → Reading (β ⊕ β')}
    (hstep : ∀ a b, R a b → w.Agree count (Sum.LiftRel R S) (step a) (step' b))
    (hp : Progress step) (hp' : Progress step') {a : α} {b : β} (hr : R a b) :
    w.Agree count S (Grammar.repeatStep step a) (Grammar.repeatStep step' b) := by
  intro s t h
  fun_induction Grammar.repeatStep step a s generalizing b t with
  | case1 a s failure s₁ hs =>
    have ho := hstep a b hr s t h
    rw [hs] at ho
    rw [Grammar.repeatStep]
    generalize step' b t = y at ho
    cases ho with
    | error he hh => exact .error he hh
    | cutShort hl => exact .cutShort hl
  | case2 a s a₁ s₁ hs =>
    have ho := hstep a b hr s t h
    rw [hs] at ho
    rw [Grammar.repeatStep]
    generalize step' b t = y at ho
    cases ho with
    | ok hl ha =>
      cases hl with
      | inr hl => exact .ok hl ha
  | case3 a s a₁ s₁ hs _ ih =>
    have ho := hstep a b hr s t h
    rw [hs] at ho
    generalize ht : step' b t = y at ho
    cases ho with
    | ok hl ha =>
      cases hl with
      | inl hl =>
        obtain ⟨ts, hne, hpass⟩ := hp' h.closed.2 ht
        rw [repeatStep_inl ht (hpass.remaining_lt hne)]
        exact ih hl _ ha
  | case4 a s a₁ s₁ hs hstalled =>
    obtain ⟨ts, hne, hpass⟩ := hp h.closed.1 hs
    exact absurd (hpass.remaining_lt hne) hstalled

/-! Lists of items that agree. -/

section Lists

variable {item item' : Reading α} {spelled spelled' : List Token → Prop}

/-- A step through a separated list that goes on has read a separator. -/
theorem progress_separatedStep (h : Spells item spelled) {separator : Token}
    (hs : separator ≠ .eof) :
    Progress (separatedStep item separator) := by
  intro found found' s s' hc hstep
  obtain ⟨ts, -, hpass⟩ := h.separatedStep hs hc hstep
  exact ⟨separator :: ts, List.cons_ne_nil _ _, hpass⟩

/-- A step through a list up to its closing parenthesis that goes on has read a comma. -/
theorem progress_closedStep (h : Spells item spelled) (expectation : Expectation) :
    Progress (closedStep item expectation) := by
  intro found found' s s' hc hstep
  obtain ⟨ts, -, hpass⟩ := h.closedStep hc hstep
  exact ⟨ts ++ [.comma], List.append_ne_nil_of_right_ne_nil _ (List.cons_ne_nil _ _), hpass⟩

/-- Separated lists of items that agree do agree. -/
theorem Agree.separated (h : w.Agree count w.Same item item') (hs : Spells item spelled)
    (hs' : Spells item' spelled') {separator : Token} (hw : separator.isWord = false)
    (he : separator ≠ .eof) :
    w.Agree count w.Same (Grammar.separated item separator)
      (Grammar.separated item' separator) := by
  rw [separated_eq, separated_eq]
  refine .bind h fun first first' hfirst => ?_
  refine .repeatStep (R := w.Same) (fun found found' hr => ?_) (progress_separatedStep hs he)
    (progress_separatedStep hs' he) (hfirst.map fun a => [a])
  refine .choose (.consume hw he) (.bind h fun a a' ha => ?_) (.pure (.inr (hr.map _)))
  exact .pure (.inl (.map₂ _ ha hr))

/-- Lists of items that agree do agree up to their closing parentheses. -/
theorem Agree.closedList (h : w.Agree count w.Same item item') (hs : Spells item spelled)
    (hs' : Spells item' spelled') (expectation : Expectation) :
    w.Agree count w.Same (Grammar.closedList item expectation)
      (Grammar.closedList item' expectation) := by
  rw [closedList_eq, closedList_eq]
  refine .repeatStep (R := w.Same) (fun found found' hr => ?_)
    (progress_closedStep hs expectation) (progress_closedStep hs' expectation) (.refl [])
  refine .bind h fun a a' ha => ?_
  have hcons : w.Same (a :: found) (a' :: found') := .map₂ _ ha hr
  exact .choose (.consume rfl nofun) (.pure (.inr (hcons.map _)))
    (.choose (.consume rfl nofun) (.pure (.inl hcons)) (.reject expectation))

/-- Lists behind an opening parenthesis, of items that agree, do agree. -/
theorem Agree.listRest (h : w.Agree count w.Same item item') (hs : Spells item spelled)
    (hs' : Spells item' spelled') (expectation : Expectation) :
    w.Agree count w.Same (Grammar.listRest item expectation)
      (Grammar.listRest item' expectation) :=
  .choose (.consume rfl nofun) (.pure (.refl [])) (.closedList h hs hs' expectation)

end Lists

end Twins

end SqlDdl
