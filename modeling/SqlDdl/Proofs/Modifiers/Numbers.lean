import SqlDdl.Proofs.Decimals
import SqlDdl.Proofs.Limits
import SqlDdl.Proofs.LongestMatch
import SqlDdl.Proofs.Modifiers.Places
import SqlDdl.Proofs.Retreats

/-!
# Numbers as modifiers

Where a modifier is asked for, a number is read if it consists of digits and its value fits 32 bits,
however many zeros come first, and this value is what the tree holds. Any other number is refused
where it stands: one that is too large, and one with places or a power of ten. A plus sign, which a
decimal may have as well, never stands before a number of a text.
-/

namespace SqlDdl

open Grammar (AwaitsModifier)

namespace Text

/-- A number has digits only, and its value fits 32 bits. -/
def IsModifier (number : String) : Prop :=
  (∀ c ∈ number.toList, c.isDigit = true) ∧ digitsValue number.toList < UInt32.size

instance (number : String) : Decidable (IsModifier number) :=
  decidable_of_iff
    (number.toList.all Char.isDigit = true ∧ digitsValue number.toList < UInt32.size)
    (and_congr_left' List.all_eq_true)

/-- Zeros before the digits of a number do not count; the first number beyond 32 bits is none. -/
example : IsModifier "0004294967295" ∧ ¬ IsModifier "4294967296" ∧ ¬ IsModifier "5.0" := by
  decide +kernel

end Text

/-- A digit comes first in a number. -/
theorem NumberForm.head_isDigit (form : NumberForm) :
    ∃ c cs, form.text = c :: cs ∧ c.isDigit = true := by
  obtain ⟨c, cs, hwhole⟩ := List.exists_cons_of_ne_nil form.whole.nonempty
  refine ⟨c, cs ++ form.placesText ++ form.powerText, ?_, ?_⟩
  · rw [text, hwhole]
    rfl
  · exact form.whole.digit c (hwhole ▸ List.mem_cons_self)

namespace Text

variable {number : String} {form : NumberForm}

/-- A number is read below a bound exactly if it has digits only and its value is below the
bound. -/
theorem readDecimal?_of_form {bound value : Nat} (hb : 0 < bound)
    (hform : form.text = number.toList) :
    readDecimal? bound number = some value ↔
      (∀ c ∈ number.toList, c.isDigit = true) ∧ digitsValue number.toList = value ∧
        value < bound := by
  obtain ⟨c, cs, htext, hc⟩ := form.head_isDigit
  rw [hform] at htext
  rw [readDecimal?_eq_some_iff hb]
  constructor
  · rintro ⟨⟨digits, -, hdigits, hsame | hplus, rfl⟩, hlt⟩
    · subst hsame
      exact ⟨hdigits, rfl, hlt⟩
    · -- A plus sign is no digit.
      cases htext.symm.trans hplus
      cases hc
  · rintro ⟨hdigits, hvalue, hlt⟩
    exact ⟨⟨_, htext ▸ List.cons_ne_nil c cs, hdigits, .inl rfl, hvalue⟩, hlt⟩

/-- The number of a modifier has digits only, and the modifier is their value. -/
theorem isModifier_of_modifier {modifier : Modifier} (hform : form.text = modifier.text.toList) :
    IsModifier modifier.text ∧ modifier.meaning.toNat = digitsValue modifier.text.toList := by
  obtain ⟨hdigits, hvalue, hlt⟩ := (readDecimal?_of_form (by decide) hform).mp modifier.reads
  refine ⟨⟨hdigits, ?_⟩, ?_⟩
  · rw [hvalue]
    exact hlt
  · rw [hvalue]
    exact UInt32.toNat_ofNat_of_lt' hlt

/-- A number with digits only and a value that fits is that of a modifier. -/
theorem exists_modifier (hform : form.text = number.toList) (h : IsModifier number) :
    ∃ modifier : Modifier, modifier.text = number :=
  ⟨⟨number, _, (readDecimal?_of_form (by decide) hform).mpr ⟨h.1, rfl, h.2⟩⟩, rfl⟩

end Text

namespace Lexeme

/-- A word is no number. -/
theorem wordToken_ne_number (word number : String) : wordToken word ≠ .number number := by
  unfold wordToken
  split <;> exact nofun

/-- A sign is no number. -/
theorem ofSymbol?_ne_number (c : Char) (next : Option Char) (number : String) (length : Nat) :
    Token.ofSymbol? c next ≠ some (.number number, length) := by
  unfold Token.ofSymbol?
  split <;> exact nofun

/-- A number that is cut from a text has the form of one. -/
theorem form_of_ofChars {c : Char} {rest : List Char} {lexeme : Lexeme} {number : String}
    (h : ofChars c rest = .ok lexeme) (hnumber : lexeme.token = .number number) :
    ∃ form : NumberForm, form.text = number.toList := by
  have henclosed : ∀ {enclosure : Enclosure} {token : String → Token},
      (∀ text, token text ≠ .number number) → enclosed c enclosure token rest ≠ .ok lexeme := by
    intro enclosure token htoken he
    unfold enclosed at he
    split at he
    next => cases he; exact htoken _ hnumber
    next => cases he
  unfold ofChars at h
  split at h
  next => exact absurd h (henclosed fun _ => nofun)
  split at h
  next => exact absurd h (henclosed fun _ => nofun)
  split at h
  next hdigit =>
    cases h
    cases hnumber
    obtain ⟨form, hform⟩ := number_form rest hdigit
    exact ⟨form, hform.symm.trans String.toList_ofList.symm⟩
  split at h
  next =>
    have hword := wordToken_ne_number (String.ofList (c :: rest.takeWhile isWordPart)) number
    dsimp only at h
    generalize wordToken (String.ofList (c :: rest.takeWhile isWordPart)) = token at h hword
    cases h
    exact absurd hnumber hword
  split at h
  next token length hs =>
    cases h
    cases hnumber
    exact absurd hs (ofSymbol?_ne_number _ _ _ _)
  next => cases h

end Lexeme

namespace TokenStream

variable {found : Array Located} {source : Source} {stream : TokenStream} {text number : String}

/-- Every token that a scan adds is the end of the input or was cut from the text. -/
theorem cut_of_scanFrom (h : scanFrom found source = .ok stream) {token : Token}
    (hm : token ∈ stream.tokens) :
    token ∈ found.toList.map (·.token) ∨ token = .eof ∨
      ∃ c rest lexeme, Lexeme.ofChars c rest = .ok lexeme ∧ lexeme.token = token := by
  fun_induction scanFrom found source with
  | case1 => cases h
  | case2 found source here hs hr =>
    cases h
    rw [tokens, Array.toList_push, List.map_append] at hm
    rcases List.mem_append.mp hm with hfound | hlast
    · exact .inl hfound
    · exact .inr (.inl (List.mem_singleton.mp hlast))
  | case3 => cases h
  | case4 found source here hs c rest hr lexeme hl ih =>
    rcases ih h with hfound | hcut
    · rw [Array.toList_push, List.map_append] at hfound
      rcases List.mem_append.mp hfound with hfound | hlast
      · exact .inl hfound
      · exact .inr (.inr ⟨c, rest, lexeme, hl, (List.mem_singleton.mp hlast).symm⟩)
    · exact .inr hcut

/-- The numbers of a text have the form of numbers. -/
theorem form_of_scan (h : scan text = .ok stream) (hm : .number number ∈ stream.tokens) :
    ∃ form : NumberForm, form.text = number.toList := by
  rcases cut_of_scanFrom h hm with hfound | hend | ⟨c, rest, lexeme, hcut, hnumber⟩
  · exact absurd hfound List.not_mem_nil
  · cases hend
  · exact Lexeme.form_of_ofChars hcut hnumber

/-- The end of the input does not stand before another token of a text. -/
theorem eof_notMem_before (h : scan text = .ok stream) {before behind : List Token}
    {token : Token} (htokens : stream.tokens = before ++ token :: behind) : .eof ∉ before := by
  obtain ⟨pieces, -, -, hpieces, -⟩ := pieces_of_scan h
  have hfront := congrArg List.dropLast (hpieces.symm.trans htokens)
  rw [List.dropLast_concat, List.dropLast_append_of_ne_nil (List.cons_ne_nil _ _)] at hfront
  intro hm
  have hpiece : .eof ∈ pieces.map (·.token) := hfront ▸ List.mem_append_left _ hm
  obtain ⟨piece, -, hend⟩ := List.mem_map.mp hpiece
  exact piece.notEnd hend

end TokenStream

namespace Session

variable {session start : Session} {settings : Settings} {stream : TokenStream}
  {text number : String} {ts rest : List Token}

/-- A session on a text or on its tokens stays one over any number of calls. -/
theorem reached_after_scan (hscan : TokenStream.scan text = .ok stream)
    (hstart : ofText settings text = .ok start ∨ start = ofStream settings stream)
    (calls : Nat) : (start.after calls).Reached settings stream := by
  induction calls with
  | zero =>
    rcases hstart with hstart | rfl
    · rw [ofText] at hstart
      split at hstart
      · cases hstart
      · rw [hscan] at hstart
        cases hstart
        exact reached_ofScan settings text stream
    · exact reached_after settings stream 0
  | succ calls ih => exact ih.parse

/-- A session on a scanned text reads the tokens of the scan. -/
theorem Reached.tokens_of_scan (hr : session.Reached settings stream)
    (hscan : TokenStream.scan text = .ok stream) : session.tokens = stream :=
  hr.tokens.trans (Cursor.stream_ofStream_of_closed (TokenStream.getLast?_of_scan hscan))

/-- A token ahead stands in the text behind those before it, and the end of the input is none of
these but comes later. -/
theorem Reached.ahead_of_scan (hr : session.Reached settings stream)
    (hscan : TokenStream.scan text = .ok stream) {token : Token}
    (hahead : session.state.cursor.ahead = ts ++ token :: rest) :
    stream.get? (session.index + ts.length) = some token ∧ .eof ∉ ts ∧
      session.state.cursor.Closed := by
  have hdrop : stream.tokens.drop session.index = ts ++ token :: rest :=
    hr.tokens_of_scan hscan ▸ hahead
  refine ⟨?_, fun hm => ?_, ?_⟩
  · rw [TokenStream.get?_eq_tokens, ← List.getElem?_drop, hdrop,
      List.getElem?_append_right (Nat.le_refl _), Nat.sub_self]
    rfl
  · have hall : stream.tokens = stream.tokens.take session.index ++ ts ++ token :: rest := by
      rw [List.append_assoc, ← hdrop, List.take_append_drop]
    exact TokenStream.eof_notMem_before hscan hall (List.mem_append_right _ hm)
  · obtain ⟨first, others, hfirst⟩ := List.exists_cons_of_ne_nil
      (List.append_ne_nil_of_right_ne_nil ts (List.cons_ne_nil token rest))
    exact Cursor.closed_of_index_lt hr.closed (Cursor.index_lt_of_ahead (hahead.trans hfirst))

/-- A call is refused at a token that is no modifier and stands in the place of one. -/
theorem Reached.refusal_of_place (hr : session.Reached settings stream) {place : ModifierPlace}
    (hp : place.Admissible settings.maxExpressionDepth) {token : Token}
    (hahead : session.state.cursor.ahead = place.tokens ++ token :: rest)
    (hother : ∀ modifier : Modifier, token ≠ .number modifier.text) :
    session.parse.1 = .error (.error (.expected .typeModifier token
      (session.tokens.position (session.index + place.tokens.length)))) := by
  rw [← hr.settings] at hp
  obtain ⟨s₁, hpass, hfail, -⟩ := Grammar.statement_leadsTo place hr.nesting hp hahead
  have hpeek : s₁.cursor.peek = token := Cursor.peek_of_ahead (hpass.ahead_eq hahead)
  have hrefused := Grammar.typeModifier_refuses (hpeek ▸ hother)
  rw [parse_of_error (hfail _ _ hrefused), hpeek, Cursor.expected, hpass.toPasses.position]
  rfl

/-- A call passes over a modifier that stands in its place: it gives a statement with that
modifier, or it is refused at a token behind it. -/
theorem Reached.passes_modifier (hr : session.Reached settings stream) {place : ModifierPlace}
    (hp : place.Admissible settings.maxExpressionDepth) {modifier : Modifier}
    (hahead : session.state.cursor.ahead = place.tokens ++ .number modifier.text :: rest)
    (hclosed : session.state.cursor.Closed) :
    (∀ failure, session.parse.1 = .error failure → ∃ error k, failure = .error error ∧
      session.index + place.tokens.length < k ∧ error.PointsAt session.tokens k) ∧
    ∀ statement, session.parse.1 = .ok statement →
      place.KeptBy settings modifier.meaning statement := by
  rw [← hr.settings] at hp ⊢
  obtain ⟨s₁, hpass, -, hends⟩ := Grammar.statement_leadsTo place hr.nesting hp hahead
  obtain ⟨s₂, hread, hover, -⟩ :=
    Grammar.typeModifier_reads modifier (hpass.ahead_eq hahead)
  have hbehind := hpass.toPasses.trans hover.toPasses
  have hends := hends _ _ hread (hbehind.closed hclosed)
  cases hs : Grammar.statement session.settings session.state with
  | ok tree s' =>
    rw [hs] at hends
    have hparse : session.parse.1 = .ok tree := congrArg Prod.fst (parse_of_ok hs)
    rw [hparse]
    refine ⟨fun failure h => ?_, fun statement h => ?_⟩
    · cases h
    · cases h
      exact hends.2
  | error failure s' =>
    rw [hs] at hends
    have hparse : session.parse.1 = .error failure := congrArg Prod.fst (parse_of_error hs)
    rw [hparse]
    refine ⟨fun found h => ?_, fun statement h => ?_⟩
    · cases h
      cases failure with
      | fault fault => exact absurd hparse (hr.parse_ne_fault fault)
      | error error =>
        obtain ⟨us, hbreaks⟩ := hends
        have hindex : s₂.cursor.index = session.index + place.tokens.length + 1 := by
          rw [hbehind.index, List.length_append, ← Nat.add_assoc]
          rfl
        have hpoints := hbreaks.points
        rw [hbehind.stream] at hpoints
        exact ⟨error, s₂.cursor.index + us.length, rfl, by omega, hpoints⟩
    · cases h

/-- A token of a text that has the place of another one is that one. -/
theorem index_of_expected (hscan : TokenStream.scan text = .ok stream) {index k : Nat}
    {token : Token} {expectation : Expectation} (htoken : stream.get? index = some token)
    (h : (Error.expected expectation token (stream.position index)).PointsAt stream k) :
    k = index := by
  obtain ⟨entry, hentry, -⟩ := Option.map_eq_some_iff.mp htoken
  have hplace : stream.entries[index]?.map (·.position) = some (stream.position index) := by
    rw [TokenStream.position_of_entry hentry, hentry]
    rfl
  exact TokenStream.index_unique_of_scan hscan hplace (h.position_eq rfl)

/-- Whether a number is read where a modifier is asked for depends on the number alone. One that
has digits only and a value that fits 32 bits is passed over, however many zeros come first, and
its value is what the tree holds; a call may fail only behind it. Any other number is refused where
it stands, and no other call fails in this way. A modifier is asked for behind a column of a new
table, as its length, its precision or its scale. -/
theorem parse_modifier (hscan : TokenStream.scan text = .ok stream)
    (hstart : ofText settings text = .ok start ∨ start = ofStream settings stream) (calls : Nat)
    (hahead : (start.after calls).state.cursor.ahead = ts ++ .number number :: rest)
    (hawaits : AwaitsModifier settings ts) :
    let session := start.after calls
    let index := session.index + ts.length
    let refusal := Error.expected .typeModifier (.number number) (stream.position index)
    stream.get? index = some (.number number) ∧
    refusal.message = "expected an integer type modifier found " ++ number ∧
    (session.parse.1 = .error (.error refusal) ↔ ¬ Text.IsModifier number) ∧
    ∃ place : ModifierPlace, place.Admissible settings.maxExpressionDepth ∧ place.tokens = ts ∧
      (Text.IsModifier number →
        (∀ failure, session.parse.1 = .error failure → ∃ error k, failure = .error error ∧
          index < k ∧ error.PointsAt stream k) ∧
        ∀ statement, session.parse.1 = .ok statement → ∃ value : UInt32,
          value.toNat = Text.digitsValue number.toList ∧
            place.KeptBy settings value statement) := by
  intro session index refusal
  have hr : session.Reached settings stream := reached_after_scan hscan hstart calls
  have htokens : session.tokens = stream := hr.tokens_of_scan hscan
  obtain ⟨hnumber, hend, hclosed⟩ := hr.ahead_of_scan hscan hahead
  have hmem : .number number ∈ stream.tokens := by
    rw [TokenStream.get?_eq_tokens] at hnumber
    exact List.mem_of_getElem? hnumber
  obtain ⟨form, hform⟩ := TokenStream.form_of_scan hscan hmem
  obtain ⟨place, hp, rfl⟩ := (Grammar.awaitsModifier_iff hend).mp hawaits
  have hrefused : ¬ Text.IsModifier number → session.parse.1 = .error (.error refusal) := by
    intro hno
    have hother : ∀ modifier : Modifier, Token.number number ≠ .number modifier.text := by
      rintro modifier heq
      cases heq
      exact hno (Text.isModifier_of_modifier hform).1
    have hparse := hr.refusal_of_place hp hahead hother
    rwa [htokens] at hparse
  have hpassed : Text.IsModifier number →
      (∀ failure, session.parse.1 = .error failure → ∃ error k, failure = .error error ∧
        index < k ∧ error.PointsAt stream k) ∧
      ∀ statement, session.parse.1 = .ok statement → ∃ value : UInt32,
        value.toNat = Text.digitsValue number.toList ∧ place.KeptBy settings value statement := by
    intro hyes
    obtain ⟨modifier, rfl⟩ := Text.exists_modifier hform hyes
    obtain ⟨hbehind, hkept⟩ := hr.passes_modifier hp hahead hclosed
    rw [htokens] at hbehind
    exact ⟨hbehind, fun statement h =>
      ⟨_, (Text.isModifier_of_modifier hform).2, hkept statement h⟩⟩
  refine ⟨hnumber, rfl, ⟨fun h hyes => ?_, hrefused⟩, place, hp, rfl, hpassed⟩
  obtain ⟨error, k, herror, hlt, hpoints⟩ := (hpassed hyes).1 _ h
  cases herror
  have hk := index_of_expected hscan hnumber hpoints
  omega

end Session

/-- The tokens of `CREATE TABLE p(q decimal(007,4294967296))`. -/
def largeScale : TokenStream :=
  ⟨#[⟨.keyword .create, .start⟩, ⟨.keyword .table, ⟨1, 8, 7⟩⟩, ⟨.word ⟨"p", false⟩, ⟨1, 14, 13⟩⟩,
    ⟨.leftParen, ⟨1, 15, 14⟩⟩, ⟨.word ⟨"q", false⟩, ⟨1, 16, 15⟩⟩,
    ⟨.word ⟨"decimal", false⟩, ⟨1, 18, 17⟩⟩, ⟨.leftParen, ⟨1, 25, 24⟩⟩,
    ⟨.number "007", ⟨1, 26, 25⟩⟩, ⟨.comma, ⟨1, 29, 28⟩⟩, ⟨.number "4294967296", ⟨1, 30, 29⟩⟩,
    ⟨.rightParen, ⟨1, 40, 39⟩⟩, ⟨.rightParen, ⟨1, 41, 40⟩⟩, ⟨.eof, ⟨1, 42, 41⟩⟩]⟩

/-- The text is scanned to its tokens. -/
theorem scan_largeScale :
    TokenStream.scan "CREATE TABLE p(q decimal(007,4294967296))" = .ok largeScale := by
  refine (TokenStream.scanFrom_lexeme (Source.skipLayout_stop rfl) rfl rfl).trans ?_
  refine (TokenStream.scanFrom_lexeme (Source.skipLayout_space rfl) rfl rfl).trans ?_
  refine (TokenStream.scanFrom_lexeme (Source.skipLayout_space rfl) rfl rfl).trans ?_
  refine (TokenStream.scanFrom_lexeme (Source.skipLayout_stop rfl) rfl rfl).trans ?_
  refine (TokenStream.scanFrom_lexeme (Source.skipLayout_stop rfl) rfl rfl).trans ?_
  refine (TokenStream.scanFrom_lexeme (Source.skipLayout_space rfl) rfl rfl).trans ?_
  refine (TokenStream.scanFrom_lexeme (Source.skipLayout_stop rfl) rfl rfl).trans ?_
  refine (TokenStream.scanFrom_lexeme (Source.skipLayout_stop rfl) rfl rfl).trans ?_
  refine (TokenStream.scanFrom_lexeme (Source.skipLayout_stop rfl) rfl rfl).trans ?_
  refine (TokenStream.scanFrom_lexeme (Source.skipLayout_stop rfl) rfl rfl).trans ?_
  refine (TokenStream.scanFrom_lexeme (Source.skipLayout_stop rfl) rfl rfl).trans ?_
  refine (TokenStream.scanFrom_lexeme (Source.skipLayout_stop rfl) rfl rfl).trans ?_
  exact TokenStream.scanFrom_end (Source.skipLayout_stop rfl) rfl

/-- The place of the scale, behind a precision with zeros before it. -/
def scalePlace : ModifierPlace where
  ifNotExists := false
  table := ⟨⟨⟨"p", false⟩, by decide⟩, []⟩
  entries := []
  column := ⟨⟨"q", false⟩, by decide⟩
  dataType := .scale ⟨⟨"decimal", false⟩, rfl, by decide +kernel⟩ ⟨"007", 7, rfl⟩

/-- A scale that is too large by one is refused behind a precision with zeros before it. -/
theorem parse_modifier_largeScale :
    parse .standard "CREATE TABLE p(q decimal(007,4294967296))" =
      .error (.error (.expected .typeModifier (.number "4294967296") ⟨1, 30, 29⟩)) := by
  have hlimit : ¬ Settings.standard.maxInputLength <
      "CREATE TABLE p(q decimal(007,4294967296))".length := by
    decide
  have hstart : Session.ofText .standard "CREATE TABLE p(q decimal(007,4294967296))" =
      .ok (.ofScan .standard "CREATE TABLE p(q decimal(007,4294967296))" largeScale) := by
    rw [Session.ofText, if_neg hlimit, scan_largeScale]
    rfl
  have hahead : (Session.ofScan .standard "CREATE TABLE p(q decimal(007,4294967296))"
      largeScale).state.cursor.ahead =
        scalePlace.tokens ++ .number "4294967296" :: [.rightParen, .rightParen, .eof] :=
    rfl
  have hawaits : AwaitsModifier .standard scalePlace.tokens :=
    (Grammar.awaitsModifier_iff (by decide)).mpr
      ⟨scalePlace, fun _ => (absurd · List.not_mem_nil), rfl⟩
  obtain ⟨-, -, hrefused, -⟩ :=
    Session.parse_modifier scan_largeScale (.inl hstart) 0 hahead hawaits
  rw [parse_of_scan hlimit scan_largeScale]
  exact hrefused.mpr (by decide +kernel)

end SqlDdl
