import SqlDdl.Proofs.Limits
import SqlDdl.Proofs.RecasedScans

/-!
# Letter case makes no difference

Two texts that differ only in the case of ASCII letters inside keywords and unquoted words
are read side by side, with identifiers folded. The tokens of the one and of the other are
read as the same keywords, parts of type names and identifiers, so both texts give the same
statement, or errors at the same place for the same reason, which may name one and the same
word in two mixes of case.
-/

namespace SqlDdl

open Text (SameLetters)

namespace Token.Recased

variable {token other : Token}

/-- The grammar makes the same choices on tokens that are equal but for the case of a word. -/
theorem alike (h : token.Recased other) : token.Alike other := by
  cases h with
  | same => exact .refl token
  | @words text other letters =>
    refine .words ?_ ?_ fun capitals => ?_
    · rw [Bool.eq_iff_iff, String.isEmpty_iff, String.isEmpty_iff, ← String.toList_eq_nil_iff,
        ← String.toList_eq_nil_iff]
      exact SameLetters.eq_nil_iff letters
    · rw [Grammar.typeHead?, Grammar.typeHead?, Text.toUpperCase_eq letters]
    · rw [Grammar.isWordNamed, Grammar.isWordNamed, Text.toUpperASCII_eq letters]

/-- Words that are equal but for their case are folded to the same text. -/
theorem identifier_eq {settings : Settings} (hfold : settings.foldIdentifiers = true)
    {word other : Word} (h : (Token.word word).Recased (.word other)) :
    settings.identifier word = settings.identifier other := by
  cases h with
  | same => rfl
  | words letters =>
    rw [Settings.identifier, Settings.identifier, hfold]
    exact Text.toLowerCase_eq letters

end Token.Recased

namespace TokenStream

variable {stream beside : TokenStream}

/-- Entries at one index of streams that are equal but for the case of words. -/
theorem entries_of_recased
    (h : List.Forall₂ Located.Recased stream.entries.toList beside.entries.toList) {k : Nat}
    (hk : k < stream.size) :
    ∃ entry other, stream.entries[k]? = some entry ∧ beside.entries[k]? = some other ∧
      entry.Recased other := by
  obtain ⟨hlength, hget⟩ := List.forall₂_iff_get.mp h
  have hk' : k < beside.size := Nat.lt_of_lt_of_eq hk hlength
  exact ⟨_, _, Array.getElem?_eq_getElem hk, Array.getElem?_eq_getElem hk', hget k hk hk'⟩

end TokenStream

/-- A closed stream and one that is equal to it but for the case of words, with a limit of nesting
on the right that is no lower. -/
def Twins.recased (left right : Settings) {stream beside : TokenStream} {last : Nat}
    (hs : stream.Closed) (hb : beside.Closed)
    (h : List.Forall₂ Located.Recased stream.entries.toList beside.entries.toList)
    (hlast : stream.get? last = some .eof)
    (hlimit : left.maxExpressionDepth ≤ right.maxExpressionDepth) : Twins where
  left := stream
  right := beside
  leftSettings := left
  rightSettings := right
  shift := 0
  last := last
  Related := Token.Recased
  alike := Token.Recased.alike
  limit := hlimit
  leftClosed := hs
  rightClosed := hb
  entries := by
    intro k hk
    obtain ⟨ending, hending, -⟩ := Option.map_eq_some_iff.mp hlast
    have hsize : k < stream.size :=
      Nat.lt_of_le_of_lt hk (Array.getElem?_eq_some_iff.mp hending).choose
    obtain ⟨entry, other, he, ho, hr⟩ := TokenStream.entries_of_recased h hsize
    exact ⟨entry, other, (Nat.zero_add k).symm ▸ he, ho, hr.token, hr.position⟩
  ends := by
    obtain ⟨ending, hending, hend⟩ := Option.map_eq_some_iff.mp hlast
    have hsize : last < stream.size := (Array.getElem?_eq_some_iff.mp hending).choose
    obtain ⟨entry, other, he, ho, hr⟩ := TokenStream.entries_of_recased h hsize
    obtain rfl : ending = entry := Option.some.inj (hending.symm.trans he)
    have htoken := hr.token
    rw [hend] at htoken
    cases hother : other.token with
    | eof => rw [TokenStream.get?, ho, Option.map_some, hother]
    | _ => rw [hother] at htoken; cases htoken

/-- Two texts that differ only in the case of keywords and unquoted words give the same result where
identifiers are folded, except that an error may name a word that was found as each of the texts
has it. -/
theorem parse_recased {settings : Settings} {text other : String} {stream : TokenStream}
    (hfold : settings.foldIdentifiers = true) (hscan : TokenStream.scan text = .ok stream)
    (h : stream.Recases text other) :
    parse settings other = parse settings text ∨
      ∃ (expectation : Expectation) (found found' : Token) (position : Position),
        found.Recased found' ∧
        parse settings text = .error (.error (.expected expectation found position)) ∧
        parse settings other = .error (.error (.expected expectation found' position)) := by
  have hlength : text.length = other.length := by
    rw [← String.length_toList, ← String.length_toList, h.letters.length_eq]
  by_cases hlimit : settings.maxInputLength < text.length
  · rw [parse_of_tooLarge hlimit, parse_of_tooLarge (hlength ▸ hlimit), Settings.tooLarge,
      Settings.tooLarge, hlength]
    exact .inl rfl
  obtain ⟨beside, hbeside, hrecased⟩ := TokenStream.scan_recased hscan h
  have hs : stream.Closed := TokenStream.getLast?_of_scan hscan
  have hb : beside.Closed := TokenStream.getLast?_of_scan hbeside
  rw [parse_of_scan hlimit hscan, parse_of_scan (hlength ▸ hlimit) hbeside]
  have hpos : 0 < stream.size := by
    obtain ⟨ending, hending, -⟩ := Option.map_eq_some_iff.mp hs.get?_last
    have hlt : stream.size - 1 < stream.size := (Array.getElem?_eq_some_iff.mp hending).choose
    omega
  obtain ⟨last, hlast⟩ := hs.exists_firstEnd hpos
  have hlevel : (Twins.recased settings settings hs hb hrecased hlast.ends (Nat.le_refl _)).Level 0
      (Session.ofScan settings text stream).state (Session.ofScan settings other beside).state :=
    ⟨Cursor.stream_ofStream_of_closed hs, Cursor.stream_ofStream_of_closed hb, rfl,
      Nat.zero_le _, rfl, rfl⟩
  cases Session.callsBeside rfl rfl hlevel with
  | ok hx hy same =>
    rw [Session.parse_of_ok hx, Session.parse_of_ok hy,
      same fun hr => hr.identifier_eq hfold]
    exact .inl rfl
  | error hx hy alike =>
    rw [Session.parse_of_error hx, Session.parse_of_error hy]
    cases alike with
    | same => exact .inl rfl
    | expected expectation position related =>
      exact .inr ⟨expectation, _, _, position, related, rfl, rfl⟩
  | cutShort lower => exact absurd lower (Nat.lt_irrefl _)

/-- A text in other case differs only in keywords and unquoted words from the one with the known
tokens. -/
theorem recases_negativeStream : negativeStream.Recases "CREATE TABLE u(c int DEFAULT -1)"
    "create Table U(C INT default -1)" where
  letters := by decide +kernel
  inside := by
    intro i
    rcases Nat.lt_or_ge i 32 with hi | hi
    · revert i
      decide +kernel
    · exact .inl ((List.getElem?_eq_none hi).trans (List.getElem?_eq_none hi).symm)

/-- The text in other case gives the same table. -/
theorem parse_recased_negativeTable :
    parse ⟨40, 5, true⟩ "create Table U(C INT default -1)" =
      .ok (negativeTable.meaning ⟨40, 5, true⟩) := by
  have hparse : parse ⟨40, 5, true⟩ "CREATE TABLE u(c int DEFAULT -1)" =
      .ok (negativeTable.meaning ⟨40, 5, true⟩) :=
    parse_of_written false (by decide) scan_negativeStream
      (show negativeTable.Admissible 5 by decide +kernel) (by decide +kernel)
  rcases @parse_recased ⟨40, 5, true⟩ _ _ _ rfl scan_negativeStream recases_negativeStream with
    hsame | ⟨_, _, _, _, -, hfails, -⟩
  · exact hsame.trans hparse
  · rw [hparse] at hfails
    cases hfails

end SqlDdl
