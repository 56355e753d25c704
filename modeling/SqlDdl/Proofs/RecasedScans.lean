import SqlDdl.Proofs.Recasing
import SqlDdl.Proofs.Scans

/-!
# Scans of texts with the same letters

A text that can be scanned and another one with the same letters are scanned to as many
tokens, at the same places. Where the two differ only inside keywords and unquoted words
of the first, all other tokens are equal: no two lexemes overlap, so nothing that belongs
to such a token can differ.
-/

namespace SqlDdl

open Text (SameLetter SameLetters)

/-- A token has as many characters as it is displayed with. -/
theorem Token.SpelledAs.length_eq {token : Token} {cs : List Char} (h : token.SpelledAs cs) :
    cs.length = token.display.toList.length := by
  cases token with
  | keyword reserved =>
    have hspelled : cs.map Char.toUpper = reserved.spelling.toList := h
    have hlength := congrArg List.length hspelled
    rwa [List.length_map] at hlength
  | _ => exact congrArg List.length h

/-- Two texts that are equal where each of them has a part, behind as many characters, have equal
parts there. -/
theorem part_eq {before before' part part' rest rest' : List Char}
    (hbefore : before.length = before'.length) (hpart : part.length = part'.length)
    (h : ∀ i, before.length ≤ i → i < before.length + part.length →
      (before ++ (part ++ rest))[i]? = (before' ++ (part' ++ rest'))[i]?) : part = part' := by
  refine List.ext_getElem? fun k => ?_
  rcases Nat.lt_or_ge k part.length with hk | hk
  · have heq := h (before.length + k) (Nat.le_add_right _ _) (by omega)
    rwa [List.getElem?_append_right (Nat.le_add_right _ _), Nat.add_sub_cancel_left,
      List.getElem?_append_left hk, hbefore, List.getElem?_append_right (Nat.le_add_right _ _),
      Nat.add_sub_cancel_left, List.getElem?_append_left (hpart ▸ hk)] at heq
  · rw [List.getElem?_eq_none hk, List.getElem?_eq_none (hpart ▸ hk)]

namespace Located

/-- Whether the lexeme of a token takes up the character at an index of the text. -/
def Covers (entry : Located) (i : Nat) : Prop :=
  entry.position.offset ≤ i ∧ i < entry.position.offset + entry.token.display.toList.length

instance (entry : Located) (i : Nat) : Decidable (entry.Covers i) :=
  inferInstanceAs (Decidable (_ ∧ _))

/-- Two tokens that were cut at one place from texts with the same letters. They are equal if the
texts are equal where the lexeme stands, and in any case if they are keywords or unquoted words,
but for the case of the words. -/
structure Paired (cs ds : List Char) (entry other : Located) : Prop where
  /-- Both stand at one place. -/
  position : entry.position = other.position
  /-- Keywords and unquoted words are equal but for case. -/
  free : entry.token.isCaseFree = true → entry.token.Recased other.token
  /-- Where the texts do not differ the tokens do not. -/
  fixed : (∀ i, entry.Covers i → cs[i]? = ds[i]?) → entry.token = other.token

end Located

namespace Source

variable {cs ds : List Char} {source other here : Source}

/-- A source has as many characters of a whole text before it as its offset says. -/
def RestOf (cs : List Char) (source : Source) : Prop :=
  ∃ before, cs = before ++ source.rest ∧ before.length = source.position.offset

/-- Behind layout the rest of a text is a rest of it. -/
theorem RestOf.skipLayout (h : source.RestOf cs) (hs : source.skipLayout = .ok here) :
    here.RestOf cs := by
  obtain ⟨before, hcs, hlength⟩ := h
  obtain ⟨layout, hrest, hposition, -⟩ := skipLayoutFrom_ok hs
  refine ⟨before ++ layout.text, ?_, ?_⟩
  · rw [hcs, hrest, List.append_assoc]
  · rw [List.length_append, hlength, hposition, Position.offset_afterAll]

/-- Behind a part of it the rest of a text is a rest of it. -/
theorem RestOf.behind {part rest : List Char} (h : source.RestOf cs)
    (hr : source.rest = part ++ rest) :
    RestOf cs ⟨rest, source.position.afterAll part⟩ := by
  obtain ⟨before, hcs, hlength⟩ := h
  refine ⟨before ++ part, ?_, ?_⟩
  · rw [hcs, hr, List.append_assoc]
  · rw [List.length_append, hlength, Position.offset_afterAll]

/-- Two sources at one place begin with equal parts if the whole texts are equal there. -/
theorem RestOf.part_eq {part part' rest rest' : List Char} (h : source.RestOf cs)
    (h' : other.RestOf ds) (hposition : source.position = other.position)
    (hr : source.rest = part ++ rest) (hr' : other.rest = part' ++ rest')
    (hlength : part.length = part'.length)
    (heq : ∀ i, source.position.offset ≤ i → i < source.position.offset + part.length →
      cs[i]? = ds[i]?) : part = part' := by
  obtain ⟨before, rfl, hbefore⟩ := h
  obtain ⟨before', rfl, hbefore'⟩ := h'
  rw [hr, hr', ← hbefore] at heq
  exact SqlDdl.part_eq (by rw [hbefore, hbefore', hposition]) hlength heq

end Source

namespace Piece

/-- A piece ends before the pieces do. -/
theorem end_of_mem_located {p : Position} {pieces : List Piece} {entry : Located}
    (h : entry ∈ located p pieces) :
    entry.position.offset + entry.token.display.toList.length ≤
      p.offset + (pieces.flatMap written).length := by
  induction pieces generalizing p with
  | nil => exact absurd h List.not_mem_nil
  | cons piece pieces ih =>
    have hwritten : piece.written.length = (layoutText piece.layout).length + piece.text.length :=
      List.length_append
    rw [List.flatMap_cons, List.length_append]
    rcases List.mem_cons.mp h with rfl | h
    · rw [Position.offset_afterAll, ← piece.spelled.length_eq]
      omega
    · have hbehind := ih h
      rw [Position.offset_afterAll] at hbehind
      omega

/-- Each of some pieces ends before the next begins. -/
theorem pairwise_ends_located (p : Position) (pieces : List Piece) :
    (located p pieces).Pairwise fun entry next =>
      entry.position.offset + entry.token.display.toList.length ≤ next.position.offset := by
  induction pieces generalizing p with
  | nil => exact List.Pairwise.nil
  | cons piece pieces ih =>
    refine List.pairwise_cons.mpr ⟨fun entry h => ?_, ih _⟩
    have hwritten : piece.written.length = (layoutText piece.layout).length + piece.text.length :=
      List.length_append
    have hbehind := (offset_of_mem_located h).1
    rw [Position.offset_afterAll] at hbehind ⊢
    rw [← piece.spelled.length_eq]
    omega

end Piece

namespace TokenStream

open Located (Paired)

variable {found found' : Array Located} {source source' : Source} {stream : TokenStream}
  {cs ds : List Char}

/-- Two texts with the same letters are scanned in pairs of tokens from one place on. -/
theorem scanFrom_paired (h : scanFrom found source = .ok stream) (hsame : source.Same source')
    (hcs : source.RestOf cs) (hds : source'.RestOf ds)
    (hfound : List.Forall₂ (Paired cs ds) found.toList found'.toList) :
    ∃ beside, scanFrom found' source' = .ok beside ∧
      List.Forall₂ (Paired cs ds) stream.entries.toList beside.entries.toList := by
  -- The tokens found so far are pairs, and both places lie equally far into the two whole texts.
  fun_induction scanFrom found source generalizing found' source' with
  | case1 => cases h
  | case2 found source here hs hr =>
    cases h
    obtain ⟨there, hthere, hrest, hposition⟩ := Source.skipLayoutFrom_same hsame.rest hs
    rw [hsame.position] at hthere
    rw [hr] at hrest
    have hnil : there.rest = [] := List.forall₂_nil_left_iff.mp hrest
    refine ⟨_, scanFrom_end hthere hnil, ?_⟩
    rw [Array.toList_push, Array.toList_push]
    exact List.rel_append hfound (.cons ⟨hposition, by rintro ⟨⟩, fun _ => rfl⟩ .nil)
  | case3 => cases h
  | case4 found source here hs c rest hr lexeme hl ih =>
    obtain ⟨there, hthere, hrest, hposition⟩ := Source.skipLayoutFrom_same hsame.rest hs
    rw [hsame.position] at hthere
    have hbehind := hcs.skipLayout hs
    have hbehind' := hds.skipLayout hthere
    rw [hr] at hrest
    obtain ⟨d, rest', hcd, hrest, hr'⟩ := List.forall₂_cons_left_iff.mp hrest
    obtain ⟨other, hl', halike⟩ := Lexeme.ofChars_alike hcd hrest hl
    obtain ⟨hcut, -, hspelled, -⟩ := Lexeme.ofChars_ok hl
    obtain ⟨hcut', -⟩ := Lexeme.ofChars_ok hl'
    rw [scanFrom_lexeme hthere hr' hl']
    have hpair : Paired cs ds ⟨lexeme.token, here.position⟩ ⟨other.token, there.position⟩ := by
      refine ⟨hposition, halike.free, fun heq => halike.fixed ?_⟩
      refine hbehind.part_eq hbehind' hposition (hr.trans hcut) (hr'.trans hcut')
        halike.text.length_eq fun i hi hlt => heq i ⟨hi, ?_⟩
      rwa [← hspelled.length_eq]
    have hends : here.position.afterAll lexeme.text = there.position.afterAll other.text := by
      rw [← hposition, Position.afterAll_eq halike.text]
    refine ih h ⟨halike.rest, hends⟩ (hbehind.behind (hr.trans hcut))
      (hbehind'.behind (hr'.trans hcut')) ?_
    rw [Array.toList_push, Array.toList_push]
    exact List.rel_append hfound (.cons hpair .nil)

/-- No lexeme of a scanned text reaches beyond the place of the next token. -/
theorem pairwise_ends_of_scan {text : String} (h : scan text = .ok stream) :
    stream.entries.toList.Pairwise fun entry next =>
      entry.position.offset + entry.token.display.toList.length ≤ next.position.offset := by
  obtain ⟨pieces, last, ht, hentries⟩ := scanFrom_ok h
  rw [Array.toList_empty, List.nil_append] at hentries
  rw [hentries]
  refine List.pairwise_append.mpr ⟨Piece.pairwise_ends_located _ pieces,
    List.pairwise_singleton _ _, ?_⟩
  intro entry hentry ending hending
  rw [List.mem_singleton.mp hending, Position.offset_afterAll, ht, List.length_append]
  exact Nat.le_trans (Piece.end_of_mem_located hentry)
    (Nat.add_le_add_left (Nat.le_add_right _ _) _)

/-- The lexemes of a scanned text do not overlap. -/
theorem eq_of_covers {text : String} {entry other : Located} {i : Nat}
    (h : scan text = .ok stream) (he : entry ∈ stream.entries.toList)
    (ho : other ∈ stream.entries.toList) (hi : entry.Covers i) (hi' : other.Covers i) :
    entry = other := by
  have hends := pairwise_ends_of_scan h
  refine List.Pairwise.forall_of_forall_of_flip
    (R := fun entry other => ∀ i, entry.Covers i → other.Covers i → entry = other)
    (fun _ _ _ _ _ => rfl) ?_ ?_ he ho i hi hi'
  · refine hends.imp fun hle i hi hi' => ?_
    have hfirst := hi.2
    have hsecond := hi'.1
    omega
  · refine hends.imp fun hle i hi hi' => ?_
    have hfirst := hi'.2
    have hsecond := hi.1
    omega

end TokenStream

/-- Two tokens at one place that are equal but for the case of an unquoted word. -/
structure Located.Recased (entry other : Located) : Prop where
  /-- Both stand at one place. -/
  position : entry.position = other.position
  /-- Both are the same keyword, words with the same letters, or equal. -/
  token : entry.token.Recased other.token

/-- A text that differs from another one, with a given stream of tokens, only in the case of ASCII
letters inside the lexemes of keywords and unquoted words. -/
structure TokenStream.Recases (stream : TokenStream) (text other : String) : Prop where
  /-- The texts have the same letters. -/
  letters : SameLetters text.toList other.toList
  /-- A character that differs lies in a keyword or an unquoted word. -/
  inside : ∀ i, text.toList[i]? = other.toList[i]? ∨
    ∃ entry ∈ stream.entries.toList, entry.token.isCaseFree = true ∧ entry.Covers i

/-- A text that differs from a scanned one only in the case of its keywords and unquoted words is
scanned to the same tokens at the same places, but for the case of the words. -/
theorem TokenStream.scan_recased {stream : TokenStream} {text other : String}
    (hscan : scan text = .ok stream) (h : stream.Recases text other) :
    ∃ beside, scan other = .ok beside ∧
      List.Forall₂ Located.Recased stream.entries.toList beside.entries.toList := by
  have hsame : (Source.ofText text).Same (.ofText other) := ⟨h.letters, rfl⟩
  have hnone : List.Forall₂ (Located.Paired text.toList other.toList) (#[] : Array Located).toList
      (#[] : Array Located).toList := .nil
  obtain ⟨beside, hbeside, hpaired⟩ :=
    scanFrom_paired hscan hsame ⟨[], rfl, rfl⟩ ⟨[], rfl, rfl⟩ hnone
  refine ⟨beside, hbeside, ?_⟩
  have hmember := (List.forall₂_and_left (p := (· ∈ stream.entries.toList)) _ _).mpr
    ⟨fun _ hm => hm, hpaired⟩
  refine hmember.imp fun entry entry' ⟨hm, hpair⟩ => ⟨hpair.position, ?_⟩
  cases hfree : entry.token.isCaseFree with
  | true => exact hpair.free hfree
  | false =>
    rw [← hpair.fixed fun i hi => ?_]
    · exact .same _
    · refine (h.inside i).resolve_right ?_
      rintro ⟨free, hm', hfree', hi'⟩
      rw [eq_of_covers hscan hm hm' hi hi', hfree'] at hfree
      cases hfree

end SqlDdl
