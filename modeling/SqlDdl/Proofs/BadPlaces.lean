import SqlDdl.Proofs.Lookahead
import SqlDdl.Proofs.Scans

/-!
# Errors of a scan point at a bad place

A scan that fails stops where something stands that begins no token: a character that no
token begins with, or a mark that opens what is never closed. Everything before that place
is scanned, also if the text breaks off there: no token in it was found by what stands
behind it.
-/

namespace SqlDdl

/-- Whether a text begins with what an error of a scan says: a character that belongs to no token
and begins none together with the next one, or an opening mark without its closing one. A quote
is without its closing one if the number of quotes from it on is odd. -/
def Error.BadAt (rest : List Char) : Error → Prop
  | unexpectedCharacter c _ =>
    rest.head? = some c ∧ Text.isBlank c = false ∧ Text.isAlphabetic c = false ∧
      c.isDigit = false ∧
      c ∉ ['_', '\x27', '\x22', '(', ')', ',', ';', '.', '-', '=', '<', '>'] ∧
      ¬ ['!', '='] <+: rest ∧ ¬ ['/', '*'] <+: rest
  | unterminated .stringLiteral _ => rest.head? = some '\x27' ∧ rest.count '\x27' % 2 = 1
  | unterminated .quotedIdentifier _ => rest.head? = some '\x22' ∧ rest.count '\x22' % 2 = 1
  | unterminated .blockComment _ => ['/', '*'] <+: rest ∧ ¬ ['*', '/'] <:+: rest.drop 2
  | _ => False

/-- Where an error of a scan is, something stands. -/
theorem Error.BadAt.ne_nil {error : Error} {rest : List Char} (h : error.BadAt rest) :
    rest ≠ [] := by
  rintro rfl
  cases error with
  | unexpectedCharacter c p => exact absurd h.1 (Option.some_ne_none c).symm
  | unterminated enclosure p =>
    cases enclosure with
    | stringLiteral => exact absurd h.2 (by decide)
    | quotedIdentifier => exact absurd h.2 (by decide)
    | blockComment => exact absurd (List.prefix_nil.mp h.1) (List.cons_ne_nil _ _)
  | _ => exact h

/-- A text in which no quote closes has an even number of quotes. -/
theorem Text.count_of_readBody {quote : Char} {found cs : List Char}
    (h : readBody quote found cs = none) : cs.count quote % 2 = 0 := by
  fun_induction readBody quote found cs with
  | case1 => rfl
  | case2 => cases h
  | case3 found c hc => simp [hc]
  | case4 found rest ih =>
    have hrest := ih h
    rw [List.count_cons_self, List.count_cons_self]
    omega
  | case5 => cases h
  | case6 found c d rest hc ih =>
    rw [List.count_cons_of_ne hc]
    exact ih h

namespace Lexeme

variable {c : Char} {rest : List Char}

/-- An opening quote that no quote closes comes first of an odd number of quotes. -/
theorem enclosed_error {quote : Char} {enclosure : Enclosure} {token : String → Token}
    {fault : LexemeFault} (h : enclosed quote enclosure token rest = .error fault) :
    fault = .unterminated enclosure ∧ (quote :: rest).count quote % 2 = 1 := by
  unfold enclosed at h
  split at h
  next => cases h
  next hread =>
    cases h
    have heven := Text.count_of_readBody hread
    rw [List.count_cons_self]
    exact ⟨rfl, by omega⟩

/-- A character that begins no sign is none of those that begin one, and no exclamation mark before
an equals sign. -/
theorem ofSymbol?_eq_none (h : Token.ofSymbol? c rest.head? = none) :
    c ∉ ['(', ')', ',', ';', '.', '-', '=', '<', '>'] ∧ ¬ ['!', '='] <+: c :: rest := by
  constructor
  · intro hm
    simp only [List.mem_cons, List.not_mem_nil, or_false] at hm
    rcases hm with rfl | rfl | rfl | rfl | rfl | rfl | rfl | rfl | rfl <;>
      (unfold Token.ofSymbol? at h; split at h <;> simp_all)
  · rintro ⟨others, ht⟩
    cases ht
    cases h

/-- What cannot be cut from a text where no layout begins is a bad place. -/
theorem badAt_of_ofChars {fault : LexemeFault} (p : Position)
    (hb : Source.beginsLayout (c :: rest) = false) (h : ofChars c rest = .error fault) :
    (fault.at p).BadAt (c :: rest) := by
  unfold ofChars at h
  by_cases hstring : c = '\x27'
  · rw [if_pos hstring, hstring] at h
    obtain ⟨rfl, hodd⟩ := enclosed_error h
    rw [hstring]
    exact ⟨rfl, hodd⟩
  rw [if_neg hstring] at h
  by_cases hquoted : c = '\x22'
  · rw [if_pos hquoted, hquoted] at h
    obtain ⟨rfl, hodd⟩ := enclosed_error h
    rw [hquoted]
    exact ⟨rfl, hodd⟩
  rw [if_neg hquoted] at h
  by_cases hdigit : c.isDigit = true
  · rw [if_pos hdigit] at h
    cases h
  rw [if_neg hdigit] at h
  by_cases hword : isWordStart c = true
  · rw [if_pos hword] at h
    cases h
  rw [if_neg hword] at h
  split at h
  next => cases h
  next hs =>
    cases h
    have hletter : Text.isAlphabetic c = false ∧ c ≠ '_' := by
      simpa [isWordStart] using hword
    have hblank : Text.isBlank c = false := Source.isBlank_of_beginsLayout hb
    have hcomment : ¬ ['/', '*'] <+: c :: rest := by
      rintro ⟨others, ht⟩
      cases ht
      cases hb
    obtain ⟨hsigns, hbang⟩ := ofSymbol?_eq_none hs
    refine ⟨rfl, hblank, hletter.1, Bool.eq_false_iff.mpr hdigit, ?_, hbang, hcomment⟩
    simp only [List.mem_cons, not_or] at hsigns ⊢
    exact ⟨hletter.2, hstring, hquoted, hsigns⟩

end Lexeme

namespace TokenStream

variable {found : Array Located} {source : Source} {error : Error}

/-- Layout is scanned by itself, and no token is found in it. -/
theorem scanFrom_gaps (found : Array Located) (gaps : List Gap) (p : Position) :
    ∃ stream, scanFrom found ⟨layoutText gaps, p⟩ = .ok stream := by
  have hs : Source.skipLayout ⟨layoutText gaps ++ [], p⟩ =
      .ok ⟨[], p.afterAll (layoutText gaps)⟩ := by
    rw [Source.skipLayout, Source.skipLayoutFrom_gaps, Source.skipLayoutFrom]
  rw [List.append_nil] at hs
  exact ⟨_, scanFrom_end hs rfl⟩

/-- A scan fails at a bad place, behind a part of the text that is scanned by itself. -/
theorem scanFrom_error (h : scanFrom found source = .error error) :
    ∃ front rest, source.rest = front ++ rest ∧ error.BadAt rest ∧
      error.position? = some (source.position.afterAll front) ∧
      ∃ stream, scanFrom found ⟨front, source.position⟩ = .ok stream := by
  fun_induction scanFrom found source with
  | case1 found source failure hs =>
    cases h
    obtain ⟨gaps, rest, ht, hclosed, rfl⟩ := Source.skipLayoutFrom_error hs
    obtain ⟨stream, hscan⟩ := scanFrom_gaps found gaps source.position
    have hbad : (Error.unterminated .blockComment
        (source.position.afterAll (layoutText gaps))).BadAt ('/' :: '*' :: rest) :=
      ⟨List.prefix_append ['/', '*'] rest, hclosed⟩
    exact ⟨layoutText gaps, _, ht, hbad, rfl, stream, hscan⟩
  | case2 => cases h
  | case3 found source here hs c rest hr fault hl =>
    cases h
    have hne : here.rest ≠ [] := by simp [hr]
    obtain ⟨gaps, ht, hp, hstop⟩ := Source.gaps_of_skipLayoutFrom hs hne
    rw [hr] at ht hstop
    obtain ⟨stream, hscan⟩ := scanFrom_gaps found gaps source.position
    have hplace : (fault.at here.position).position? =
        some (source.position.afterAll (layoutText gaps)) := by
      rw [← hp]
      cases fault <;> rfl
    exact ⟨layoutText gaps, _, ht, Lexeme.badAt_of_ofChars _ hstop hl, hplace, stream, hscan⟩
  | case4 found source here hs c rest hr lexeme hl ih =>
    obtain ⟨gaps, ht, hp, hstop⟩ := front_of_lexeme hs hr hl
    obtain ⟨front, bad, hrest, hbad, hplace, stream, hscan⟩ := ih h
    dsimp only at hrest hplace hscan
    have hline : FirstLineIn front lexeme.rest := by
      rw [hrest]
      exact .of_front (List.prefix_append front bad)
    -- The lexeme was found with the bad place behind it and is found again without it.
    have hcut : Lexeme.IsCut lexeme.token lexeme.text front := Lexeme.isCut_again hstop hl hline
    refine ⟨layoutText gaps ++ (lexeme.text ++ front), bad, ?_, hbad, ?_, stream, ?_⟩
    · rw [ht, hrest]
      simp only [List.append_assoc]
    · rw [hplace, hp, Position.afterAll_append, Position.afterAll_append]
    · rw [scanFrom_cut gaps hcut, ← hp]
      exact hscan

/-- A scan that fails points inside the text, and the part before that place is scanned by itself.
There stands a character that is no white space and begins no token, nor a comment; or a quote
that is the first of an odd number of such quotes; or the opening mark of a block comment
behind which there is no closing one. -/
theorem error_of_scan {text : String} (h : scan text = .error error) :
    ∃ position, error.position? = some position ∧ position.offset < text.length ∧
      (∃ stream, scan (String.ofList (text.toList.take position.offset)) = .ok stream) ∧
      error.BadAt (text.toList.drop position.offset) := by
  obtain ⟨front, rest, ht, hbad, hplace, stream, hscan⟩ := scanFrom_error h
  have hoffset : (Position.start.afterAll front).offset = front.length := by
    rw [Position.offset_afterAll]
    exact Nat.zero_add _
  have htext : text.toList = front ++ rest := ht
  have hlength : text.length = front.length + rest.length := by
    rw [← String.length_toList, htext, List.length_append]
  have hpos : 0 < rest.length := List.length_pos_iff.mpr hbad.ne_nil
  refine ⟨Position.start.afterAll front, hplace, ?_, ⟨stream, ?_⟩, ?_⟩
  · omega
  · rw [hoffset, htext, List.take_left, scan, Source.ofText, String.toList_ofList]
    exact hscan
  · rw [hoffset, htext, List.drop_left]
    exact hbad

/-- Behind a number, a comment and a sign, a quoted word is not closed: the last two of its three
quotes stand for one. -/
theorem error_of_scan_openWord :
    ∃ position, (Error.unterminated .quotedIdentifier ⟨2, 2, 6⟩).position? = some position ∧
      position.offset < "1--c\n<\x22b\x22\x22".length ∧
      (∃ stream, scan (String.ofList ("1--c\n<\x22b\x22\x22".toList.take position.offset)) =
        .ok stream) ∧
      (Error.unterminated .quotedIdentifier ⟨2, 2, 6⟩).BadAt
        ("1--c\n<\x22b\x22\x22".toList.drop position.offset) :=
  error_of_scan (by decide +kernel)

end TokenStream

end SqlDdl
