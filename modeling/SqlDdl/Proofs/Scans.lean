import SqlDdl.Proofs.Lexable
import SqlDdl.Proofs.Passage
import SqlDdl.Token.Scan

/-!
# Scanned and written texts

A scanned text is made of pieces, each a token as it is written behind some layout,
and of the layout at its end; every token stands where its piece says, and the end of
the input stands once, behind everything. The other way, tokens that are written with
layout between them are scanned as these tokens. The layout between two tokens has to
begin with white space; the layout at the end has to begin with no line comment right
behind a minus sign, since that sign would open the comment.
-/

namespace SqlDdl

/-- A token of a scanned text with its characters and the layout before it. -/
structure Piece where
  /-- The layout before the token, none behind it. -/
  layout : List Gap
  /-- The token itself. -/
  token : Token
  /-- The characters of the token as they stand in the text. -/
  text : List Char
  /-- The characters are a spelling of the token. -/
  spelled : token.SpelledAs text
  /-- A token takes up at least one character. -/
  nonempty : text ≠ []
  /-- The end of the input is no piece of the text. -/
  notEnd : token ≠ .eof

namespace Piece

/-- The characters of a piece with those of its layout. -/
def written (piece : Piece) : List Char := layoutText piece.layout ++ piece.text

/-- The tokens of pieces that stand behind a place, each with its own place. -/
def located : Position → List Piece → List Located
  | _, [] => []
  | p, piece :: pieces =>
    ⟨piece.token, p.afterAll (layoutText piece.layout)⟩ :: located (p.afterAll piece.written) pieces

/-- Each piece stands where those before it end. -/
theorem located_append (p : Position) (before behind : List Piece) :
    located p (before ++ behind) =
      located p before ++ located (p.afterAll (before.flatMap written)) behind := by
  induction before generalizing p with
  | nil => rfl
  | cons piece before ih =>
    rw [List.cons_append, located, ih, List.flatMap_cons, Position.afterAll_append]
    rfl

/-- There are as many places as pieces. -/
theorem length_located (p : Position) (pieces : List Piece) :
    (located p pieces).length = pieces.length := by
  induction pieces generalizing p with
  | nil => rfl
  | cons piece pieces ih => rw [located, List.length_cons, ih, List.length_cons]

/-- The tokens of the places are those of the pieces. -/
theorem map_located (p : Position) (pieces : List Piece) :
    (located p pieces).map (·.token) = pieces.map (·.token) := by
  induction pieces generalizing p with
  | nil => rfl
  | cons piece pieces ih => rw [located, List.map_cons, ih, List.map_cons]

/-- A piece behind a place stands there or later, and before the end of the pieces. -/
theorem offset_of_mem_located {p : Position} {pieces : List Piece} {entry : Located}
    (h : entry ∈ located p pieces) :
    p.offset ≤ entry.position.offset ∧
      entry.position.offset < p.offset + (pieces.flatMap written).length := by
  induction pieces generalizing p with
  | nil => exact absurd h List.not_mem_nil
  | cons piece pieces ih =>
    have hwritten : piece.written.length = (layoutText piece.layout).length + piece.text.length :=
      List.length_append
    rw [List.flatMap_cons, List.length_append]
    rcases List.mem_cons.mp h with rfl | h
    · have htext := List.length_pos_iff.mpr piece.nonempty
      rw [Position.offset_afterAll]
      omega
    · have hbehind := ih h
      rw [Position.offset_afterAll] at hbehind
      omega

/-- Each of some pieces stands before the next. -/
theorem pairwise_located (p : Position) (pieces : List Piece) :
    (located p pieces).Pairwise (·.position.offset < ·.position.offset) := by
  induction pieces generalizing p with
  | nil => exact List.Pairwise.nil
  | cons piece pieces ih =>
    refine List.pairwise_cons.mpr ⟨fun entry h => ?_, ih _⟩
    have hwritten : piece.written.length = (layoutText piece.layout).length + piece.text.length :=
      List.length_append
    have htext := List.length_pos_iff.mpr piece.nonempty
    have hbehind := (offset_of_mem_located h).1
    rw [Position.offset_afterAll] at hbehind ⊢
    omega

end Piece

namespace TokenStream

/-- A token behind others has its own place. -/
theorem position_of_entries {stream : TokenStream} {before behind : List Located}
    {entry : Located} (h : stream.entries.toList = before ++ entry :: behind) :
    stream.position before.length = entry.position := by
  have hget : stream.entries[before.length]? = some entry := by
    rw [← Array.getElem?_toList, h, List.getElem?_append_right (Nat.le_refl _), Nat.sub_self]
    rfl
  exact position_of_entry hget

variable {found : Array Located} {source here : Source} {stream : TokenStream}

/-- A scan skips the layout, cuts one lexeme and goes on behind it. -/
theorem scanFrom_eq (found : Array Located) (source : Source) :
    scanFrom found source =
      match source.skipLayout with
      | .error error => .error error
      | .ok here =>
        match here.rest with
        | [] => .ok ⟨found.push ⟨.eof, here.position⟩⟩
        | c :: rest =>
          match Lexeme.ofChars c rest with
          | .error fault => .error (fault.at here.position)
          | .ok lexeme =>
            scanFrom (found.push ⟨lexeme.token, here.position⟩)
              ⟨lexeme.rest, here.position.afterAll lexeme.text⟩ := by
  fun_cases scanFrom found source with
  | case1 error hs => rw [hs]
  | case2 here hs hr => simp only [hs, hr]
  | case3 here hs c rest hr fault hl => simp only [hs, hr, hl]
  | case4 here hs c rest hr lexeme hl => simp only [hs, hr, hl]

/-- Layout that cannot be skipped ends the scan. -/
theorem scanFrom_open {error : Error} (hs : source.skipLayout = .error error) :
    scanFrom found source = .error error := by
  rw [scanFrom_eq, hs]

/-- Behind the last layout the scan ends. -/
theorem scanFrom_end (hs : source.skipLayout = .ok here) (hr : here.rest = []) :
    scanFrom found source = .ok ⟨found.push ⟨.eof, here.position⟩⟩ := by
  simp only [scanFrom_eq found source, hs, hr]

/-- What cannot be cut behind some layout ends the scan. -/
theorem scanFrom_fault {c : Char} {rest : List Char} {fault : LexemeFault}
    (hs : source.skipLayout = .ok here) (hr : here.rest = c :: rest)
    (hl : Lexeme.ofChars c rest = .error fault) :
    scanFrom found source = .error (fault.at here.position) := by
  simp only [scanFrom_eq found source, hs, hr, hl]

/-- Behind some layout and a lexeme the scan goes on. -/
theorem scanFrom_lexeme {c : Char} {rest : List Char} {lexeme : Lexeme}
    (hs : source.skipLayout = .ok here) (hr : here.rest = c :: rest)
    (hl : Lexeme.ofChars c rest = .ok lexeme) :
    scanFrom found source = scanFrom (found.push ⟨lexeme.token, here.position⟩)
      ⟨lexeme.rest, here.position.afterAll lexeme.text⟩ := by
  rw [scanFrom_eq found source]
  simp only [hs, hr, hl]

/-- What is scanned is decided by what stands behind the layout. -/
theorem scanFrom_congr {other : Source} (h : source.skipLayout = other.skipLayout) :
    scanFrom found source = scanFrom found other := by
  rw [scanFrom_eq, scanFrom_eq, h]

/-- A run of gaps is passed over. -/
theorem scanFrom_skip (gaps : List Gap) (rest : List Char) (p : Position) :
    scanFrom found ⟨layoutText gaps ++ rest, p⟩ =
      scanFrom found ⟨rest, p.afterAll (layoutText gaps)⟩ :=
  scanFrom_congr (Source.skipLayoutFrom_gaps gaps rest p)

/-- A token that is cut behind a run of gaps is found, and the scan goes on behind it. -/
theorem scanFrom_cut {token : Token} {text rest : List Char} {p : Position} (gaps : List Gap)
    (h : Lexeme.IsCut token text rest) :
    scanFrom found ⟨layoutText gaps ++ (text ++ rest), p⟩ =
      scanFrom (found.push ⟨token, p.afterAll (layoutText gaps)⟩)
        ⟨rest, (p.afterAll (layoutText gaps)).afterAll text⟩ := by
  obtain ⟨hlayout, c, cs, htext, hcut⟩ := h
  have hs : Source.skipLayout ⟨text ++ rest, p.afterAll (layoutText gaps)⟩ =
      .ok ⟨c :: (cs ++ rest), p.afterAll (layoutText gaps)⟩ := by
    rw [Source.skipLayout, Source.skipLayoutFrom_stop hlayout, htext]
    rfl
  rw [scanFrom_skip]
  exact scanFrom_lexeme hs rfl hcut

/-- What is left to scan begins with a run of gaps and the lexeme that is cut behind them. -/
theorem front_of_lexeme {c : Char} {rest : List Char} {lexeme : Lexeme}
    (hs : source.skipLayout = .ok here) (hr : here.rest = c :: rest)
    (hl : Lexeme.ofChars c rest = .ok lexeme) :
    ∃ gaps, source.rest = layoutText gaps ++ (lexeme.text ++ lexeme.rest) ∧
      here.position = source.position.afterAll (layoutText gaps) ∧
      Source.beginsLayout (c :: rest) = false := by
  have hne : here.rest ≠ [] := by simp [hr]
  obtain ⟨gaps, ht, hp, hstop⟩ := Source.gaps_of_skipLayoutFrom hs hne
  rw [hr] at ht hstop
  rw [(Lexeme.ofChars_ok hl).1] at ht
  exact ⟨gaps, ht, hp, hstop⟩

/-- What was scanned is made of pieces and the layout at the end, and each token stands at its
piece. -/
theorem scanFrom_ok (h : scanFrom found source = .ok stream) :
    ∃ (pieces : List Piece) (last : LastLayout),
      source.rest = pieces.flatMap Piece.written ++ last.text ∧
      stream.entries.toList = found.toList ++ (Piece.located source.position pieces ++
        [⟨.eof, source.position.afterAll source.rest⟩]) := by
  fun_induction scanFrom found source with
  | case1 => cases h
  | case2 found source here hs hr =>
    cases h
    obtain ⟨last, ht, hp, -⟩ := Source.skipLayoutFrom_ok hs
    rw [hr, List.append_nil] at ht
    refine ⟨[], last, ht, ?_⟩
    rw [Array.toList_push, ht, hp]
    rfl
  | case3 => cases h
  | case4 found source here hs c rest hr lexeme hl ih =>
    obtain ⟨gaps, hall, hp, -⟩ := front_of_lexeme hs hr hl
    obtain ⟨-, hne, hspelled, hend⟩ := Lexeme.ofChars_ok hl
    obtain ⟨pieces, last, hrest, hentries⟩ := ih h
    dsimp only at hrest hentries
    refine ⟨⟨gaps, lexeme.token, lexeme.text, hspelled, hne, hend⟩ :: pieces, last, ?_, ?_⟩
    · rw [hall, hrest, List.flatMap_cons, Piece.written]
      dsimp only
      rw [List.append_assoc, List.append_assoc]
    · rw [hentries, Array.toList_push, List.append_assoc, Piece.located, Piece.written, hall, hp]
      dsimp only
      rw [Position.afterAll_append, Position.afterAll_append, Position.afterAll_append]
      rfl

/-- Each token of a scanned text stands before the next, the last of them before the end of the
input. -/
theorem pairwise_of_scan {text : String} (h : scan text = .ok stream) :
    stream.entries.toList.Pairwise (·.position.offset < ·.position.offset) := by
  obtain ⟨pieces, last, ht, hentries⟩ := scanFrom_ok h
  rw [Array.toList_empty, List.nil_append] at hentries
  rw [hentries]
  refine List.pairwise_append.mpr ⟨Piece.pairwise_located _ pieces, List.pairwise_singleton _ _, ?_⟩
  intro entry hentry ending hending
  rw [List.mem_singleton.mp hending, Position.offset_afterAll, ht, List.length_append]
  have hbefore := (Piece.offset_of_mem_located hentry).2
  omega

/-- A scanned text ends with the end of the input. -/
theorem getLast?_of_scan {text : String} (h : scan text = .ok stream) :
    stream.tokens.getLast? = some .eof := by
  obtain ⟨pieces, last, -, hentries⟩ := scanFrom_ok h
  rw [tokens, hentries, ← List.append_assoc, List.map_append]
  exact List.getLast?_concat

/-- Nothing of a scanned text is lost and nothing is added: the text is its lexemes with the
layout between them, where every lexeme is its token as displayed, a keyword in any mix of ASCII
case. Each token has the number of characters before its lexeme as its offset, and the one end of
the input, behind all of them, the number of all characters. -/
theorem pieces_of_scan {text : String} (h : scan text = .ok stream) :
    ∃ (pieces : List Piece) (last : LastLayout),
      text.toList = pieces.flatMap Piece.written ++ last.text ∧
      stream.tokens = pieces.map (·.token) ++ [.eof] ∧
      (∀ before piece behind, pieces = before ++ piece :: behind →
        (stream.position before.length).offset =
          (before.flatMap Piece.written ++ layoutText piece.layout).length) ∧
      (stream.position pieces.length).offset = text.length := by
  obtain ⟨pieces, last, ht, hentries⟩ := scanFrom_ok h
  rw [Array.toList_empty, List.nil_append] at hentries
  refine ⟨pieces, last, ht, ?_, ?_, ?_⟩
  · rw [tokens, hentries, List.map_append, Piece.map_located]
    rfl
  · intro before piece behind hp
    rw [hp, Piece.located_append, List.append_assoc] at hentries
    have hposition := position_of_entries hentries
    rw [Piece.length_located] at hposition
    rw [hposition, Position.offset_afterAll, Position.offset_afterAll, List.length_append]
    exact congrArg (· + (layoutText piece.layout).length) (Nat.zero_add _)
  · have hposition := position_of_entries hentries
    rw [Piece.length_located] at hposition
    rw [hposition, Position.offset_afterAll]
    exact (Nat.zero_add _).trans String.length_toList

/-- A number and an open line comment behind it. -/
def commentedNumber : TokenStream := ⟨#[⟨.number "1", .start⟩, ⟨.eof, ⟨1, 5, 4⟩⟩]⟩

/-- A number with a comment at the end of the text is scanned, so it is a piece with the
comment as the last layout. -/
theorem pieces_of_commentedNumber :
    ∃ (pieces : List Piece) (last : LastLayout),
      "1--y".toList = pieces.flatMap Piece.written ++ last.text ∧
      commentedNumber.tokens = pieces.map (·.token) ++ [.eof] ∧
      (∀ before piece behind, pieces = before ++ piece :: behind →
        (commentedNumber.position before.length).offset =
          (before.flatMap Piece.written ++ layoutText piece.layout).length) ∧
      (commentedNumber.position pieces.length).offset = "1--y".length := by
  have hnumber : Source.skipLayout (.ofText "1--y") = .ok ⟨'1' :: ['-', '-', 'y'], .start⟩ :=
    Source.skipLayoutFrom_stop rfl
  have hcut : Lexeme.ofChars '1' ['-', '-', 'y'] = .ok ⟨.number "1", ['1'], ['-', '-', 'y']⟩ :=
    rfl
  have hcomment : Source.skipLayout ⟨['-', '-', 'y'], Position.start.afterAll ['1']⟩ =
      .ok ⟨[], ⟨1, 5, 4⟩⟩ :=
    Source.skipLayoutFrom_comment (show '\n' ∉ ['y'] by decide)
  exact pieces_of_scan ((scanFrom_lexeme hnumber rfl hcut).trans (scanFrom_end hcomment rfl))

end TokenStream

/-- Whether a gap is a line comment. -/
def Gap.isLine : Gap → Bool
  | line _ _ => true
  | _ => false

/-- Whether a gap is a blank character. -/
def Gap.isBlank : Gap → Bool
  | blank _ _ => true
  | _ => false

/-- A token that can be cut from a text, as it is written, with the layout behind it. -/
structure WrittenToken where
  /-- The token itself. -/
  token : Token
  /-- Some text is cut to this token. -/
  lexable : token.Lexable
  /-- The characters of the token; the case of a keyword is free. -/
  text : List Char
  /-- The characters are a spelling of the token. -/
  spelled : token.SpelledAs text
  /-- The layout behind the token, up to the next one. -/
  behind : List Gap

namespace WrittenToken

/-- The characters of a token with those of the layout behind it. -/
def written (item : WrittenToken) : List Char := item.text ++ layoutText item.behind

/-- Whether white space comes first behind a token. -/
def Separated (item : WrittenToken) : Prop := ∃ gap ∈ item.behind.head?, gap.isBlank = true

/-- Whether no line comment comes first behind a minus sign, which would open the comment. -/
def Closed (item : WrittenToken) : Prop :=
  item.token = .minus → ∀ gap ∈ item.behind.head?, gap.isLine = false

/-- White space is no line comment. -/
theorem Separated.closed {item : WrittenToken} (h : item.Separated) : item.Closed := by
  obtain ⟨blank, hb, hblank⟩ := h
  intro _ gap hm
  rw [Option.mem_def.mp hb] at hm
  cases hm
  cases blank with
  | blank c hc => rfl
  | line body ho => cases hblank
  | block body hn => cases hblank

/-- Whatever follows the layout behind a token, if that layout is not empty, is not cut with the
token. -/
theorem follows {item : WrittenToken} (h : item.Closed) {rest : List Char}
    (hr : item.behind = [] → rest = []) :
    Lexeme.Follows item.token (layoutText item.behind ++ rest) := by
  intro d hm
  cases hb : item.behind with
  | nil =>
    rw [hr hb, hb] at hm
    cases hm
  | cons gap gaps =>
    rw [hb, layoutText, List.flatMap_cons, List.append_assoc] at hm
    cases gap with
    | blank c hc =>
      cases hm
      refine ⟨?_, fun _ hd => ?_⟩
      · rw [Lexeme.endsLexeme, hc]
        rfl
      · rw [hd] at hc
        exact absurd hc (by decide)
    | line body ho =>
      cases hm
      refine ⟨by decide, fun ht _ => ?_⟩
      have hline := h ht (.line body ho) (by rw [hb]; rfl)
      cases hline
    | block body hn =>
      cases hm
      exact ⟨by decide, fun _ => by decide⟩

end WrittenToken

namespace TokenStream

open WrittenToken (written)

/-- Written tokens behind some layout are scanned one after another. -/
theorem scanFrom_written (gaps : List Gap) (items : List WrittenToken) (found : Array Located)
    (p : Position) (hbetween : ∀ item ∈ items.dropLast, item.Separated)
    (hlast : ∀ item ∈ items.getLast?, item.Closed) :
    ∃ stream, scanFrom found ⟨layoutText gaps ++ items.flatMap written, p⟩ = .ok stream ∧
      stream.tokens = found.toList.map (·.token) ++ (items.map (·.token) ++ [.eof]) := by
  induction items generalizing gaps found p with
  | nil =>
    have hs : Source.skipLayout ⟨layoutText gaps ++ [], p⟩ =
        .ok ⟨[], p.afterAll (layoutText gaps)⟩ := by
      rw [Source.skipLayout, Source.skipLayoutFrom_gaps, Source.skipLayoutFrom]
    refine ⟨_, scanFrom_end hs rfl, ?_⟩
    rw [tokens, Array.toList_push, List.map_append]
    rfl
  | cons item items ih =>
    have hbehind : item.Closed ∧ (item.behind = [] → items.flatMap written = []) := by
      cases items with
      | nil => exact ⟨hlast item rfl, fun _ => rfl⟩
      | cons second others =>
        have hs : item.Separated := hbetween item List.mem_cons_self
        refine ⟨hs.closed, fun hn => ?_⟩
        obtain ⟨gap, hm, -⟩ := hs
        rw [hn] at hm
        cases hm
    have hfollows := WrittenToken.follows hbehind.1 hbehind.2
    have hcut := Lexeme.isCut_written item.lexable item.spelled hfollows
    have hbetween' : ∀ other ∈ items.dropLast, other.Separated := by
      cases items with
      | nil => exact fun _ hm => absurd hm List.not_mem_nil
      | cons second others => exact (List.forall_mem_cons.mp hbetween).2
    have hlast' : ∀ other ∈ items.getLast?, other.Closed := by
      cases items with
      | nil => exact fun other hm => absurd hm (Option.not_mem_none other)
      | cons second others =>
        rw [List.getLast?_cons_cons] at hlast
        exact hlast
    obtain ⟨stream, hscan, htokens⟩ := ih item.behind
      (found.push ⟨item.token, p.afterAll (layoutText gaps)⟩)
      ((p.afterAll (layoutText gaps)).afterAll item.text) hbetween' hlast'
    refine ⟨stream, ?_, ?_⟩
    · rw [List.flatMap_cons, written, List.append_assoc, scanFrom_cut gaps hcut]
      exact hscan
    · rw [htokens, Array.toList_push, List.map_append, List.append_assoc]
      rfl

/-- Tokens that are written with layout before and behind each of them are scanned as exactly
these tokens, if the layout between two of them begins with white space, and the layout behind
a last minus sign with no line comment. -/
theorem scan_written (before : List Gap) (items : List WrittenToken)
    (hbetween : ∀ item ∈ items.dropLast, item.Separated)
    (hlast : ∀ item ∈ items.getLast?, item.Closed) :
    ∃ stream, scan (String.ofList (layoutText before ++ items.flatMap written)) = .ok stream ∧
      stream.tokens = items.map (·.token) ++ [.eof] := by
  rw [scan, Source.ofText, String.toList_ofList]
  exact scanFrom_written before items #[] .start hbetween hlast

/-- A keyword in mixed case with a comment behind it. -/
def writtenKeyword : WrittenToken where
  token := .keyword .create
  lexable := trivial
  text := "cReAte".toList
  spelled := rfl
  behind := [.blank ' ' rfl, .line ['\x27'] (by decide)]

/-- A number with places and a power of ten. -/
def writtenNumber : WrittenToken where
  token := .number "1.5E-3"
  lexable :=
    ⟨⟨⟨['1'], by decide, List.forall_mem_singleton.mpr rfl⟩,
      some ⟨['5'], by decide, List.forall_mem_singleton.mpr rfl⟩,
      some ⟨'E', by decide, ['-'], by decide,
        ⟨['3'], by decide, List.forall_mem_singleton.mpr rfl⟩⟩⟩, rfl⟩
  text := "1.5E-3".toList
  spelled := rfl
  behind := [.blank '\n' rfl]

/-- A string literal that holds a quote and the beginning of a comment. -/
def writtenString : WrittenToken where
  token := .string "it\x27s /*"
  lexable := trivial
  text := "\x27it\x27\x27s /*\x27".toList
  spelled := rfl
  behind := []

/-- A block comment with nothing in it. -/
def emptyComment : Gap := .block [] (by decide)

/-- A keyword, a number and a string literal behind a block comment are scanned. -/
theorem scan_written_keyword_number_string :
    ∃ stream,
      scan (String.ofList (layoutText [emptyComment] ++
        [writtenKeyword, writtenNumber, writtenString].flatMap written)) = .ok stream ∧
      stream.tokens = [.keyword .create, .number "1.5E-3", .string "it\x27s /*", .eof] :=
  scan_written [emptyComment] [writtenKeyword, writtenNumber, writtenString]
    (List.forall_mem_cons.mpr ⟨⟨.blank ' ' rfl, rfl, rfl⟩,
      List.forall_mem_singleton.mpr ⟨.blank '\n' rfl, rfl, rfl⟩⟩)
    (by rintro _ ⟨⟩; exact nofun)

/-- A minus sign with a line comment right behind it. -/
def commentedMinus : WrittenToken where
  token := .minus
  lexable := trivial
  text := ['-']
  spelled := rfl
  behind := [.line [] (by decide)]

/-- The condition on a last minus sign cannot be left out: with the hyphens of a line comment
behind it the sign is part of the comment. -/
theorem not_scan_written_commentedMinus :
    ¬ ∀ (before : List Gap) (items : List WrittenToken),
      (∀ item ∈ items.dropLast, item.Separated) →
      ∃ stream, scan (String.ofList (layoutText before ++ items.flatMap written)) = .ok stream ∧
        stream.tokens = items.map (·.token) ++ [.eof] := by
  intro h
  obtain ⟨stream, hscan, htokens⟩ := h [] [commentedMinus] fun _ hm => absurd hm List.not_mem_nil
  have hlayout : Source.skipLayout (.ofText "---\n") = .ok ⟨[], ⟨2, 1, 4⟩⟩ := by
    have hgap := Source.skipLayoutFrom_gaps [.line ['-'] (by decide)] [] .start
    rw [Source.skipLayoutFrom] at hgap
    exact hgap
  have hempty : scan "---\n" = .ok ⟨#[⟨.eof, ⟨2, 1, 4⟩⟩]⟩ := scanFrom_end hlayout rfl
  have hstream := hempty.symm.trans hscan
  cases hstream
  cases htokens

end TokenStream

end SqlDdl
