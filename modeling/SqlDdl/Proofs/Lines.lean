import SqlDdl.Proofs.TruePlaces

/-!
# Texts one below the other

A text that is scanned can be followed by another one on a new line. The line feed ends
whatever the first text left open, so that the scan is between two tokens there: the
tokens of the first text stand as before, and behind them stand those of the second
text, each as many lines and characters further down as the first text takes. A fault in
the second text is the fault of the whole.
-/

namespace SqlDdl

/-- Where a place of a text is in the whole, if the text begins on a new line below another one. -/
def Position.below (above : String) (p : Position) : Position :=
  ⟨p.line + (1 + above.toList.count '\n'), p.column, p.offset + (above.length + 1)⟩

/-- A token of a text that begins on a new line below another one. -/
def Located.below (above : String) (entry : Located) : Located :=
  { entry with position := entry.position.below above }

/-- What is left of a text that begins on a new line below another one. -/
def Source.below (above : String) (source : Source) : Source :=
  { source with position := source.position.below above }

/-- The error of a text that begins on a new line below another one. -/
def Error.below (above : String) : Error → Error
  | unexpectedCharacter character position =>
    unexpectedCharacter character (position.below above)
  | unterminated enclosure position => unterminated enclosure (position.below above)
  | expected expectation found position => expected expectation found (position.below above)
  | duplicateClause clause position => duplicateClause clause (position.below above)
  | expressionTooDeep limit position => expressionTooDeep limit (position.below above)
  | unsupported construct => unsupported construct
  | inputTooLarge length limit => inputTooLarge length limit

namespace Position

variable (above : String) (p : Position)

/-- Counting on is the same below another text. -/
theorem after_below (c : Char) : (p.below above).after c = (p.after c).below above := by
  by_cases hc : c = '\n'
  · simp [after, below, hc]
    omega
  · simp [after, below, hc]
    omega

/-- A run of characters leads to the same place below another text. -/
theorem afterAll_below (cs : List Char) :
    (p.below above).afterAll cs = (p.afterAll cs).below above := by
  induction cs generalizing p with
  | nil => rfl
  | cons c cs ih =>
    have hstep : (p.below above).afterAll (c :: cs) = ((p.after c).below above).afterAll cs :=
      congrArg (fun q => afterAll q cs) (after_below above p c)
    rw [hstep]
    exact ih (p.after c)

/-- The text below another one starts behind that text and a line feed. -/
theorem afterAll_lineFeed : start.afterAll (above.toList ++ ['\n']) = start.below above := by
  have hline := line_afterAll start (above.toList ++ ['\n'])
  have hoffset := offset_afterAll start (above.toList ++ ['\n'])
  have hcolumn : (start.afterAll (above.toList ++ ['\n'])).column = 1 := by
    rw [afterAll_append]
    rfl
  rw [List.count_append, List.count_singleton_self, Nat.add_comm (List.count _ _)] at hline
  rw [List.length_append, List.length_singleton, String.length_toList] at hoffset
  generalize start.afterAll (above.toList ++ ['\n']) = q at hline hcolumn hoffset
  cases q
  exact mk.injEq .. ▸ ⟨hline, hcolumn, hoffset⟩

end Position

/-- A line feed closes the layout at the end of a text: it ends an open line comment, and is a
blank character otherwise. -/
theorem LastLayout.closed (layout : LastLayout) :
    ∃ gaps, layoutText gaps = layout.text ++ ['\n'] := by
  have happend : ∀ gap : Gap, layoutText (layout.gaps ++ [gap]) =
      layoutText layout.gaps ++ gap.text := by
    intro gap
    rw [layoutText, List.flatMap_append, List.flatMap_singleton]
    rfl
  cases hc : layout.comment with
  | none =>
    refine ⟨layout.gaps ++ [.blank '\n' rfl], ?_⟩
    rw [happend, text, hc, Option.elim_none, List.append_nil]
    rfl
  | some body =>
    refine ⟨layout.gaps ++ [.line body (layout.oneLine body hc)], ?_⟩
    rw [happend, text, hc, Option.elim_some, List.append_assoc]
    rfl

namespace Source

variable {above : String} {source here : Source}

/-- Layout is skipped in the same way below another text. -/
theorem skipLayout_below (h : source.skipLayout = .ok here) :
    (source.below above).skipLayout = .ok (here.below above) := by
  rw [skipLayout, below, below]
  by_cases hr : here.rest = []
  · obtain ⟨layout, ht, hp, -⟩ := skipLayoutFrom_ok h
    rw [hr, List.append_nil] at ht
    rw [hp, hr, ht, skipLayoutFrom_last, Position.afterAll_below]
  · obtain ⟨gaps, ht, hp, hstop⟩ := gaps_of_skipLayoutFrom h hr
    rw [hp, ht, skipLayoutFrom_gaps, skipLayoutFrom_stop hstop, Position.afterAll_below]

/-- A comment that is not closed is not closed below another text. -/
theorem skipLayout_below_error {error : Error} (h : source.skipLayout = .error error) :
    (source.below above).skipLayout = .error (error.below above) := by
  obtain ⟨gaps, rest, ht, hopen, rfl⟩ := skipLayoutFrom_error h
  rw [skipLayout, below, ht, skipLayoutFrom_gaps, skipLayoutFrom_open hopen,
    Position.afterAll_below]
  rfl

end Source

namespace TokenStream

variable {found : Array Located} {source : Source} {stream : TokenStream}

/-- A text that begins below another one is scanned as by itself, behind whatever was found in
the other one: its tokens and its error are further down. -/
theorem scanFrom_below (above : String) (before found : Array Located) (source : Source) :
    scanFrom (before ++ found.map (·.below above)) (source.below above) =
      match scanFrom found source with
      | .ok stream => .ok ⟨before ++ stream.entries.map (·.below above)⟩
      | .error error => .error (error.below above) := by
  have hpush : ∀ (found : Array Located) (entry : Located),
      (before ++ found.map (·.below above)).push (entry.below above) =
        before ++ (found.push entry).map (·.below above) := by simp
  fun_induction scanFrom found source with
  | case1 found source failure hs =>
    exact scanFrom_open (Source.skipLayout_below_error hs)
  | case2 found source here hs hr =>
    rw [scanFrom_end (Source.skipLayout_below hs) hr]
    dsimp only
    rw [← hpush]
    rfl
  | case3 found source here hs c rest hr fault hl =>
    rw [scanFrom_fault (Source.skipLayout_below hs) hr hl]
    cases fault <;> rfl
  | case4 found source here hs c rest hr lexeme hl ih =>
    have hplace : (here.position.below above).afterAll lexeme.text =
        (here.position.afterAll lexeme.text).below above := Position.afterAll_below above _ _
    rw [← ih, ← hpush, scanFrom_lexeme (Source.skipLayout_below hs) hr hl]
    exact congrArg (fun place => scanFrom _ ⟨lexeme.rest, place⟩) hplace

/-- Behind a text that is scanned to its end, a line feed leaves the scan between two tokens. -/
theorem scanFrom_lineFeed (h : scanFrom found source = .ok stream) :
    ∃ (tokens : Array Located) (last : Position), stream.entries = tokens.push ⟨.eof, last⟩ ∧
      ∀ below, scanFrom found ⟨source.rest ++ '\n' :: below, source.position⟩ =
        scanFrom tokens ⟨below, source.position.afterAll (source.rest ++ ['\n'])⟩ := by
  fun_induction scanFrom found source with
  | case1 => cases h
  | case2 found source here hs hr =>
    cases h
    obtain ⟨last, ht, -, -⟩ := Source.skipLayoutFrom_ok hs
    rw [hr, List.append_nil] at ht
    obtain ⟨gaps, hgaps⟩ := last.closed
    refine ⟨found, here.position, rfl, fun below => ?_⟩
    have hrest : source.rest ++ '\n' :: below = layoutText gaps ++ below := by
      rw [hgaps, ht, List.append_assoc]
      rfl
    rw [hrest, scanFrom_skip, hgaps, ht]
  | case3 => cases h
  | case4 found source here hs c rest hr lexeme hl ih =>
    obtain ⟨gaps, ht, hp, hstop⟩ := front_of_lexeme hs hr hl
    obtain ⟨tokens, last, hentries, hscan⟩ := ih h
    refine ⟨tokens, last, hentries, fun below => ?_⟩
    -- A line feed ends the lexeme as the end of the text does, or stands behind it anyway.
    have hcut : Lexeme.IsCut lexeme.token lexeme.text (lexeme.rest ++ '\n' :: below) :=
      Lexeme.isCut_again hstop hl (.lineFeed lexeme.rest below)
    have hrest : source.rest ++ '\n' :: below =
        layoutText gaps ++ (lexeme.text ++ (lexeme.rest ++ '\n' :: below)) := by
      rw [ht]
      simp
    have hall : source.rest ++ ['\n'] =
        layoutText gaps ++ (lexeme.text ++ (lexeme.rest ++ ['\n'])) := by
      rw [ht]
      simp
    rw [hrest, scanFrom_cut gaps hcut, hall, Position.afterAll_append, Position.afterAll_append,
      ← hp]
    exact hscan below

/-- The end of the input is the last token of a scanned text and no other one. -/
theorem eof_notMem_of_scan {text : String} {tokens : Array Located} {last : Position}
    (h : scan text = .ok stream) (ht : stream.entries = tokens.push ⟨.eof, last⟩) :
    ∀ entry ∈ tokens.toList, entry.token ≠ .eof := by
  obtain ⟨pieces, layout, -, hentries⟩ := scanFrom_ok h
  rw [ht, Array.toList_push, Array.toList_empty, List.nil_append] at hentries
  have htokens : tokens.toList = Piece.located Position.start pieces :=
    (List.append_inj' hentries rfl).1
  intro entry he hend
  have hm : entry.token ∈ pieces.map (·.token) := by
    rw [← Piece.map_located Position.start pieces, ← htokens]
    exact List.mem_map_of_mem he
  obtain ⟨piece, -, hpiece⟩ := List.mem_map.mp hm
  exact piece.notEnd (hpiece.trans hend)

/-- Behind a text that is scanned, another one is scanned from a new line on: the tokens of the
first text without the end of the input, then the tokens of the second with their places below
the first; or the error of the second, with its place below the first. -/
theorem scan_lines {above : String} {front : TokenStream} (h : scan above = .ok front)
    (below : String) :
    ∃ (tokens : Array Located) (last : Position), front.entries = tokens.push ⟨.eof, last⟩ ∧
      (∀ entry ∈ tokens.toList, entry.token ≠ .eof) ∧
      scan (above ++ "\n" ++ below) =
        match scan below with
        | .ok stream => .ok ⟨tokens ++ stream.entries.map (·.below above)⟩
        | .error error => .error (error.below above) := by
  obtain ⟨tokens, last, hentries, hscan⟩ := scanFrom_lineFeed h
  refine ⟨tokens, last, hentries, eof_notMem_of_scan h hentries, ?_⟩
  have htext : (above ++ "\n" ++ below).toList = above.toList ++ '\n' :: below.toList := by
    rw [String.toList_append, String.toList_append, List.append_assoc]
    rfl
  have hwhole : scan (above ++ "\n" ++ below) =
      scanFrom tokens ⟨below.toList, Position.start.below above⟩ := by
    rw [scan, Source.ofText, htext, ← Position.afterAll_lineFeed]
    exact hscan below.toList
  have hbelow := scanFrom_below above tokens #[] (.ofText below)
  rw [Array.map_empty, Array.append_empty] at hbelow
  rw [hwhole]
  exact hbelow

/-- The line feed ends the comment behind a number, and the second text is scanned. -/
theorem scan_lines_commentedNumber :
    ∃ (tokens : Array Located) (last : Position),
      commentedNumber.entries = tokens.push ⟨.eof, last⟩ ∧
      (∀ entry ∈ tokens.toList, entry.token ≠ .eof) ∧
      scan ("1--y" ++ "\n" ++ "2;") =
        match scan "2;" with
        | .ok stream => .ok ⟨tokens ++ stream.entries.map (·.below "1--y")⟩
        | .error error => .error (error.below "1--y") :=
  scan_lines (show scan "1--y" = .ok commentedNumber by decide +kernel) "2;"

end TokenStream

end SqlDdl
