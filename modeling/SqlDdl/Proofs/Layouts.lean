import SqlDdl.Token.Layout

/-!
# Layout as it is written

Layout is a run of gaps: blank characters, line comments up to and with the line feed
behind them, and closed block comments. At the end of a text a line comment may also
break off. What is skipped is such a layout; where such a layout stands, all of it
is skipped, so that skipping stops exactly at the first character that begins none.
-/

namespace SqlDdl

namespace Position

/-- Behind two runs of characters is where the second leads from behind the first. -/
theorem afterAll_append (p : Position) (cs ds : List Char) :
    p.afterAll (cs ++ ds) = (p.afterAll cs).afterAll ds :=
  List.foldl_append

/-- A run of characters moves the offset by their number. -/
theorem offset_afterAll (p : Position) (cs : List Char) :
    (p.afterAll cs).offset = p.offset + cs.length := by
  induction cs generalizing p with
  | nil => rfl
  | cons c cs ih =>
    have hc : (p.after c).offset = p.offset + 1 := by
      rw [after]
      split <;> rfl
    have ht := ih (p.after c)
    rw [hc] at ht
    rw [List.length_cons]
    exact ht.trans (by omega)

end Position

/-- A part of the layout between two tokens. -/
inductive Gap where
  | blank (c : Char) (isBlank : Text.isBlank c = true)
  /-- A line comment with the line feed that ends it. -/
  | line (body : List Char) (oneLine : '\n' ∉ body)
  | block (body : List Char) (noEnd : ¬ ['*', '/'] <:+: body)

/-- The characters of a gap. -/
def Gap.text : Gap → List Char
  | blank c _ => [c]
  | line body _ => '-' :: '-' :: (body ++ ['\n'])
  | block body _ => '/' :: '*' :: (body ++ ['*', '/'])

/-- Every gap has a character. -/
theorem Gap.length_text_pos (gap : Gap) : 0 < gap.text.length := by
  cases gap <;> exact Nat.zero_lt_succ _

/-- The characters of a run of gaps. -/
def layoutText (gaps : List Gap) : List Char := gaps.flatMap Gap.text

/-- A run of gaps and, where the text ends inside one, an open line comment. -/
structure LastLayout where
  /-- The gaps that are closed. -/
  gaps : List Gap
  /-- What stands behind the two hyphens of the open comment. -/
  comment : Option (List Char)
  /-- The open comment runs to the end of the text, so no line ends in it. -/
  oneLine : ∀ body ∈ comment, '\n' ∉ body

namespace LastLayout

/-- The characters of a layout. -/
def text (layout : LastLayout) : List Char :=
  layoutText layout.gaps ++ layout.comment.elim [] fun body => '-' :: '-' :: body

/-- A layout with one more gap before it. -/
def cons (gap : Gap) (layout : LastLayout) : LastLayout :=
  { layout with gaps := gap :: layout.gaps }

/-- The characters of a layout with one more gap before it. -/
theorem text_cons (gap : Gap) (layout : LastLayout) :
    (layout.cons gap).text = gap.text ++ layout.text := by
  rw [text, cons, layoutText, List.flatMap_cons, List.append_assoc]
  rfl

end LastLayout

namespace Source

variable {cs rest body : List Char} {p : Position}

/-- A line comment is skipped up to a line feed or to the end. -/
theorem skipLine_split (cs : List Char) (p : Position) :
    ∃ body, '\n' ∉ body ∧ cs = body ++ (skipLine cs p).rest ∧
      (skipLine cs p).position = p.afterAll body ∧
      ((skipLine cs p).rest = [] ∨ ∃ behind, (skipLine cs p).rest = '\n' :: behind) := by
  induction cs generalizing p with
  | nil => exact ⟨[], List.not_mem_nil, rfl, rfl, Or.inl rfl⟩
  | cons c cs ih =>
    rw [skipLine]
    by_cases hc : c = '\n'
    · rw [if_pos hc]
      exact ⟨[], List.not_mem_nil, rfl, rfl, Or.inr ⟨cs, congrArg (· :: cs) hc⟩⟩
    · rw [if_neg hc]
      obtain ⟨body, hb, ht, hp, hr⟩ := ih (p.after c)
      refine ⟨c :: body, ?_, congrArg (c :: ·) ht, hp, hr⟩
      rw [List.mem_cons, not_or]
      exact ⟨Ne.symm hc, hb⟩

/-- A line comment is skipped as far as its line goes. -/
theorem skipLine_append (hb : '\n' ∉ body) (hr : rest = [] ∨ ∃ behind, rest = '\n' :: behind) :
    skipLine (body ++ rest) p = ⟨rest, p.afterAll body⟩ := by
  induction body generalizing p with
  | nil =>
    rcases hr with rfl | ⟨behind, rfl⟩
    · rfl
    · exact if_pos rfl
  | cons c body ih =>
    rw [List.mem_cons, not_or] at hb
    rw [List.cons_append, skipLine, if_neg (Ne.symm hb.1)]
    exact ih hb.2

/-- A block comment is skipped up to its first end mark. -/
theorem skipBlock?_split {source : Source} (h : skipBlock? cs p = some source) :
    ∃ body, ¬ ['*', '/'] <:+: body ∧ cs = body ++ '*' :: '/' :: source.rest ∧
      source.position = p.afterAll (body ++ ['*', '/']) := by
  fun_induction skipBlock? cs p with
  | case1 => cases h
  | case2 p behind =>
    cases h
    refine ⟨[], ?_, rfl, rfl⟩
    rw [List.infix_nil]
    exact List.cons_ne_nil _ _
  | case3 p rest hslash ih =>
    obtain ⟨body, hb, ht, hp⟩ := ih h
    refine ⟨'*' :: body, ?_, congrArg ('*' :: ·) ht, hp⟩
    rw [List.infix_cons_iff, not_or, List.cons_prefix_cons]
    refine ⟨?_, hb⟩
    rintro ⟨-, behind, rfl⟩
    exact hslash _ ht
  | case4 c rest p hc ih =>
    obtain ⟨body, hb, ht, hp⟩ := ih h
    refine ⟨c :: body, ?_, congrArg (c :: ·) ht, hp⟩
    rw [List.infix_cons_iff, not_or, List.cons_prefix_cons]
    exact ⟨fun hs => hc hs.1.symm, hb⟩

/-- Inside a block comment a character that does not begin the end mark is skipped. -/
theorem skipBlock?_cons {c : Char} (h : ¬ ['*', '/'] <+: c :: rest) :
    skipBlock? (c :: rest) p = skipBlock? rest (p.after c) := by
  by_cases hc : c = '*'
  · subst hc
    cases rest with
    | nil => rfl
    | cons d rest =>
      have hd : d ≠ '/' := by
        rintro rfl
        exact h ⟨rest, rfl⟩
      rw [skipBlock?, if_pos rfl]
      intro behind he
      cases he
      exact hd rfl
  · rw [skipBlock?.eq_def]
    exact if_neg hc

/-- A block comment is skipped as far as its first end mark. -/
theorem skipBlock?_append (hb : ¬ ['*', '/'] <:+: body) :
    skipBlock? (body ++ '*' :: '/' :: rest) p = some ⟨rest, p.afterAll (body ++ ['*', '/'])⟩ := by
  induction body generalizing p with
  | nil => rfl
  | cons c body ih =>
    rw [List.infix_cons_iff, not_or] at hb
    have hstep : ¬ ['*', '/'] <+: c :: (body ++ '*' :: '/' :: rest) := by
      rintro ⟨behind, he⟩
      cases body with
      | nil => cases he
      | cons d body =>
        cases he
        exact hb.1 ⟨body, rfl⟩
    rw [List.cons_append, skipBlock?_cons hstep, ih hb.2]
    rfl

/-- A blank character is skipped. -/
theorem skipLayoutFrom_blank {c : Char} (hc : Text.isBlank c = true) :
    skipLayoutFrom (c :: rest) p = skipLayoutFrom rest (p.after c) := by
  have hhyphen : c ≠ '-' := by
    rintro rfl
    exact absurd hc (by decide)
  have hslash : c ≠ '/' := by
    rintro rfl
    exact absurd hc (by decide)
  rw [skipLayoutFrom, if_pos hc]
  · rintro _ rfl -
    exact hhyphen rfl
  · rintro _ rfl -
    exact hslash rfl

/-- Whether layout begins at the front of a text. -/
def beginsLayout : List Char → Bool
  | [] => false
  | '-' :: '-' :: _ => true
  | '/' :: '*' :: _ => true
  | c :: _ => Text.isBlank c

/-- Where no layout begins, no blank character stands. -/
theorem isBlank_of_beginsLayout {c : Char} (h : beginsLayout (c :: rest) = false) :
    Text.isBlank c = false := by
  unfold beginsLayout at h
  split at h
  next he => cases he
  next => cases h
  next => cases h
  next he =>
    rw [(List.cons.inj he).1]
    exact h

/-- Nothing is skipped where no layout begins. -/
theorem skipLayoutFrom_stop (h : beginsLayout cs = false) :
    skipLayoutFrom cs p = .ok ⟨cs, p⟩ := by
  unfold beginsLayout at h
  split at h
  · rw [skipLayoutFrom]
  · cases h
  · cases h
  next c rest hhyphen hslash =>
    rw [skipLayoutFrom, if_neg (Bool.eq_false_iff.mp h)]
    · rintro behind rfl rfl
      exact hhyphen behind rfl rfl
    · rintro behind rfl rfl
      exact hslash behind rfl rfl

/-- A block comment that ends is skipped. -/
theorem skipLayoutFrom_block {behind : Source}
    (h : skipBlock? rest ((p.after '/').after '*') = some behind) :
    skipLayoutFrom ('/' :: '*' :: rest) p = skipLayoutFrom behind.rest behind.position := by
  rw [skipLayoutFrom]
  split
  next he =>
    rw [h] at he
    cases he
    rfl
  next he =>
    rw [h] at he
    cases he

/-- A gap is skipped where it stands. -/
theorem skipLayoutFrom_gap (gap : Gap) :
    skipLayoutFrom (gap.text ++ rest) p = skipLayoutFrom rest (p.afterAll gap.text) := by
  cases gap with
  | blank c hc => exact skipLayoutFrom_blank hc
  | line body hb =>
    rw [Gap.text, List.cons_append, List.cons_append, List.append_assoc, List.singleton_append,
      skipLayoutFrom, skipLine_append hb (Or.inr ⟨rest, rfl⟩), skipLayoutFrom_blank (by decide)]
    exact congrArg (skipLayoutFrom rest)
      (Position.afterAll_append ((p.after '-').after '-') body ['\n']).symm
  | block body hb =>
    rw [Gap.text, List.cons_append, List.cons_append, List.append_assoc, List.cons_append,
      List.singleton_append, skipLayoutFrom_block (skipBlock?_append hb)]
    rfl

/-- What begins no layout is left as it is. -/
theorem skipLayout_stop (h : beginsLayout cs = false) : skipLayout ⟨cs, p⟩ = .ok ⟨cs, p⟩ :=
  skipLayoutFrom_stop h

/-- A space is skipped up to what begins no layout. -/
theorem skipLayout_space (h : beginsLayout cs = false) :
    skipLayout ⟨' ' :: cs, p⟩ = .ok ⟨cs, p.after ' '⟩ :=
  (skipLayoutFrom_blank rfl).trans (skipLayoutFrom_stop h)

/-- A run of gaps is skipped where it stands. -/
theorem skipLayoutFrom_gaps (gaps : List Gap) (rest : List Char) (p : Position) :
    skipLayoutFrom (layoutText gaps ++ rest) p =
      skipLayoutFrom rest (p.afterAll (layoutText gaps)) := by
  induction gaps generalizing p with
  | nil => rfl
  | cons gap gaps ih =>
    rw [layoutText, List.flatMap_cons, List.append_assoc, skipLayoutFrom_gap,
      Position.afterAll_append]
    exact ih (p.afterAll gap.text)

/-- An open line comment is skipped to the end. -/
theorem skipLayoutFrom_comment (hb : '\n' ∉ body) :
    skipLayoutFrom ('-' :: '-' :: body) p = .ok ⟨[], p.afterAll ('-' :: '-' :: body)⟩ := by
  have hs := skipLine_append (p := (p.after '-').after '-') hb (Or.inl rfl)
  rw [List.append_nil] at hs
  rw [skipLayoutFrom, hs, skipLayoutFrom]
  rfl

/-- A block comment that is never closed is not skipped. -/
theorem skipLayoutFrom_open (h : ¬ ['*', '/'] <:+: rest) :
    skipLayoutFrom ('/' :: '*' :: rest) p = .error (.unterminated .blockComment p) := by
  rw [skipLayoutFrom]
  split
  next he =>
    obtain ⟨body, -, ht, -⟩ := skipBlock?_split he
    exact absurd ⟨body, _, (ht.trans (List.append_assoc body ['*', '/'] _).symm).symm⟩ h
  next => rfl

/-- The layout at the end of a text is skipped to the end. -/
theorem skipLayoutFrom_last (layout : LastLayout) (p : Position) :
    skipLayoutFrom layout.text p = .ok ⟨[], p.afterAll layout.text⟩ := by
  rw [LastLayout.text, skipLayoutFrom_gaps, Position.afterAll_append]
  cases hc : layout.comment with
  | none =>
    rw [Option.elim_none, skipLayoutFrom]
    rfl
  | some body =>
    rw [Option.elim_some]
    exact skipLayoutFrom_comment (layout.oneLine body hc)

/-- Layout begins with a gap, with an open line comment, or with a block comment that is never
closed. -/
theorem split_of_beginsLayout (p : Position) (h : beginsLayout cs = true) :
    (∃ gap rest, cs = Gap.text gap ++ rest) ∨
      (∃ body, '\n' ∉ body ∧ cs = '-' :: '-' :: body) ∨
      ∃ rest, cs = '/' :: '*' :: rest ∧ skipBlock? rest ((p.after '/').after '*') = none := by
  unfold beginsLayout at h
  split at h
  · cases h
  next rest =>
    obtain ⟨body, hb, ht, -, hr⟩ := skipLine_split rest p
    rcases hr with hr | ⟨behind, hr⟩
    · rw [hr, List.append_nil] at ht
      exact Or.inr (Or.inl ⟨rest, ht ▸ hb, rfl⟩)
    · refine Or.inl ⟨.line body hb, behind, ?_⟩
      rw [hr] at ht
      rw [ht, Gap.text, List.cons_append, List.cons_append, List.append_assoc]
      rfl
  next rest =>
    cases hs : skipBlock? rest ((p.after '/').after '*') with
    | none => exact Or.inr (Or.inr ⟨rest, rfl, hs⟩)
    | some behind =>
      obtain ⟨body, hb, ht, -⟩ := skipBlock?_split hs
      refine Or.inl ⟨.block body hb, behind.rest, ?_⟩
      rw [ht, Gap.text, List.cons_append, List.cons_append, List.append_assoc]
      rfl
  next c rest _ _ => exact Or.inl ⟨.blank c h, rest, rfl⟩

/-- Whatever was skipped is layout, in which only the end of the text may break off a
comment. -/
theorem skipLayoutFrom_ok {here : Source} (h : skipLayoutFrom cs p = .ok here) :
    ∃ layout : LastLayout, cs = layout.text ++ here.rest ∧
      here.position = p.afterAll layout.text ∧ (layout.comment ≠ none → here.rest = []) := by
  induction hn : cs.length using Nat.strongRecOn generalizing cs p with
  | ind n ih =>
    cases hb : beginsLayout cs with
    | false =>
      rw [skipLayoutFrom_stop hb] at h
      cases h
      exact ⟨⟨[], none, nofun⟩, rfl, rfl, fun hc => absurd rfl hc⟩
    | true =>
      rcases split_of_beginsLayout p hb with ⟨gap, rest, rfl⟩ | ⟨body, hbody, rfl⟩ | ⟨rest, rfl, hs⟩
      · have hlt : rest.length < n := by
          have hg := gap.length_text_pos
          rw [List.length_append] at hn
          omega
        rw [skipLayoutFrom_gap] at h
        obtain ⟨layout, ht, hp, hr⟩ := ih rest.length hlt h rfl
        refine ⟨layout.cons gap, ?_, ?_, hr⟩
        · rw [LastLayout.text_cons, List.append_assoc, ← ht]
        · rw [LastLayout.text_cons, Position.afterAll_append, hp]
      · rw [skipLayoutFrom_comment hbody] at h
        cases h
        refine ⟨⟨[], some body, ?_⟩, ?_, rfl, fun _ => rfl⟩
        · rintro _ ⟨⟩
          exact hbody
        · exact (List.append_nil _).symm
      · rw [skipLayoutFrom] at h
        split at h
        next behind he =>
          rw [hs] at he
          cases he
        next => cases h

/-- Skipping stops where no layout begins. -/
theorem skipLayoutFrom_stops {here : Source} (h : skipLayoutFrom cs p = .ok here) :
    beginsLayout here.rest = false := by
  fun_induction skipLayoutFrom cs p with
  | case1 =>
    cases h
    rfl
  | case2 _ _ _ ih => exact ih h
  | case3 _ _ _ _ ih => exact ih h
  | case4 => cases h
  | case5 _ _ _ _ _ _ ih => exact ih h
  | case6 c rest p hline hblock hblank =>
    cases h
    unfold beginsLayout
    split
    next => rfl
    next he =>
      obtain ⟨rfl, rfl⟩ := List.cons.inj he
      exact (hline _ rfl rfl).elim
    next he =>
      obtain ⟨rfl, rfl⟩ := List.cons.inj he
      exact (hblock _ rfl rfl).elim
    next he =>
      rw [← (List.cons.inj he).1]
      exact Bool.eq_false_iff.mpr hblank

/-- What is skipped before the end of a text is a run of gaps, behind which no layout begins. -/
theorem gaps_of_skipLayoutFrom {here : Source} (h : skipLayoutFrom cs p = .ok here)
    (hr : here.rest ≠ []) : ∃ gaps, cs = layoutText gaps ++ here.rest ∧
      here.position = p.afterAll (layoutText gaps) ∧ beginsLayout here.rest = false := by
  obtain ⟨layout, ht, hp, hopen⟩ := skipLayoutFrom_ok h
  have hgaps : layout.text = layoutText layout.gaps := by
    cases hc : layout.comment with
    | none => rw [LastLayout.text, hc, Option.elim_none, List.append_nil]
    | some body =>
      have hcomment : layout.comment ≠ none := by
        rw [hc]
        exact Option.some_ne_none body
      exact absurd (hopen hcomment) hr
  rw [hgaps] at ht hp
  exact ⟨layout.gaps, ht, hp, skipLayoutFrom_stops h⟩

/-- A block comment that is not closed has no end mark in it. -/
theorem noEnd_of_skipBlock? (h : skipBlock? cs p = none) : ¬ ['*', '/'] <:+: cs := by
  fun_induction skipBlock? cs p with
  | case1 => simp
  | case2 => cases h
  | case3 rest p hslash ih =>
    have hfront : ¬ ['*', '/'] <+: '*' :: rest := by
      intro hend
      obtain ⟨-, behind, rfl⟩ := List.cons_prefix_cons.mp hend
      exact hslash _ rfl
    rw [List.infix_cons_iff, not_or]
    exact ⟨hfront, ih h⟩
  | case4 c rest p hc ih =>
    have hfront : ¬ ['*', '/'] <+: c :: rest := fun hend =>
      hc (List.cons_prefix_cons.mp hend).1.symm
    rw [List.infix_cons_iff, not_or]
    exact ⟨hfront, ih h⟩

/-- Layout cannot be skipped only where, behind a run of gaps, a block comment is not closed. -/
theorem skipLayoutFrom_error {error : Error} (h : skipLayoutFrom cs p = .error error) :
    ∃ gaps rest, cs = layoutText gaps ++ '/' :: '*' :: rest ∧ ¬ ['*', '/'] <:+: rest ∧
      error = .unterminated .blockComment (p.afterAll (layoutText gaps)) := by
  induction hn : cs.length using Nat.strongRecOn generalizing cs p with
  | ind n ih =>
    cases hb : beginsLayout cs with
    | false =>
      rw [skipLayoutFrom_stop hb] at h
      cases h
    | true =>
      rcases split_of_beginsLayout p hb with ⟨gap, rest, rfl⟩ | ⟨body, hbody, rfl⟩ | ⟨rest, rfl, hs⟩
      · have hlt : rest.length < n := by
          have hg := gap.length_text_pos
          rw [List.length_append] at hn
          omega
        rw [skipLayoutFrom_gap] at h
        obtain ⟨gaps, others, ht, hclosed, he⟩ := ih rest.length hlt h rfl
        refine ⟨gap :: gaps, others, ?_, hclosed, ?_⟩
        · rw [ht, layoutText, layoutText, List.flatMap_cons, List.append_assoc]
        · rw [he, layoutText, layoutText, List.flatMap_cons, Position.afterAll_append]
      · rw [skipLayoutFrom_comment hbody] at h
        cases h
      · rw [skipLayoutFrom] at h
        split at h
        next behind he =>
          rw [hs] at he
          cases he
        next =>
          cases h
          exact ⟨[], rest, rfl, noEnd_of_skipBlock? hs, rfl⟩

end Source

end SqlDdl
