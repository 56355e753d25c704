import SqlDdl.Error
import SqlDdl.Text.Blank

/-!
# Layout between tokens

White space, line comments and block comments carry no meaning. A line comment
runs from two hyphens up to the end of its line, a block comment from `/*` to the
next `*/`; block comments do not nest. Layout is skipped as far as it reaches.
-/

namespace SqlDdl

/-- A text that is still to be read and the place where it starts. -/
structure Source where
  /-- The characters that are still to be read. -/
  rest : List Char
  /-- The place of the first of them. -/
  position : Position

namespace Source

/-- The whole of a text. -/
def ofText (text : String) : Source := ⟨text.toList, .start⟩

/-- The source behind a line comment, at the line feed that ends it or at the end. -/
def skipLine : List Char → Position → Source
  | [], position => ⟨[], position⟩
  | c :: rest, position =>
    if c = '\n' then ⟨c :: rest, position⟩ else skipLine rest (position.after c)

/-- The source behind the end mark of a block comment, if there is an end mark. -/
def skipBlock? : List Char → Position → Option Source
  | [], _ => none
  | c :: rest, position =>
    if c = '*' then
      match rest with
      | '/' :: behind => some ⟨behind, (position.after '*').after '/'⟩
      | _ => skipBlock? rest (position.after c)
    else skipBlock? rest (position.after c)

theorem skipLine_length (cs : List Char) (position : Position) :
    (skipLine cs position).rest.length ≤ cs.length := by
  induction cs generalizing position with
  | nil => simp [skipLine]
  | cons c rest ih =>
    simp only [skipLine]
    split
    · simp
    · have := ih (position.after c)
      simp only [List.length_cons]
      omega

theorem skipBlock?_length {cs : List Char} {position : Position} {source : Source}
    (h : skipBlock? cs position = some source) : source.rest.length ≤ cs.length := by
  fun_induction skipBlock? cs position with
  | case1 => simp at h
  | case2 => cases h; simp; omega
  | case3 _ _ _ ih => have := ih h; simp only [List.length_cons]; omega
  | case4 _ _ _ _ ih => have := ih h; simp only [List.length_cons]; omega

/-- The source at the first character that is not layout, in a text that starts at a
position. -/
def skipLayoutFrom : List Char → Position → Except Error Source
  | [], position => .ok ⟨[], position⟩
  | '-' :: '-' :: rest, position =>
    let behind := skipLine rest ((position.after '-').after '-')
    skipLayoutFrom behind.rest behind.position
  | '/' :: '*' :: rest, position =>
    match _h : skipBlock? rest ((position.after '/').after '*') with
    | some behind => skipLayoutFrom behind.rest behind.position
    | none => .error (.unterminated .blockComment position)
  | c :: rest, position =>
    if Text.isBlank c then skipLayoutFrom rest (position.after c) else .ok ⟨c :: rest, position⟩
termination_by cs => cs.length
decreasing_by
  · have := skipLine_length rest ((position.after '-').after '-')
    simp only [List.length_cons]
    omega
  · have := skipBlock?_length _h
    simp only [List.length_cons]
    omega
  · simp

theorem skipLayoutFrom_length {cs : List Char} {position : Position} {here : Source}
    (h : skipLayoutFrom cs position = .ok here) : here.rest.length ≤ cs.length := by
  fun_induction skipLayoutFrom cs position with
  | case1 => cases h; simp
  | case2 rest position behind ih =>
    have h₁ := ih h
    have h₂ : behind.rest.length ≤ rest.length := skipLine_length rest _
    simp only [List.length_cons]
    omega
  | case3 rest position behind hb ih =>
    have h₁ := ih h
    have h₂ := skipBlock?_length hb
    simp only [List.length_cons]
    omega
  | case4 => cases h
  | case5 c rest position _ _ _ ih =>
    have := ih h
    simp only [List.length_cons]
    omega
  | case6 => cases h; simp

/-- The source at the first character that is not layout. -/
def skipLayout (source : Source) : Except Error Source :=
  skipLayoutFrom source.rest source.position

theorem skipLayout_length {source here : Source} (h : source.skipLayout = .ok here) :
    here.rest.length ≤ source.rest.length :=
  skipLayoutFrom_length h

end Source

end SqlDdl
