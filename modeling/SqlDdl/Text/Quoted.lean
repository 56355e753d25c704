/-!
# Quoted text

A text is enclosed in a quote character by writing that character twice inside it.
`enclose` writes the form and `readBody` reads it back from behind the opening
quote, whatever follows the closing one.
-/

namespace SqlDdl.Text

/-- A text with every quote character doubled. -/
def double (quote : Char) (cs : List Char) : List Char :=
  cs.flatMap fun c => if c = quote then [quote, quote] else [c]

/-- A text between two quotes. -/
def enclose (quote : Char) (cs : List Char) : List Char :=
  quote :: double quote cs ++ [quote]

/-- The characters up to the closing quote, behind those already read, which stand in
reverse; and the text behind that quote. There is no answer without a closing quote. -/
def readBody (quote : Char) (found : List Char) : List Char → Option (List Char × List Char)
  | [] => none
  | [c] => if c = quote then some (found.reverse, []) else none
  | c :: d :: rest =>
    if c = quote then
      if d = quote then readBody quote (quote :: found) rest
      else some (found.reverse, d :: rest)
    else readBody quote (c :: found) (d :: rest)

theorem readBody_length {quote : Char} {found cs body rest : List Char}
    (h : readBody quote found cs = some (body, rest)) : rest.length < cs.length := by
  fun_induction readBody quote found cs with
  | case1 => simp at h
  | case2 => simp_all
  | case3 => simp at h
  | case4 _ _ ih => have := ih h; simp only [List.length_cons]; omega
  | case5 => simp_all
  | case6 _ _ _ _ _ ih => have := ih h; simp only [List.length_cons] at this ⊢; omega

end SqlDdl.Text
