/-!
# TOML strings

The four kinds of string: with escapes between double quotes, as they stand between
single quotes, and both across lines between three quotes. A control character other
than the tab stands in none of them, a line break only in the last two, which keep it
as it was written.
-/

namespace SqlDdl.Toml

/-- Whether a character may not stand in a string or a comment. -/
def isControl (c : Char) : Bool := (c.toNat < 0x20 && c ≠ '\t') || c.toNat = 0x7F

/-- The value of a hexadecimal digit. -/
def hexValue? (c : Char) : Option Nat :=
  if c.isDigit then some (c.toNat - '0'.toNat)
  else if 'a' ≤ c ∧ c ≤ 'f' then some (c.toNat - 'a'.toNat + 10)
  else if 'A' ≤ c ∧ c ≤ 'F' then some (c.toNat - 'A'.toNat + 10)
  else none

/-- The number that hexadecimal digits write. -/
def hexNumber? (cs : List Char) : Option Nat :=
  cs.foldlM (fun n c => (hexValue? c).map (16 * n + ·)) 0

/-- The character whose number stands in the next `count` hexadecimal digits. -/
def numbered? (count : Nat) (cs : List Char) : Option (Char × List Char) := do
  if cs.length < count then none
  let n ← hexNumber? (cs.take count)
  if n.isValidChar then some (Char.ofNat n, cs.drop count) else none

/-- The character that a letter or mark behind a backslash stands for. -/
def shortEscape? : Char → Option Char
  | 'b' => some '\x08'
  | 't' => some '\t'
  | 'n' => some '\n'
  | 'f' => some '\x0c'
  | 'r' => some '\r'
  | 'e' => some '\x1b'
  | '\x22' => some '\x22'
  | '\\' => some '\\'
  | _ => none

/-- How many digits follow a letter behind a backslash. -/
def escapeWidth? : Char → Option Nat
  | 'x' => some 2
  | 'u' => some 4
  | 'U' => some 8
  | _ => none

/-- The character that what stands behind a backslash writes. -/
def escape? : List Char → Option (Char × List Char)
  | [] => none
  | c :: rest =>
    match shortEscape? c with
    | some meant => some (meant, rest)
    | none => (escapeWidth? c).bind fun count => numbered? count rest

theorem numbered?_length {count : Nat} {cs : List Char} {c : Char} {rest : List Char}
    (h : numbered? count cs = some (c, rest)) : rest.length ≤ cs.length := by
  unfold numbered? at h
  split at h
  · simp at h
  · cases hn : hexNumber? (cs.take count) with
    | none => simp [hn] at h
    | some n =>
      simp only [hn, Option.bind_eq_bind, Option.bind_some] at h
      split at h
      · simp only [Option.some.injEq, Prod.mk.injEq] at h
        simp [← h.2]
      · simp at h

theorem escape?_length {cs : List Char} {c : Char} {rest : List Char}
    (h : escape? cs = some (c, rest)) : rest.length < cs.length := by
  unfold escape? at h
  split at h
  · cases h
  · split at h
    · cases h
      simp
    · obtain ⟨count, _, hn⟩ := Option.bind_eq_some_iff.1 h
      have := numbered?_length hn
      simp only [List.length_cons]
      omega

/-- A line break and the text behind it. -/
def lineBreak? : List Char → Option (List Char)
  | '\n' :: rest => some rest
  | '\r' :: '\n' :: rest => some rest
  | _ => none

/-- The text behind an optional line break. -/
def skipBreak (cs : List Char) : List Char := (lineBreak? cs).getD cs

/-- The string with escapes whose opening quote has been read. -/
def basic? (found : List Char) : List Char → Option (String × List Char)
  | [] => none
  | c :: rest =>
    if c = '\x22' then some (String.ofList found.reverse, rest)
    else if c = '\\' then
      match _h : escape? rest with
      | some (c, behind) => basic? (c :: found) behind
      | none => none
    else if isControl c then none
    else basic? (c :: found) rest
termination_by cs => cs.length
decreasing_by
  · have := escape?_length _h
    simp only [List.length_cons]
    omega
  · simp

/-- The string without escapes whose opening quote has been read. -/
def literal? (found : List Char) : List Char → Option (String × List Char)
  | [] => none
  | c :: rest =>
    if c = '\x27' then some (String.ofList found.reverse, rest)
    else if isControl c then none
    else literal? (c :: found) rest

/-- The text behind blanks and line breaks. -/
def skipLayout : List Char → List Char
  | [] => []
  | '\r' :: '\n' :: rest => skipLayout rest
  | c :: rest => if c = ' ' || c = '\t' || c = '\n' then skipLayout rest else c :: rest

theorem skipLayout_length (cs : List Char) : (skipLayout cs).length ≤ cs.length := by
  fun_induction skipLayout cs with
  | case1 => simp
  | case2 _ ih => simp only [List.length_cons]; omega
  | case3 _ _ _ _ ih => simp only [List.length_cons]; omega
  | case4 => simp

/-- The text behind a backslash at the end of a line: the layout up to the next character is
passed over if it holds a line break. -/
def continued? (cs : List Char) : Option (List Char) :=
  (lineBreak? (cs.dropWhile fun c => c = ' ' || c = '\t')).map skipLayout

theorem lineBreak?_length {cs rest : List Char} (h : lineBreak? cs = some rest) :
    rest.length < cs.length := by
  unfold lineBreak? at h
  split at h
  · cases h; simp
  · cases h; simp only [List.length_cons]; omega
  · cases h

theorem continued?_length {cs rest : List Char} (h : continued? cs = some rest) :
    rest.length ≤ cs.length := by
  have h₁ := (List.dropWhile_sublist (l := cs) fun c => c = ' ' || c = '\t').length_le
  obtain ⟨behind, hb, rfl⟩ := Option.map_eq_some_iff.1 h
  have h₂ := lineBreak?_length hb
  have h₃ := skipLayout_length behind
  omega

/-- The end of a string across lines at a run of quotes: three of them close it, and up to
two more in front of those belong to it. -/
def close? (quote : Char) (found : List Char) (cs : List Char) : Option (String × List Char) :=
  let run := (cs.takeWhile (· = quote)).length
  if run < 3 then none
  else
    let extra := min (run - 3) 2
    some (String.ofList (List.replicate extra quote ++ found).reverse, cs.drop (extra + 3))

/-- The string with escapes across lines whose opening quotes have been read. -/
def basicLines? (found : List Char) : List Char → Option (String × List Char)
  | [] => none
  | c :: rest =>
    if c = '\x22' then
      match close? c found (c :: rest) with
      | some closed => some closed
      | none => basicLines? (c :: found) rest
    else if c = '\\' then
      match _h : continued? rest with
      | some behind => basicLines? found behind
      | none =>
        match _h' : escape? rest with
        | some (c, behind) => basicLines? (c :: found) behind
        | none => none
    else if c = '\r' then
      match rest with
      | '\n' :: behind => basicLines? ('\n' :: '\r' :: found) behind
      | _ => none
    else if isControl c && c ≠ '\n' then none
    else basicLines? (c :: found) rest
termination_by cs => cs.length
decreasing_by
  · simp
  · have := continued?_length _h
    simp only [List.length_cons]
    omega
  · have := escape?_length _h'
    simp only [List.length_cons]
    omega
  · simp only [List.length_cons]
    omega
  · simp

/-- The string without escapes across lines whose opening quotes have been read. -/
def literalLines? (found : List Char) : List Char → Option (String × List Char)
  | [] => none
  | c :: rest =>
    if c = '\x27' then
      match close? c found (c :: rest) with
      | some closed => some closed
      | none => literalLines? (c :: found) rest
    else if c = '\r' then
      match rest with
      | '\n' :: behind => literalLines? ('\n' :: '\r' :: found) behind
      | _ => none
    else if isControl c && c ≠ '\n' then none
    else literalLines? (c :: found) rest

end SqlDdl.Toml
