import SqlDdl.Proofs.Lexable
import SqlDdl.Toml.Reader

/-!
# Documents written line by line

A document is written line by line: blank lines, headers of one key, and pairs of a key with a
decimal number, a truth value or a text that needs no escape. It is read as what its lines put
into it one after another. Lines are so made that they can be read: a key has no other
characters than those that may stand without quotes, and a value comes with its text.
-/

namespace SqlDdl.Toml

/-- A key that may stand without quotes. -/
structure BareKey where
  /-- The text of the key. -/
  name : String
  /-- A key has a character. -/
  nonempty : name.toList ≠ []
  /-- No character of the key calls for quotes. -/
  bare : name.toList.all isBare = true

/-- A value and a text that is read as this value in front of a line break. -/
structure Written where
  /-- The characters on the line. -/
  text : List Char
  /-- What they are read as. -/
  value : Value
  /-- No blank comes before the characters. -/
  begins : ∀ rest, skipBlanks (text ++ rest) = text ++ rest
  /-- In front of a line break they are read as the value, up to the break. -/
  reads : ∀ fuel levels rest,
    value? fuel levels (text ++ '\n' :: rest) = some (value, '\n' :: rest)

/-- A line of a document. -/
inductive Line where
  | blank
  | header (name : BareKey)
  | pair (key : BareKey) (written : Written)

/-- The text of a line with its line break. -/
def Line.text : Line → List Char
  | blank => ['\n']
  | header name => '[' :: name.name.toList ++ [']', '\n']
  | pair key written => key.name.toList ++ ' ' :: '=' :: ' ' :: written.text ++ ['\n']

/-- What a line makes of the header that holds and of the members of the document. -/
def Line.apply (line : Line) (header : List String) (root : Members) :
    Option (List String × Members) :=
  match line with
  | blank => some (header, root)
  | .header name => (openTable [name.name] root).map ([name.name], ·)
  | pair key written => (descend (insertPair written.value [key.name]) header root).map (header, ·)

section Runs

variable {p : Char → Bool} {run rest more : List Char} {d : Char}

/-- A run of characters that have a property does not begin with one that lacks it. -/
theorem run_append_ne (hne : run ≠ []) (hrun : ∀ c ∈ run, p c = true) (hd : p d = false) :
    run ++ rest ≠ d :: more := by
  cases run with
  | nil => exact absurd rfl hne
  | cons c cs =>
    intro hsame
    have hc := hrun c List.mem_cons_self
    exact ne_of_apply_ne p (by rw [hc, hd]; decide) (List.cons.inj hsame).1

/-- There are no blanks in front of a run of characters that have a property that blanks lack. -/
theorem skipBlanks_run (hne : run ≠ []) (hrun : ∀ c ∈ run, p c = true) (hspace : p ' ' = false)
    (htab : p '\t' = false) : skipBlanks (run ++ rest) = run ++ rest := by
  cases run with
  | nil => exact absurd rfl hne
  | cons c cs =>
    have hc := hrun c List.mem_cons_self
    have hnoSpace : c ≠ ' ' := ne_of_apply_ne p (by rw [hc, hspace]; decide)
    have hnoTab : c ≠ '\t' := ne_of_apply_ne p (by rw [hc, htab]; decide)
    exact List.dropWhile_cons_of_neg (by simp [hnoSpace, hnoTab])

end Runs

section Keys

variable {key : BareKey} {rest : List Char}

/-- The text of a key is not empty, and its first character may stand in a key. -/
theorem BareKey.exists_toList_eq (key : BareKey) :
    ∃ c cs, key.name.toList = c :: cs ∧ isBare c = true := by
  cases h : key.name.toList with
  | nil => exact absurd h key.nonempty
  | cons c cs => exact ⟨c, cs, rfl, List.all_eq_true.mp key.bare c (h ▸ List.mem_cons_self)⟩

/-- A key does not begin with a character that may not stand in it. -/
theorem BareKey.append_ne {d : Char} {more : List Char} (key : BareKey) (hd : isBare d = false) :
    key.name.toList ++ rest ≠ d :: more :=
  run_append_ne key.nonempty (List.all_eq_true.mp key.bare) hd

/-- There are no blanks in front of a key. -/
theorem skipBlanks_key : skipBlanks (key.name.toList ++ rest) = key.name.toList ++ rest :=
  skipBlanks_run key.nonempty (List.all_eq_true.mp key.bare) (by decide) (by decide)

/-- There is no layout in front of a key. -/
theorem gap?_key : gap? false (key.name.toList ++ rest) = some (key.name.toList ++ rest) := by
  obtain ⟨c, cs, htext, hc⟩ := key.exists_toList_eq
  have hne {d : Char} (hd : isBare d = false) : c ≠ d :=
    ne_of_apply_ne isBare (by rw [hc, hd]; decide)
  have hblank : (decide (c = ' ') || decide (c = '\t')) = false := by
    rw [decide_eq_false (hne (by decide)), decide_eq_false (hne (by decide))]
    rfl
  rw [htext, List.cons_append, gap?.eq_def]
  dsimp only
  rw [if_neg (hne (by decide)), if_neg (hne (by decide)), if_neg Bool.false_ne_true, hblank,
    if_neg Bool.false_ne_true, if_neg (hne (by decide))]

/-- One part of a key is what stands before the first character that may not stand in it. -/
theorem keyPart?_bare (h : ∀ c ∈ rest.head?, isBare c = false) :
    keyPart? (key.name.toList ++ rest) = some (key.name, rest) := by
  have hempty : key.name.toList.isEmpty = false := List.isEmpty_eq_false_iff.mpr key.nonempty
  unfold keyPart?
  split
  next more hquote => exact absurd hquote (key.append_ne (by decide))
  next more hquote => exact absurd hquote (key.append_ne (by decide))
  next =>
    obtain ⟨htake, hdrop⟩ := Lexeme.span_append (List.all_eq_true.mp key.bare) h
    dsimp only
    rw [htake, hdrop, hempty, String.ofList_toList]
    rfl

/-- A key is read up to a character that may not stand in it, and the blanks behind it with it. -/
theorem key?_bare (h : ∀ c ∈ rest.head?, isBare c = false)
    (hdot : (skipBlanks rest).head? ≠ some '.') :
    key? (key.name.toList ++ rest) = some ([key.name], skipBlanks rest) := by
  rw [key?, nestingLimit, keyWithin?, keyPart?_bare h]
  simp only [Option.bind_eq_bind, Option.bind_some]
  split
  next more hmore =>
    rw [hmore] at hdot
    exact absurd rfl hdot
  next => rfl

end Keys

section Lines

variable {fuel : Nat} {header : List String} {root : Members} {rest : List Char}

/-- A line break ends a line. -/
theorem lineEnd?_break : lineEnd? ('\n' :: rest) = some rest := rfl

/-- A blank line is passed over together with what is in front of the next line. -/
theorem lines?_blank : lines? (fuel + 1) header root ('\n' :: rest) =
    lines? (fuel + 1) header root rest := by
  have hgap : gap? false ('\n' :: rest) = gap? false rest := by
    rw [gap?.eq_def]
    rfl
  rw [lines?, lines?, hgap]

/-- A header opens its table. -/
theorem lines?_header {name : BareKey} : lines? (fuel + 1) header root
      ('[' :: (name.name.toList ++ ']' :: '\n' :: rest)) =
    (openTable [name.name] root).bind (lines? fuel [name.name] · rest) := by
  have hgap : gap? false ('[' :: (name.name.toList ++ ']' :: '\n' :: rest)) =
      some ('[' :: (name.name.toList ++ ']' :: '\n' :: rest)) := by
    rw [gap?.eq_def]
    rfl
  have hkey : key? (name.name.toList ++ ']' :: '\n' :: rest) =
      some ([name.name], ']' :: '\n' :: rest) :=
    key?_bare (by simp; decide) (by simp [skipBlanks])
  rw [lines?, hgap]
  simp only [Option.bind_eq_bind, Option.bind_some]
  split
  next h => cases h
  next more h => exact absurd (List.cons.inj h).2 (name.append_ne (by decide))
  next more h =>
    cases h
    rw [skipBlanks_key, hkey]
    rfl
  next h => exact absurd rfl (h _)

/-- A pair goes to the table of the header that holds. -/
theorem lines?_pair {key : BareKey} {written : Written} : lines? (fuel + 1) header root
      (key.name.toList ++ ' ' :: '=' :: ' ' :: (written.text ++ '\n' :: rest)) =
    (descend (insertPair written.value [key.name]) header root).bind
      (lines? fuel header · rest) := by
  have hkey : key? (key.name.toList ++ ' ' :: '=' :: ' ' :: (written.text ++ '\n' :: rest)) =
      some ([key.name], '=' :: ' ' :: (written.text ++ '\n' :: rest)) :=
    key?_bare (by simp; decide) (by simp [skipBlanks])
  have hblanks : skipBlanks (' ' :: (written.text ++ '\n' :: rest)) =
      written.text ++ '\n' :: rest := written.begins _
  rw [lines?, gap?_key]
  simp only [Option.bind_eq_bind, Option.bind_some]
  split
  next h => exact absurd (List.append_eq_nil_iff.mp h).1 key.nonempty
  next more h => exact absurd h (key.append_ne (by decide))
  next more h => exact absurd h (key.append_ne (by decide))
  next =>
    rw [hkey]
    simp only [Option.bind_some, expect?, if_true, hblanks, written.reads, lineEnd?_break]

/-- What lines make, one after another, of the members of a document. -/
def applyAll (header : List String) (root : Members) : List Line → Option Members
  | [] => some root
  | line :: lines => (line.apply header root).bind fun place => applyAll place.1 place.2 lines

/-- A document is read as what its lines put into it one after another. -/
theorem lines?_written {lines : List Line} (hfuel : lines.length < fuel) :
    lines? fuel header root (lines.flatMap Line.text) = applyAll header root lines := by
  induction lines generalizing fuel header root with
  | nil =>
    cases fuel with
    | zero => cases hfuel
    | succ fuel => rfl
  | cons line lines ih =>
    rw [List.length_cons] at hfuel
    obtain ⟨fuel, rfl⟩ : ∃ less, fuel = less + 1 := ⟨fuel - 1, by omega⟩
    have hmore : lines.length < fuel + 1 := by omega
    have hless : lines.length < fuel := by omega
    rw [List.flatMap_cons, applyAll]
    cases line with
    | blank =>
      -- The blank line is layout in front of the next line and costs nothing.
      exact lines?_blank.trans (ih hmore)
    | header name =>
      have htext : (Line.header name).text ++ lines.flatMap Line.text =
          '[' :: (name.name.toList ++ ']' :: '\n' :: lines.flatMap Line.text) := by
        simp only [Line.text, List.cons_append, List.append_assoc, List.nil_append]
      rw [htext, lines?_header, Line.apply, Option.bind_map]
      exact Option.bind_congr fun table _ => ih hless
    | pair key written =>
      have htext : (Line.pair key written).text ++ lines.flatMap Line.text =
          key.name.toList ++ ' ' :: '=' :: ' ' ::
            (written.text ++ '\n' :: lines.flatMap Line.text) := by
        simp only [Line.text, List.cons_append, List.append_assoc, List.nil_append]
      rw [htext, lines?_pair, Line.apply, Option.bind_map]
      exact Option.bind_congr fun table _ => ih hless

/-- A line has a first character, which is not the mark of the byte order. -/
theorem Line.exists_text_eq (line : Line) : ∃ c cs, line.text = c :: cs ∧ c ≠ '\uFEFF' := by
  cases line with
  | blank => exact ⟨_, _, rfl, by decide⟩
  | header name => exact ⟨_, _, rfl, by decide⟩
  | pair key written =>
    obtain ⟨c, cs, htext, hc⟩ := key.exists_toList_eq
    have hne : c ≠ '\uFEFF' := ne_of_apply_ne isBare (by rw [hc]; decide)
    refine ⟨c, cs ++ ' ' :: '=' :: ' ' :: written.text ++ ['\n'], ?_, hne⟩
    rw [Line.text, htext]
    rfl

/-- There are no more lines than characters. -/
theorem length_le_length_flatMap (lines : List Line) :
    lines.length ≤ (lines.flatMap Line.text).length := by
  induction lines with
  | nil => exact Nat.le_refl _
  | cons line lines ih =>
    obtain ⟨c, cs, htext, -⟩ := line.exists_text_eq
    rw [List.flatMap_cons, htext, List.length_append, List.length_cons, List.length_cons]
    omega

/-- A text that consists of lines is read as what these make of an empty document. -/
theorem read?_written {text : String} {lines : List Line}
    (h : text.toList = lines.flatMap Line.text) : read? text = applyAll [] [] lines := by
  have hfuel : lines.length < (lines.flatMap Line.text).length + 1 := by
    have := length_le_length_flatMap lines
    omega
  have hmark (rest : List Char) : lines.flatMap Line.text ≠ '\uFEFF' :: rest := by
    cases lines with
    | nil => exact nofun
    | cons line lines =>
      obtain ⟨c, cs, htext, hc⟩ := line.exists_text_eq
      rw [List.flatMap_cons, htext]
      exact fun hsame => hc (List.cons.inj hsame).1
  rw [read?, h]
  split
  next rest hsame => exact absurd hsame (hmark rest)
  next => exact lines?_written hfuel

end Lines

end SqlDdl.Toml
