import SqlDdl.Toml.Scalar

/-!
# Reading TOML documents

A document is a sequence of lines: blank, a comment, a header, or a key with its
value. Arrays and inline tables nest no deeper than a limit, which also bounds the
parts of a key; the number of items and lines is bounded by the length of the text,
so that this length is fuel enough. What is wrong with a text that is no document is
not told.
-/

namespace SqlDdl.Toml

/-- The text behind blanks. -/
def skipBlanks (cs : List Char) : List Char := cs.dropWhile fun c => c = ' ' || c = '\t'

/-- The text behind blanks, line breaks and comments; `inComment` tells that a comment has
begun. -/
def gap? (inComment : Bool) : List Char → Option (List Char)
  | [] => some []
  | c :: rest =>
    if c = '\n' then gap? false rest
    else if c = '\r' then
      match rest with
      | '\n' :: behind => gap? false behind
      | _ => none
    else if inComment then if isControl c then none else gap? true rest
    else if c = ' ' || c = '\t' then gap? false rest
    else if c = '#' then gap? true rest
    else some (c :: rest)

/-- The text behind a comment, at the line break or at the end. -/
def comment? : List Char → Option (List Char)
  | [] => some []
  | c :: rest =>
    if (lineBreak? (c :: rest)).isSome then some (c :: rest)
    else if isControl c then none
    else comment? rest

/-- The text behind the end of a line, before which a comment may stand. -/
def lineEnd? (cs : List Char) : Option (List Char) := do
  let behind ← match skipBlanks cs with
    | '#' :: rest => comment? rest
    | rest => some rest
  if behind.isEmpty then some [] else lineBreak? behind

/-- Whether a character may stand in a key without quotes. -/
def isBare (c : Char) : Bool := c.isAlphanum || c = '_' || c = '-'

/-- One part of a key. -/
def keyPart? (cs : List Char) : Option (String × List Char) :=
  match cs with
  | '\x22' :: rest => basic? [] rest
  | '\x27' :: rest => literal? [] rest
  | _ =>
    let part := cs.takeWhile isBare
    if part.isEmpty then none else some (String.ofList part, cs.dropWhile isBare)

/-- How deep arrays and inline tables nest, and how many parts a key has, at most. -/
def nestingLimit : Nat := 80

/-- A key of at most so many parts with dots between them, and the text behind it and blanks. -/
def keyWithin? : Nat → List Char → Option (List String × List Char)
  | 0, _ => none
  | count + 1, cs => do
    let (part, rest) ← keyPart? cs
    match skipBlanks rest with
    | '.' :: more =>
      let (parts, rest) ← keyWithin? count (skipBlanks more)
      return (part :: parts, rest)
    | rest => return ([part], rest)

/-- A key, and the text behind it and blanks. -/
def key? (cs : List Char) : Option (List String × List Char) := keyWithin? nestingLimit cs

/-- Whether a character may stand in a value without quotes: any but blanks, line breaks and
the marks that end a value. -/
def isScalarPart (c : Char) : Bool :=
  !(['=', ',', '[', ']', '\x7b', '\x7d', ' ', '\t', '#', '\r', '\n'].contains c)

/-- The characters of a value without quotes: a run, and a second one behind a single blank
where the first is a date and the second begins with a digit. -/
def scalarText (cs : List Char) : List Char × List Char :=
  let run := cs.takeWhile isScalarPart
  let rest := cs.dropWhile isScalarPart
  match rest with
  | ' ' :: c :: _ =>
    if date? run = some [] && c.isDigit then
      let behind := rest.drop 1
      (run ++ ' ' :: behind.takeWhile isScalarPart, behind.dropWhile isScalarPart)
    else (run, rest)
  | _ => (run, rest)

/-- The rest of an array behind the items found so far, the last one first. -/
def items? (value : List Char → Option (Value × List Char)) :
    Nat → List Value → List Char → Option (Value × List Char)
  | 0, _, _ => none
  | fuel + 1, found, cs => do
    match ← gap? false cs with
    | ']' :: rest => return (.array found.reverse, rest)
    | cs =>
      let (item, rest) ← value cs
      match ← gap? false rest with
      | ',' :: rest => items? value fuel (item :: found) rest
      | ']' :: rest => return (.array (item :: found).reverse, rest)
      | _ => none

/-- The rest of an inline table behind the members found so far. Line breaks and comments may
stand around a key, which itself is on one line, and around its value. -/
def members? (value : List Char → Option (Value × List Char)) :
    Nat → Members → List Char → Option (Value × List Char)
  | 0, _, _ => none
  | fuel + 1, found, cs => do
    match ← gap? false cs with
    | '\x7d' :: rest => return (.table .inline found, rest)
    | cs =>
      let (key, rest) ← key? cs
      let (member, rest) ← value (← gap? false (← expect? '=' (← gap? false rest)))
      let found ← insertPair member key found
      match ← gap? false rest with
      | ',' :: rest => members? value fuel found rest
      | '\x7d' :: rest => return (.table .inline found, rest)
      | _ => none

/-- A value in which so many more levels may be nested, and the text behind it. -/
def value? (fuel levels : Nat) (cs : List Char) : Option (Value × List Char) :=
  match cs with
  | '\x22' :: '\x22' :: '\x22' :: rest => do
    let (text, rest) ← basicLines? [] (skipBreak rest)
    return (.string text, rest)
  | '\x22' :: rest => do
    let (text, rest) ← basic? [] rest
    return (.string text, rest)
  | '\x27' :: '\x27' :: '\x27' :: rest => do
    let (text, rest) ← literalLines? [] (skipBreak rest)
    return (.string text, rest)
  | '\x27' :: rest => do
    let (text, rest) ← literal? [] rest
    return (.string text, rest)
  | '[' :: rest =>
    match levels with
    | 0 => none
    | levels + 1 => items? (value? fuel levels) fuel [] rest
  | '\x7b' :: rest =>
    match levels with
    | 0 => none
    | levels + 1 => members? (value? fuel levels) fuel [] rest
  | _ => do
    let (run, rest) := scalarText cs
    return (← scalar? run, rest)

/-- The rest of a document behind what stands in it so far; pairs go to the table at the path
of the last header. -/
def lines? : Nat → List String → Members → List Char → Option Members
  | 0, _, _, _ => none
  | fuel + 1, header, root, cs => do
    match ← gap? false cs with
    | [] => return root
    | '[' :: '[' :: rest =>
      let (key, rest) ← key? (skipBlanks rest)
      let rest ← lineEnd? (← expect? ']' (← expect? ']' rest))
      lines? fuel key (← openRow key root) rest
    | '[' :: rest =>
      let (key, rest) ← key? (skipBlanks rest)
      let rest ← lineEnd? (← expect? ']' rest)
      lines? fuel key (← openTable key root) rest
    | cs =>
      let (key, rest) ← key? cs
      let (value, rest) ← value? fuel nestingLimit (skipBlanks (← expect? '=' rest))
      let rest ← lineEnd? rest
      lines? fuel header (← descend (insertPair value key) header root) rest

/-- The members of a document. A byte order mark in front of it is passed over. -/
def read? (text : String) : Option Members :=
  let cs := match text.toList with
    | '\uFEFF' :: rest => rest
    | cs => cs
  lines? (cs.length + 1) [] [] cs

end SqlDdl.Toml
