import SqlDdl.Position
import SqlDdl.Token

/-!
# Token streams

A finite sequence of tokens, each with the place where it starts. A stream that
was scanned ends with the end-of-input token; one put together by hand need not,
and may hold that token anywhere.
-/

namespace SqlDdl

/-- A token and where it starts. -/
structure Located where
  /-- The token itself. -/
  token : Token
  /-- The place of its first character. -/
  position : Position
  deriving DecidableEq, Inhabited

/-- A sequence of tokens with their places. -/
structure TokenStream where
  /-- The tokens in the order of the text. -/
  entries : Array Located
  deriving DecidableEq, Inhabited

namespace TokenStream

/-- The stream without tokens. -/
def empty : TokenStream := ⟨#[]⟩

/-- The stream of a list of tokens with their places. -/
def ofList (entries : List Located) : TokenStream := ⟨entries.toArray⟩

/-- The number of tokens. -/
def size (stream : TokenStream) : Nat := stream.entries.size

/-- Whether there are no tokens. -/
def isEmpty (stream : TokenStream) : Bool := stream.entries.isEmpty

/-- The stream with one more token at its end. -/
def push (stream : TokenStream) (token : Token) (position : Position) : TokenStream :=
  ⟨stream.entries.push ⟨token, position⟩⟩

/-- The token at an index, inside the stream. -/
def get? (stream : TokenStream) (index : Nat) : Option Token :=
  stream.entries[index]?.map (·.token)

/-- Where the token at an index starts. Behind the end it is where the last token starts,
and in an empty stream the start of the text. -/
def position (stream : TokenStream) (index : Nat) : Position :=
  match stream.entries[index]? <|> stream.entries.back? with
  | some entry => entry.position
  | none => .start

/-- The tokens without their places. -/
def tokens (stream : TokenStream) : List Token := stream.entries.toList.map (·.token)

end TokenStream

end SqlDdl
