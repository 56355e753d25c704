import SqlDdl.Token.Layout
import SqlDdl.Token.Lexeme
import SqlDdl.Token.Stream

/-!
# Scanning a text

A text is cut into tokens from front to back: layout is skipped, then one lexeme
is cut, until nothing is left. The stream ends with the one end-of-input token,
which stands behind the last layout. The first fault ends the scan.
-/

namespace SqlDdl

namespace TokenStream

/-- The stream of a source, behind the tokens found before it. -/
def scanFrom (found : Array Located) (source : Source) : Except Error TokenStream :=
  match _hs : source.skipLayout with
  | .error error => .error error
  | .ok here =>
    match _hr : here.rest with
    | [] => .ok ⟨found.push ⟨.eof, here.position⟩⟩
    | c :: rest =>
      match _hl : Lexeme.ofChars c rest with
      | .error fault => .error (fault.at here.position)
      | .ok lexeme =>
        scanFrom (found.push ⟨lexeme.token, here.position⟩)
          ⟨lexeme.rest, here.position.afterAll lexeme.text⟩
termination_by source.rest.length
decreasing_by
  have h₁ := Source.skipLayout_length _hs
  have h₂ := Lexeme.ofChars_length _hl
  simp only [_hr, List.length_cons] at h₁
  omega

/-- The stream of a whole text. -/
def scan (text : String) : Except Error TokenStream := scanFrom #[] (.ofText text)

end TokenStream

end SqlDdl
