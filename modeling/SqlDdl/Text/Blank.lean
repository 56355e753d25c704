/-!
# White space

The Unicode property `White_Space`: the characters that may stand between two
tokens and carry no meaning. Zero-width characters are not among them.
-/

namespace SqlDdl.Text

/-- Whether a character is white space. -/
def isBlank (c : Char) : Bool :=
  let n := c.toNat
  n == 0x20 || (0x9 ≤ n && n ≤ 0xD) ||
    (0x7F < n &&
      (n == 0x85 || n == 0xA0 || n == 0x1680 || (0x2000 ≤ n && n ≤ 0x200A) ||
        n == 0x2028 || n == 0x2029 || n == 0x202F || n == 0x205F || n == 0x3000))

end SqlDdl.Text
