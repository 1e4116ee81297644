/-!
# Blanks

The characters with the Unicode property `White_Space`, and removing them from both ends of a
text. Texts that are taken apart are handled as lists of characters throughout.
-/

namespace VpnTunnel.Text

/-- The property `White_Space`. It holds of the six ASCII blanks, of NEL, of the no-break space and
of the typographic spaces; zero-width spaces and the byte order mark do not have it. -/
def isBlank (c : Char) : Bool :=
  let n := c.toNat
  (9 ≤ n && n ≤ 13) || n == 0x20 || n == 0x85 || n == 0xA0 || n == 0x1680 ||
    (0x2000 ≤ n && n ≤ 0x200A) || n == 0x2028 || n == 0x2029 || n == 0x202F ||
    n == 0x205F || n == 0x3000

def trimStart (s : List Char) : List Char := s.dropWhile isBlank

def trimEnd (s : List Char) : List Char := (s.reverse.dropWhile isBlank).reverse

/-- The text without the blanks at its two ends. -/
def trim (s : List Char) : List Char := trimEnd (trimStart s)

@[simp] theorem trim_nil : trim [] = [] := rfl

end VpnTunnel.Text
