import VpnTunnel.Text.Blank

/-!
# Cutting and joining

Splitting a text at its first separator, and lists written with commas.
-/

namespace VpnTunnel.Text

/-- The text before the first occurrence of a character, and the text after it. -/
def cut? (sep : Char) : List Char → Option (List Char × List Char)
  | [] => none
  | c :: r => if c = sep then some ([], r) else (cut? sep r).map fun p => (c :: p.1, p.2)

/-- Items with a comma and a space between them. -/
def commaJoin (items : List (List Char)) : List Char := [',', ' '].intercalate items

/-- The items between commas, without the blanks around them and without the empty ones. -/
def commaItems (s : List Char) : List (List Char) :=
  ((s.splitOn ',').map trim).filter (· ≠ [])

end VpnTunnel.Text
