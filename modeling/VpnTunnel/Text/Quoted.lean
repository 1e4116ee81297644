import VpnTunnel.Text.Printable

/-!
# Quoted texts

The form in which a text is shown to a developer: between double quotes, with short escapes for
the common control characters and braced hexadecimal code points for the rest of what would not
show.
-/

namespace VpnTunnel.Text

/-- How one character shows between double quotes. -/
def escapeQuoted (c : Char) : List Char :=
  match c with
  | '"' => ['\\', '"']
  | '\\' => ['\\', '\\']
  | '\n' => ['\\', 'n']
  | '\r' => ['\\', 'r']
  | '\t' => ['\\', 't']
  | '\x00' => ['\\', '0']
  | c =>
    if isPrintable c then [c]
    else ['\\', 'u', '\x7b'] ++ Nat.toDigits 16 c.toNat ++ ['\x7d']

/-- The text between double quotes, escaped. -/
def quoted (s : String) : String :=
  String.ofList ('"' :: s.toList.flatMap escapeQuoted ++ ['"'])

end VpnTunnel.Text
