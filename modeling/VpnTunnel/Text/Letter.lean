/-!
# Letter case

Comparison of short words without regard to case: ASCII folding, and the upper-case mapping of
Unicode as far as it lands on ASCII letters.
-/

namespace VpnTunnel.Text

/-- Every ASCII capital as its small letter, every other character as it stands. -/
def foldAscii (s : List Char) : List Char := s.map Char.toLower

/-- Equality up to the case of ASCII letters. -/
def sameWord (s t : List Char) : Bool := foldAscii s == foldAscii t

/-- The full upper-case mapping of one character where it consists of ASCII letters. Besides the
small ASCII letters these are dotless i, long s, sharp s and the Latin ligatures. -/
def upperAscii? (c : Char) : Option (List Char) :=
  if c.toNat < 128 then some [c.toUpper]
  else match c.toNat with
    | 0x0131 => some ['I']
    | 0x017F => some ['S']
    | 0x00DF => some ['S', 'S']
    | 0xFB00 => some ['F', 'F']
    | 0xFB01 => some ['F', 'I']
    | 0xFB02 => some ['F', 'L']
    | 0xFB03 => some ['F', 'F', 'I']
    | 0xFB04 => some ['F', 'F', 'L']
    | 0xFB05 => some ['S', 'T']
    | 0xFB06 => some ['S', 'T']
    | _ => none

/-- Whether the upper-case form of `s` is the ASCII word `word`. A character whose upper-case form
leaves ASCII makes the answer no. -/
def uppersTo (s : List Char) (word : String) : Bool :=
  (s.mapM upperAscii?).map List.flatten == some word.toList

end VpnTunnel.Text
