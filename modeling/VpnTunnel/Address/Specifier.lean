import VpnTunnel.Address.Interval

/-!
# Address specifiers

What a user writes to name addresses: a bare IPv4 address or a block, blanks around it allowed. A
bare address stands for the block of itself alone, and the host bits of a block are cleared. A list
of specifiers is read permissively: what does not read is passed over.
-/

namespace VpnTunnel

namespace Specifier

/-- A bare address, or a block when there is a slash. The text has no blanks around it. -/
def readTrimmed? (s : List Char) : Option Ipv4Block :=
  if '/' ∈ s then (Ipv4Block.ofChars? s).map Ipv4Block.trunc
  else (Ipv4.ofChars? .host s).map Ipv4Block.single

def read? (spec : String) : Option Ipv4Block := readTrimmed? (Text.trim spec.toList)

/-- What a text that is no specifier is refused with. -/
def refusal (spec : String) : String :=
  "Invalid IPv4 address or CIDR: " ++ String.ofList (Text.trim spec.toList)

/-- The blocks that the readable specifiers name, each once, in the order of first mention. -/
def readAll (specs : List String) : List Ipv4Block := (specs.filterMap read?).eraseDups

end Specifier

/-- The IPv4 addresses that no readable specifier names. -/
def complement (specs : List String) : List Ipv4Block := complementBlocks (Specifier.readAll specs)

end VpnTunnel
