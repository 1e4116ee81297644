import VpnTunnel.Address.Block
import VpnTunnel.Text.Cut

/-!
# Endpoints

An address with a port. An IPv6 address stands in square brackets, inside which a numeric scope may
follow it; the scope is read and forgotten.
-/

namespace VpnTunnel

structure Endpoint where
  address : Address
  port : UInt16
deriving DecidableEq, Repr

namespace Endpoint

def toChars (e : Endpoint) : List Char :=
  match e.address with
  | .v4 a => a.toChars ++ ':' :: Text.digits e.port.toNat
  | .v6 a => '[' :: a.toChars ++ ']' :: ':' :: Text.digits e.port.toNat

def toString (e : Endpoint) : String := String.ofList e.toChars

def readPort? (s : List Char) : Option UInt16 := (Text.readBelow? (2 ^ 16) s).map UInt16.ofNat

/-- An IPv6 address and, after a percent sign, a scope below `2 ^ 32`. -/
def scoped? (s : List Char) : Option Ipv6 :=
  match Text.cut? '%' s with
  | none => Ipv6.ofChars? .host s
  | some (addr, scope) => do
    let _ ← Text.readBelow? (2 ^ 32) scope
    Ipv6.ofChars? .host addr

def ofCharsV4? (s : List Char) : Option Endpoint := do
  let (addr, port) ← Text.cut? ':' s
  return ⟨.v4 (← Ipv4.ofChars? .host addr), ← readPort? port⟩

def ofCharsV6? : List Char → Option Endpoint
  | '[' :: s => do
    match ← Text.cut? ']' s with
    | (addr, ':' :: port) => return ⟨.v6 (← scoped? addr), ← readPort? port⟩
    | _ => none
  | _ => none

/-- Reads the text exactly as it stands. -/
def ofExactChars? (s : List Char) : Option Endpoint := ofCharsV4? s <|> ofCharsV6? s

/-- Reads the text without the blanks around it. -/
def ofChars? (s : List Char) : Option Endpoint := ofExactChars? (Text.trim s)

/-- What a text that is no endpoint is refused with. The text is quoted with its blanks. -/
def refusal (s : String) : String := "invalid endpoint: " ++ s

end Endpoint

end VpnTunnel
