import VpnTunnel.Key.Base64
import VpnTunnel.Key.Curve25519
import VpnTunnel.Text.Blank

/-!
# Keys

The 32-byte keys of the two sides of a tunnel, their base64 texts, and where the private key of a
session comes from. A private key never shows in a text meant for developers.
-/

namespace VpnTunnel

inductive KeyError where
  | notBase64
  | wrongLength
  | unknownSession (session : String)
deriving DecidableEq, Repr

def KeyError.message : KeyError → String
  | notBase64 => "Invalid base64 encoding"
  | wrongLength => "Invalid key length (expected 32 bytes)"
  | unknownSession session => "No key material for session " ++ session

/-- The bytes of a key from its base64 text, blanks around it allowed. -/
def readKeyBytes (s : List Char) : Except KeyError { bytes : List UInt8 // bytes.length = 32 } :=
  match Base64.decode? (Text.trim s) with
  | none => .error .notBase64
  | some bytes => if h : bytes.length = 32 then .ok ⟨bytes, h⟩ else .error .wrongLength

structure PublicKey where
  bytes : List UInt8
  length_eq : bytes.length = 32
deriving DecidableEq, Repr

namespace PublicKey

def toChars (k : PublicKey) : List Char := Base64.encode k.bytes

def toString (k : PublicKey) : String := String.ofList k.toChars

def ofChars (s : List Char) : Except KeyError PublicKey :=
  (readKeyBytes s).map fun b => ⟨b.val, b.property⟩

/-- The first characters of the text, for developers. -/
def brief (k : PublicKey) : String := "PublicKey(" ++ String.ofList (k.toChars.take 8) ++ "...)"

end PublicKey

/-- A private key, as the bytes it was given with. -/
structure PrivateKey where
  bytes : List UInt8
  length_eq : bytes.length = 32
deriving DecidableEq, Repr

namespace PrivateKey

def toChars (k : PrivateKey) : List Char := Base64.encode k.bytes

def toString (k : PrivateKey) : String := String.ofList k.toChars

def ofChars (s : List Char) : Except KeyError PrivateKey :=
  (readKeyBytes s).map fun b => ⟨b.val, b.property⟩

def ofString (s : String) : Except KeyError PrivateKey := ofChars s.toList

def publicKey (k : PrivateKey) : PublicKey :=
  ⟨Curve25519.publicBytes k.bytes, Curve25519.length_toBytes _ _⟩

/-- Shows nothing of the key. -/
def brief (_ : PrivateKey) : String := "PrivateKey([redacted])"

end PrivateKey

/-- A private key with the public key that belongs to it. -/
structure KeyPair where
  secret : PrivateKey
  shared : PublicKey

namespace KeyPair

def ofPrivate (k : PrivateKey) : KeyPair := ⟨k, k.publicKey⟩

/-- Shows the public half alone. -/
def brief (pair : KeyPair) : String := "KeyPair \x7b public: " ++ pair.shared.brief ++ " \x7d"

end KeyPair

/-- Supplies the private key of a session. -/
abbrev KeySource := String → Except KeyError PrivateKey

/-- Private keys by session; the entry added last counts. -/
structure KeyRing where
  entries : List (String × PrivateKey)

namespace KeyRing

def empty : KeyRing := ⟨[]⟩

def insert (ring : KeyRing) (session : String) (key : PrivateKey) : KeyRing :=
  ⟨(session, key) :: ring.entries⟩

def keySource (ring : KeyRing) : KeySource := fun session =>
  match ring.entries.lookup session with
  | some key => .ok key
  | none => .error (.unknownSession session)

end KeyRing

end VpnTunnel
