/-!
# Obfuscation profiles

A profile disguises the handshake of a tunnel: junk packets before it, junk added to its first two
messages, four magic headers, and a special packet sent ahead of all. A profile is a value; editing
one makes another.
-/

namespace VpnTunnel

/-- The parameters that go into a tunnel's interface. -/
structure Obfuscation where
  jc : UInt32
  jmin : UInt32
  jmax : UInt32
  s1 : UInt32
  s2 : UInt32
  h1 : String
  h2 : String
  h3 : String
  h4 : String
  i1 : String
deriving DecidableEq, Repr

/-- All parameters at zero or empty, from which an interface that names some of them starts. -/
def Obfuscation.blank : Obfuscation := ⟨0, 0, 0, 0, 0, "", "", "", "", ""⟩

/-- Parameters under an identity of their own. -/
structure Profile where
  id : UInt32
  name : String
  readOnly : Bool
  params : Obfuscation
deriving DecidableEq, Repr

/-- A profile whose least junk size is above its greatest. -/
structure InvertedJunkSizes where
  jmin : UInt32
  jmax : UInt32
deriving DecidableEq, Repr

def InvertedJunkSizes.message (e : InvertedJunkSizes) : String :=
  "Junk packet minimum size " ++ toString e.jmin.toNat ++ " exceeds maximum " ++
    toString e.jmax.toNat

namespace Profile

def builtInName : String := "Standard"

/-- The id of the built-in profile. -/
def builtInId : UInt32 := 0

/-- The special packet of the built-in profile, shaped like the first packet of a QUIC handshake. -/
def builtInI1 : String :=
  "<b 0xc70000000108ce1bfc1a4a8a1e6600004480a4a8d2cf3b6d2ad1a2c0f7f15a97e8c52fc3e2a3b1f" ++
  "6de0f1d0a2c6c1e3f8b9d4a7e2c5108ea37b06df42c1e99a3d5f0b6c7e8d9fa0b1c2d3e4f5061728394a" ++
  "5b6c7d8e9fa0b1c2d3e4f50617283940a1b2c3d4e5f60718293a4b5c6d7e8f90a1b2c3d4e5f607182930" ++
  "4f3e2d1c0b9a8f7e6d5c4b3a29180706f5e4d3c2b1a09f8e7d6c5b4a3928170605f4e3d2c1b0a9988776" ++
  "6554433221100ffeeddccbbaa>"

/-- The parameters of the built-in profile. -/
def builtInParams : Obfuscation := ⟨3, 1, 3, 0, 0, "1", "2", "3", "4", builtInI1⟩

/-- Where an edited profile starts: the built-in parameters, open to change. -/
def editable (id : UInt32) (name : String) : Profile := ⟨id, name, false, builtInParams⟩

/-- The built-in profile under the given name. -/
def builtInAs (name : String) : Profile := ⟨builtInId, name, true, builtInParams⟩

/-- The profile in force where none is chosen. -/
def builtIn : Profile := builtInAs builtInName

/-- The profile that an edit makes: the same parameters under a new identity. -/
def edited (p : Profile) (id : UInt32) (name : String) : Profile := ⟨id, name, false, p.params⟩

def check (p : Profile) : Except InvertedJunkSizes Unit :=
  if p.params.jmax < p.params.jmin then .error ⟨p.params.jmin, p.params.jmax⟩ else .ok ()

end Profile

end VpnTunnel
