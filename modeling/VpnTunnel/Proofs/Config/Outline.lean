import VpnTunnel.Proofs.Config.TakingUp

/-!
# The outline of a configuration

A text is cut at its headers into sections. All that matters of a section is which values it gives
to each key, and in which order. Of a key that takes a list the values are joined; of any other key
the last value counts.

The outline of a text is what its sections say in this sense: the values of the interface and those
of each peer. A configuration, or what is missing for one, is a function of the outline.
-/

namespace VpnTunnel

/-- What is read from the last of some values, if there is one; nothing if it does not read. -/
def lastOf? {α : Type} (read? : List Char → Option α) (values : List (List Char)) :
    Option (Option α) :=
  match values.getLast? with
  | none => some none
  | some value => (read? value).map some

/-- The items of all values in their order, if every item reads. -/
def itemsOf? {α : Type} (read? : List Char → Option α) (values : List (List Char)) :
    Option (List α) :=
  (values.flatMap Text.commaItems).mapM read?

def numberOf? (values : List (List Char)) : Option UInt32 :=
  (lastOf? readWord32? values).map (·.getD 0)

def textOf (values : List (List Char)) : String := .ofList (values.getLast?.getD [])

def namesOf (values : List (List Char)) : Option NameSet := values.getLast?.map readNames

def InterfaceKey.obfuscating : List InterfaceKey :=
  [.jc, .jmin, .jmax, .s1, .s2, .h1, .h2, .h3, .h4, .i1]

abbrev InterfaceValues := InterfaceKey → List (List Char)

abbrev PeerValues := PeerKey → List (List Char)

namespace InterfaceValues

def parameters? (v : InterfaceValues) : Option Obfuscation := do
  return { jc := ← numberOf? (v .jc), jmin := ← numberOf? (v .jmin), jmax := ← numberOf? (v .jmax)
           s1 := ← numberOf? (v .s1), s2 := ← numberOf? (v .s2)
           h1 := textOf (v .h1), h2 := textOf (v .h2), h3 := textOf (v .h3), h4 := textOf (v .h4)
           i1 := textOf (v .i1) }

def Obfuscates (v : InterfaceValues) : Prop := ∃ k ∈ InterfaceKey.obfuscating, v k ≠ []

instance (v : InterfaceValues) : Decidable v.Obfuscates :=
  inferInstanceAs (Decidable (∃ k ∈ InterfaceKey.obfuscating, v k ≠ []))

def obfuscation? (v : InterfaceValues) : Option (Option Obfuscation) :=
  if v.Obfuscates then v.parameters?.map some else some none

def BindsTwice (v : InterfaceValues) : Prop :=
  v .includedApplications ≠ [] ∧ v .excludedApplications ≠ []

/-- The binding that the values ask for. They may not name applications of both kinds. -/
def apps? (v : InterfaceValues) : Option AppBinding :=
  match namesOf (v .includedApplications), namesOf (v .excludedApplications) with
  | some _, some _ => none
  | some names, none => some (.only names)
  | none, some names => some (.allBut names)
  | none, none => some .all

/-- The interface that the values stand for. There has to be a private key. -/
def interface? (v : InterfaceValues) : Option Interface := do
  let privateKey ← (← lastOf? (PrivateKey.ofChars · |>.toOption) (v .privateKey))
  return { privateKey
           addresses := ← itemsOf? Block.ofChars? (v .address)
           dns := ← itemsOf? Address.ofChars? (v .dns)
           mtu := (← lastOf? readWord16? (v .mtu)).getD defaultMtu
           obfuscation := ← v.obfuscation?
           apps := ← v.apps? }

/-- What is missing in the values of the interface. Application entries of both kinds are reported
before a missing private key. -/
inductive Lacks (v : InterfaceValues) : ConfigError → Prop
  | oneBinding (h : v.BindsTwice) : Lacks v (.parse 0 .appsExclusive)
  | privateKey (hbinding : ¬v.BindsTwice) (h : v .privateKey = []) : Lacks v .noPrivateKey

end InterfaceValues

/-- What a value says of the keepalive: how many seconds, or that there is none. -/
def readKeepalive? (value : List Char) : Option (Option UInt16) :=
  if value = PartialPeer.keepaliveOff then some none else (readWord16? value).map some

namespace PeerValues

def peer? (v : PeerValues) : Option Peer := do
  let publicKey ← (← lastOf? (PublicKey.ofChars · |>.toOption) (v .publicKey))
  let endpoint ← (← lastOf? Endpoint.ofChars? (v .endpoint))
  return { publicKey, endpoint
           allowedIps := ← itemsOf? Block.ofChars? (v .allowedIps)
           keepalive := (← lastOf? readKeepalive? (v .persistentKeepalive)).join }

inductive Lacks (v : PeerValues) : ConfigError → Prop
  | publicKey (h : v .publicKey = []) : Lacks v .noPeerKey
  | endpoint (hkey : v .publicKey ≠ []) (h : v .endpoint = []) : Lacks v .noEntry

end PeerValues

/-- What a text says of the interface, if it has a section for it, and of each peer. -/
structure Outline where
  interface : Option InterfaceValues
  peers : List PeerValues

namespace Outline

/-- The configuration that an outline stands for. -/
def config? (o : Outline) : Option Config := do
  return ⟨← (← o.interface).interface?, ← o.peers.mapM PeerValues.peer?⟩

/-- What is missing in an outline. Of several causes the first one is the error: the interface is
looked at before the peers, and the peers in their order. -/
inductive Lacks (o : Outline) : ConfigError → Prop
  | interface (h : o.interface = none) : Lacks o (.parse 0 .missingInterface)
  | ofInterface {v : InterfaceValues} {e : ConfigError} (h : o.interface = some v)
    (hv : v.Lacks e) : Lacks o e
  | ofPeer {v : InterfaceValues} {before after : List PeerValues} {p : PeerValues}
    {e : ConfigError} (h : o.interface = some v) (hv : ∀ e, ¬v.Lacks e)
    (hpeers : o.peers = before ++ p :: after) (hbefore : ∀ q ∈ before, ∀ e, ¬q.Lacks e)
    (hp : p.Lacks e) : Lacks o e

end Outline

/-- A section of a text: its header, and the lines below it up to the next header. -/
structure ConfigSection where
  header : List Char
  body : List ConfigLine

namespace ConfigLine

def isHeader : ConfigLine → Bool
  | header _ => true
  | _ => false

def aboveHeaders (ls : List ConfigLine) : List ConfigLine := ls.takeWhile (!·.isHeader)

/-- The sections of a text, cut at its headers. -/
def sections : List ConfigLine → List ConfigSection
  | [] => []
  | header text :: ls => ⟨text, aboveHeaders ls⟩ :: sections ls
  | _ :: ls => sections ls

/-- The values that the lines give to the key `k`, where `key?` says which key a word means. -/
def values {κ : Type} [DecidableEq κ] (key? : List Char → Option κ) (body : List ConfigLine)
    (k : κ) : List (List Char) :=
  body.filterMap fun
    | entry key value => if key? key = some k then some value else none
    | _ => none

end ConfigLine

namespace ConfigSection

def isInterface (s : ConfigSection) : Bool := Text.sameWord s.header interfaceHeader

def isPeer (s : ConfigSection) : Bool := Text.sameWord s.header peerHeader

def lines (s : ConfigSection) : List ConfigLine := .header s.header :: s.body

end ConfigSection

def Outline.ofSections (ss : List ConfigSection) : Outline where
  interface :=
    (ss.find? (·.isInterface)).map fun s => ConfigLine.values InterfaceKey.ofChars? s.body
  peers := (ss.filter (·.isPeer)).map fun s => ConfigLine.values PeerKey.ofChars? s.body

def Outline.ofLines (ls : List ConfigLine) : Outline := .ofSections (ConfigLine.sections ls)

/-- The key takes the value. Lists are read item by item; names and free texts are never refused. -/
def InterfaceKey.Reads (k : InterfaceKey) (value : List Char) : Prop :=
  match k with
  | privateKey => ∃ key, PrivateKey.ofChars value = .ok key
  | address => ∀ item ∈ Text.commaItems value, ∃ b, Block.ofChars? item = some b
  | dns => ∀ item ∈ Text.commaItems value, ∃ a, Address.ofChars? item = some a
  | mtu => ∃ n, readWord16? value = some n
  | jc | jmin | jmax | s1 | s2 => ∃ n, readWord32? value = some n
  | h1 | h2 | h3 | h4 | i1 | includedApplications | excludedApplications => True

def PeerKey.Reads (k : PeerKey) (value : List Char) : Prop :=
  match k with
  | publicKey => ∃ key, PublicKey.ofChars value = .ok key
  | endpoint => ∃ e, Endpoint.ofChars? value = some e
  | allowedIps => ∀ item ∈ Text.commaItems value, ∃ b, Block.ofChars? item = some b
  | persistentKeepalive => ∃ seconds, readKeepalive? value = some seconds

/-- The line may stand in a section whose keys are the words of `key?` and take the values of
`reads`: it is blank, or it gives a known key a value that the key takes. -/
def ConfigLine.Fits {κ : Type} (key? : List Char → Option κ) (reads : κ → List Char → Prop) :
    ConfigLine → Prop
  | blank => True
  | entry key value => value ≠ [] ∧ ∃ k, key? key = some k ∧ reads k value
  | header _ | stray => False

def ConfigSection.Fits (s : ConfigSection) : Prop :=
  (s.isInterface ∧ ∀ l ∈ s.body, l.Fits InterfaceKey.ofChars? InterfaceKey.Reads) ∨
    (s.isPeer ∧ ∀ l ∈ s.body, l.Fits PeerKey.ofChars? PeerKey.Reads)

/-- Every line of a text is acceptable where it stands: nothing is said above the first header, each
line fits its section, and no second section is about the interface. -/
@[mk_iff allFit_iff]
structure AllFit (ls : List ConfigLine) : Prop where
  above : ∀ l ∈ ConfigLine.aboveHeaders ls, l = .blank
  sections : ∀ s ∈ ConfigLine.sections ls, s.Fits
  single : (ConfigLine.sections ls).countP (·.isInterface) ≤ 1

end VpnTunnel
