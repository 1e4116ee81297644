import VpnTunnel.Config.Basic
import VpnTunnel.Config.Key

/-!
# Reading a configuration

A text is read line by line. Each line is classified by itself; the partial configuration of the
lines before then takes it up or refuses it, and the first refusal ends the reading. What the lines
have said is completed at the end.
-/

namespace VpnTunnel

/-- What a line is, by itself. -/
inductive ConfigLine where
  | blank
  | header (text : List Char)
  | entry (key value : List Char)
  | stray
deriving DecidableEq, Repr

/-- Drops the comment and the blanks around the rest, and splits an entry at its first equals
sign. -/
def ConfigLine.ofChars (raw : List Char) : ConfigLine :=
  match Text.trim (raw.takeWhile (· ≠ '#')) with
  | [] => blank
  | '[' :: r => header ('[' :: r)
  | s =>
    match Text.cut? '=' s with
    | some (key, value) => entry (Text.trim key) (Text.trim value)
    | none => stray

/-- Why a line is refused: a fault of the line, or a key that does not decode. -/
inductive LineError where
  | fault (f : ConfigFault)
  | key (cause : KeyError)
deriving DecidableEq, Repr

/-- The error of a line at its place in the text. A key that does not decode has no place. -/
def LineError.inLine (line : Nat) : LineError → ConfigError
  | fault f => .parse line f
  | key cause => .badKey cause

/-- What the interface section has said so far. -/
structure PartialInterface where
  privateKey : Option PrivateKey
  addresses : List Block
  dns : List Address
  mtu : Option UInt16
  obfuscation : Option Obfuscation
  included : Option NameSet
  excluded : Option NameSet
deriving DecidableEq

/-- What a peer section has said so far. -/
structure PartialPeer where
  publicKey : Option PublicKey
  endpoint : Option Endpoint
  allowedIps : List Block
  keepalive : Option UInt16
deriving DecidableEq

def PartialInterface.empty : PartialInterface := ⟨none, [], [], none, none, none, none⟩

def PartialPeer.empty : PartialPeer := ⟨none, none, [], none⟩

/-- The value that `read?` finds, or the fault of the entry that holds it. -/
def readValue {α : Type} (read? : List Char → Option α) (key value : List Char) :
    Except LineError α :=
  match read? value with
  | some a => .ok a
  | none => .error (.fault (.invalidValue (.ofList key) (.ofList value)))

/-- The items of a comma list, of which the first that does not read is at fault. -/
def readItems {α : Type} (read? : List Char → Option α) (key value : List Char) :
    Except LineError (List α) :=
  (Text.commaItems value).mapM (readValue read? key)

def readWord16? (s : List Char) : Option UInt16 := (Text.readUnsigned? (2 ^ 16) s).map UInt16.ofNat

def readWord32? (s : List Char) : Option UInt32 := (Text.readUnsigned? (2 ^ 32) s).map UInt32.ofNat

/-- The names in a comma list. -/
def readNames (value : List Char) : NameSet := .ofList ((Text.commaItems value).map String.ofList)

/-- A key in its decoded form, or its error. -/
def readKey {α : Type} (read : List Char → Except KeyError α) (value : List Char) :
    Except LineError α :=
  (read value).mapError .key

namespace PartialInterface

/-- The obfuscation parameters with one of them set by number. -/
def setNumber (d : PartialInterface) (key value : List Char)
    (set : Obfuscation → UInt32 → Obfuscation) : Except LineError PartialInterface := do
  let n ← readValue readWord32? key value
  return { d with obfuscation := some (set (d.obfuscation.getD .blank) n) }

/-- The obfuscation parameters with one of them set by text. -/
def setText (d : PartialInterface) (value : List Char) (set : Obfuscation → String → Obfuscation) :
    Except LineError PartialInterface :=
  .ok { d with obfuscation := some (set (d.obfuscation.getD .blank) (.ofList value)) }

/-- Takes up one entry. Lists of repeated keys are joined; of any other key the last value
counts. -/
def set (d : PartialInterface) (k : InterfaceKey) (key value : List Char) :
    Except LineError PartialInterface :=
  match k with
  | .privateKey => do return { d with privateKey := some (← readKey PrivateKey.ofChars value) }
  | .address => do
    return { d with addresses := d.addresses ++ (← readItems Block.ofChars? key value) }
  | .dns => do return { d with dns := d.dns ++ (← readItems Address.ofChars? key value) }
  | .mtu => do return { d with mtu := some (← readValue readWord16? key value) }
  | .jc => d.setNumber key value fun o n => { o with jc := n }
  | .jmin => d.setNumber key value fun o n => { o with jmin := n }
  | .jmax => d.setNumber key value fun o n => { o with jmax := n }
  | .s1 => d.setNumber key value fun o n => { o with s1 := n }
  | .s2 => d.setNumber key value fun o n => { o with s2 := n }
  | .h1 => d.setText value fun o t => { o with h1 := t }
  | .h2 => d.setText value fun o t => { o with h2 := t }
  | .h3 => d.setText value fun o t => { o with h3 := t }
  | .h4 => d.setText value fun o t => { o with h4 := t }
  | .i1 => d.setText value fun o t => { o with i1 := t }
  | .includedApplications => .ok { d with included := some (readNames value) }
  | .excludedApplications => .ok { d with excluded := some (readNames value) }

/-- The binding of the application entries, of which there may be one kind alone. -/
def apps (d : PartialInterface) : Except ConfigError AppBinding :=
  match d.included, d.excluded with
  | some _, some _ => .error (.parse 0 .appsExclusive)
  | some names, none => .ok (.only names)
  | none, some names => .ok (.allBut names)
  | none, none => .ok .all

def complete (d : PartialInterface) : Except ConfigError Interface := do
  let apps ← d.apps
  match d.privateKey with
  | none => .error .noPrivateKey
  | some privateKey =>
    return ⟨privateKey, d.addresses, d.dns, d.mtu.getD defaultMtu, d.obfuscation, apps⟩

end PartialInterface

namespace PartialPeer

/-- The word that stands for no keepalive. -/
def keepaliveOff : List Char := "off".toList

def set (d : PartialPeer) (k : PeerKey) (key value : List Char) : Except LineError PartialPeer :=
  match k with
  | .publicKey => do return { d with publicKey := some (← readKey PublicKey.ofChars value) }
  | .endpoint =>
    match Endpoint.ofChars? value with
    | some e => .ok { d with endpoint := some e }
    | none => .error (.fault (.invalidEndpoint (.ofList value)))
  | .allowedIps => do
    return { d with allowedIps := d.allowedIps ++ (← readItems Block.ofChars? key value) }
  | .persistentKeepalive =>
    if value = keepaliveOff then .ok { d with keepalive := none }
    else do return { d with keepalive := some (← readValue readWord16? key value) }

def complete (d : PartialPeer) : Except ConfigError Peer :=
  match d.publicKey, d.endpoint with
  | none, _ => .error .noPeerKey
  | some _, none => .error .noEntry
  | some publicKey, some endpoint => .ok ⟨publicKey, endpoint, d.allowedIps, d.keepalive⟩

end PartialPeer

/-- The section that entries belong to. -/
inductive SectionKind where
  | none
  | interface
  | peer
deriving DecidableEq, Repr

/-- What the lines so far have said. The peers are kept latest first. -/
structure PartialConfig where
  interface : Option PartialInterface
  peers : List PartialPeer
  current : SectionKind
deriving DecidableEq

namespace PartialConfig

def empty : PartialConfig := ⟨none, [], .none⟩

/-- Begins a section. There is one interface section at most. -/
def startSection (d : PartialConfig) (header : List Char) : Except LineError PartialConfig :=
  if Text.sameWord header interfaceHeader then
    match d.interface with
    | none => .ok { d with interface := some .empty, current := .interface }
    | some _ => .error (.fault .duplicateInterface)
  else if Text.sameWord header peerHeader then
    .ok { d with peers := .empty :: d.peers, current := .peer }
  else .error (.fault (.unknownSection (.ofList header)))

/-- Takes up an entry in the current section. -/
def addEntry (d : PartialConfig) (key value : List Char) : Except LineError PartialConfig :=
  match d.current, d.interface, d.peers with
  | .interface, some i, _ =>
    match InterfaceKey.ofChars? key with
    | some k => do return { d with interface := some (← i.set k key value) }
    | none => .error (.fault (.unknownInterfaceKey (.ofList key)))
  | .peer, _, p :: rest =>
    match PeerKey.ofChars? key with
    | some k => do return { d with peers := (← p.set k key value) :: rest }
    | none => .error (.fault (.unknownPeerKey (.ofList key)))
  | _, _, _ => .error (.fault .outsideSection)

/-- Takes up one line. -/
def addLine (d : PartialConfig) : ConfigLine → Except LineError PartialConfig
  | .blank => .ok d
  | .header text => d.startSection text
  | .stray => .error (.fault .noEquals)
  | .entry key value =>
    if value = [] then .error (.fault (.emptyValue (.ofList key))) else d.addEntry key value

/-- Takes up lines of which the first has the given number. -/
def addLines (d : PartialConfig) (line : Nat) : List (List Char) → Except ConfigError PartialConfig
  | [] => .ok d
  | raw :: rest =>
    match d.addLine (.ofChars raw) with
    | .ok d' => d'.addLines (line + 1) rest
    | .error e => .error (e.inLine line)

def complete (d : PartialConfig) : Except ConfigError Config :=
  match d.interface with
  | none => .error (.parse 0 .missingInterface)
  | some i => do
    let interface ← i.complete
    let peers ← d.peers.reverse.mapM PartialPeer.complete
    return ⟨interface, peers⟩

end PartialConfig

namespace Config

def ofChars (text : List Char) : Except ConfigError Config := do
  (← PartialConfig.empty.addLines 1 (text.splitOn '\n')).complete

/-- Reads the text of a configuration. -/
def parse (text : String) : Except ConfigError Config := ofChars text.toList

end Config

end VpnTunnel
