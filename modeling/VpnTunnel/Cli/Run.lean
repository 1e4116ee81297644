import VpnTunnel.Cli.Command
import VpnTunnel.Config.Parse
import VpnTunnel.Config.Render
import VpnTunnel.Machine.DryRun
import VpnTunnel.Server.Document
import VpnTunnel.Settings.File

/-!
# Running commands

What each command prints, or why it fails. A failure names what was tried, and behind it the chain
of its causes. How a JSON or TOML text breaks the rules of its format is no cause that is told.
-/

namespace VpnTunnel.Cli

structure Failure where
  message : String
  causes : List String
deriving DecidableEq, Repr

/-- What a command has to work with. -/
structure Surroundings where
  files : FileReader
  /-- A private key that nobody else has, for whoever brings none. -/
  freshKey : PrivateKey

/-- How the program ends. -/
structure Report where
  exit : Nat
  stdout : String
  failure : Option Failure

/-- The session that the key of a command line is for. -/
def sessionName : String := "cli"

/-- The causes that a failed configuration adds to a chain. -/
def configCauses (e : ConfigError) : List String :=
  e.message :: match e with
    | .badKey cause => [cause.message]
    | _ => []

def tunnelCauses (e : CallFailure) : List String :=
  e.message :: match e with
    | .config e => configCauses e
    | .engine e => [e.message]

def readSettings (env : Surroundings) : Option String → Except Failure Settings
  | none => .ok .default
  | some path => (Settings.load env.files path).mapError fun e =>
      ⟨"Failed to load settings from " ++ path, e.message?.toList⟩

def readText (env : Surroundings) (path : String) : Except Failure String :=
  (env.files.text path).mapError fun e => ⟨"Failed to read " ++ path, [e.message]⟩

def readServer (env : Surroundings) (path : String) : Except Failure Server := do
  match Server.ofJson? (← readText env path) with
  | some server => return server
  | none => .error ⟨"Invalid server JSON in " ++ path, []⟩

/-- The flag table in a file, as a feed that always answers with it. -/
def readFlagFeed (env : Surroundings) : Option String → Except Failure (Option FlagFeed)
  | none => .ok none
  | some path => do
    match readFlagTable? (← readText env path) with
    | some table => return some fun _ => .ok table
    | none => .error ⟨"Invalid flag table in " ++ path, []⟩

namespace Target

def exit (t : Target) (server : Server) : Except Failure Exit :=
  match t.domain with
  | some id =>
    match server.node? id with
    | some node => .ok ⟨server, node⟩
    | none => .error ⟨"Server " ++ server.name ++ " has no domain " ++ id, []⟩
  | none =>
    match Exit.best? server with
    | some exit => .ok exit
    | none => .error ⟨"Server has no online domains", []⟩

def attempt (t : Target) (env : Surroundings) (settings : Settings) : Except Failure Attempt := do
  let exit ← t.exit (← readServer env t.server)
  let intent := if t.bootstrap then .bootstrap else .server exit.server.id
  let a := Attempt.ofSettings intent exit t.port sessionName settings
  let a := match t.entry with
    | some ip => a.enteringAt ip
    | none => a
  return match t.transport with
    | some transport => a.carriedBy transport
    | none => a

/-- The keys of a command line: the one it gives, or a fresh one. -/
def keys (t : Target) (env : Surroundings) : Except Failure KeyRing := do
  let key ← match t.privateKey with
    | some text => (PrivateKey.ofString text).mapError fun e =>
        ⟨"Invalid --private-key", [e.message]⟩
    | none => .ok env.freshKey
  return KeyRing.empty.insert sessionName key

def client (t : Target) : Client := { Client.standard with mtu := t.mtu }

/-- The configuration of the tunnel to the target. -/
def config (t : Target) (env : Surroundings) (settings : Settings) : Except Failure Config := do
  let attempt ← t.attempt env settings
  let keys ← t.keys env
  (t.client.configFor attempt settings keys.keySource).mapError fun e =>
    ⟨"Unable to build tunnel config", configCauses e⟩

/-- What the machine of a dry run to the target is made with, and the dry run at its start. -/
def dryRun (t : Target) (env : Surroundings) (settings : Settings) :
    Except Failure (Setup × DryRun) := do
  let attempt ← t.attempt env settings
  let keys ← t.keys env
  let setup : Setup := ⟨defaultTunnel, t.client, keys.keySource⟩
  return (setup, .start setup settings attempt)

end Target

def lines (ls : List String) : String := String.join (ls.map (· ++ "\n"))

def keygen (env : Surroundings) : String :=
  lines ["private: " ++ env.freshKey.toString, "public:  " ++ env.freshKey.publicKey.toString]

def render (env : Surroundings) (settings : Settings) (t : Target) : Except Failure String :=
  return (← t.config env settings).render

def dryRunFailure : DryRunFailure → Failure
  | .connect e => ⟨"Connect failed", tunnelCauses e⟩
  | .timedOut => ⟨"Timed out waiting for the tunnel", ["deadline has elapsed"]⟩
  | .disconnect e => ⟨"Disconnect failed", tunnelCauses e⟩
  | .notConnected s => ⟨"tunnel did not connect: " ++ s.toString, []⟩

/-- What a dry run prints, and whether it fails after that. -/
def dryRunOutcome (d : DryRun) : String × Option Failure :=
  (lines (d.reports.map fun s => "state: " ++ s.toString), d.failure?.map dryRunFailure)

def connect (env : Surroundings) (settings : Settings) (t : Target) :
    Except Failure (String × Option Failure) := do
  let (setup, d) ← t.dryRun env settings
  return dryRunOutcome (.runWithin setup DryRun.stepBound d)

def yesNo (b : Bool) : String := if b then "yes" else "no"

def summary (c : Config) : String :=
  lines <|
    ["public key: " ++ c.interface.privateKey.publicKey.toString,
      "mtu: " ++ toString c.interface.mtu.toNat,
      "obfuscation: " ++ yesNo c.interface.obfuscation.isSome] ++
    c.peers.map fun p =>
      "peer " ++ p.publicKey.toString ++ " at " ++ p.endpoint.toString ++ " (" ++
        toString p.allowedIps.length ++ " allowed IPs)"

def check (env : Surroundings) (path : String) : Except Failure String := do
  match Config.parse (← readText env path) with
  | .ok config => return summary config
  | .error e => .error ⟨"Invalid tunnel config", configCauses e⟩

/-- What an invocation prints, and whether it fails after that. The settings are loaded whatever the
command is. -/
def perform (env : Surroundings) (i : Invocation) : Except Failure (String × Option Failure) := do
  let settings ← readSettings env i.config
  match i.command with
  | .keygen => return (keygen env, none)
  | .render t => return (← render env settings t, none)
  | .connect t =>
    -- The flags decide nothing that is printed, but their file has to be in order.
    let _ ← readFlagFeed env i.flags
    connect env settings t
  | .complement specs =>
    return (lines ((VpnTunnel.complement specs).map Ipv4Block.toString), none)
  | .check file => return (← check env file, none)

def versionText : String := "veil 0.1.0\n"

def usageText : String :=
  "Usage: veil [OPTIONS] <keygen|render|connect|complement|check> [ARGUMENTS]\n"

/-- Runs the program with the given arguments. -/
def run (env : Surroundings) (args : List String) : Report :=
  match Wish.ofArguments args with
  | .version => ⟨0, versionText, none⟩
  | .help => ⟨0, usageText, none⟩
  | .mistake => ⟨2, "", none⟩
  | .run i =>
    match perform env i with
    | .ok (stdout, none) => ⟨0, stdout, none⟩
    | .ok (stdout, some failure) => ⟨1, stdout, some failure⟩
    | .error failure => ⟨1, "", some failure⟩

/-- The files that a run may read. -/
def filesOf (args : List String) : List String :=
  match Wish.ofArguments args with
  | .run i =>
    let named := match i.command with
      | .render t => [t.server]
      | .connect t => [t.server]
      | .check file => [file]
      | _ => []
    i.config.toList ++ i.flags.toList ++ named
  | _ => []

end VpnTunnel.Cli
