import VpnTunnel.Client
import VpnTunnel.Cli.Arguments
import VpnTunnel.Flags

/-!
# Commands

The commands of the program, and the options that each has. Some options may stand before the name
of the command as well as behind it; what stands behind it counts.
-/

namespace VpnTunnel.Cli

/-- The server to connect to, and how. -/
structure Target where
  /-- The file that describes the server. -/
  server : String
  domain : Option String
  port : UInt16
  entry : Option Address
  transport : Option Transport
  privateKey : Option String
  mtu : UInt16
  bootstrap : Bool

inductive Command where
  | keygen
  | render (t : Target)
  | connect (t : Target)
  | complement (specs : List String)
  | check (file : String)

structure Invocation where
  /-- The settings file. -/
  config : Option String
  distribution : Distribution
  /-- The file of the flag table. -/
  flags : Option String
  command : Command

/-- What a command line asks for. -/
inductive Wish where
  | run (i : Invocation)
  | version
  | help
  | mistake

def defaultPort : UInt16 := 51820

/-- A whole number from `lo` to `hi`, of either sign, as far as that is within the range. -/
def readRanged? (lo hi : Nat) (s : String) : Option Nat :=
  let n := match s.toList with
    | '-' :: ds => (Text.readDigits? ds).filter (· = 0)
    | s => Text.readUnsigned? (hi + 1) s
  n.filter (lo ≤ ·)

def readPort? (s : String) : Option UInt16 := (readRanged? 0 65535 s).map UInt16.ofNat

def readMtu? (s : String) : Option UInt16 := (readRanged? 576 1500 s).map UInt16.ofNat

def isPath (s : String) : Bool := s ≠ ""

def anyText (_ : String) : Bool := true

def helpOption : OptionSpec := ⟨"help", some 'h', .help⟩

/-- The options that may stand anywhere. -/
def globalOptions : List OptionSpec := [
  ⟨"config", some 'c', .value isPath⟩,
  ⟨"log-level", none, .value anyText⟩,
  ⟨"variant", none, .value fun s => (Distribution.ofString? s).isSome⟩,
  ⟨"flags", none, .value isPath⟩,
  helpOption]

def topOptions : List OptionSpec := globalOptions ++ [⟨"version", some 'V', .version⟩]

def targetOptions : List OptionSpec := globalOptions ++ [
  ⟨"server", some 's', .value isPath⟩,
  ⟨"domain", none, .value anyText⟩,
  ⟨"port", some 'p', .value fun s => (readPort? s).isSome⟩,
  ⟨"entry-ip", none, .value fun s => (Address.ofString? s).isSome⟩,
  ⟨"protocol", none, .value fun s => (Transport.ofString? s).isSome⟩,
  ⟨"private-key", none, .value anyText⟩,
  ⟨"mtu", none, .value fun s => (readMtu? s).isSome⟩,
  ⟨"guest-hole", none, .switch⟩]

/-- The target that options describe. The server has no default. -/
def Target.ofGiven? (given : Given) : Option Target := do
  let server ← given.lookup "server"
  return {
    server
    domain := given.lookup "domain"
    port := ((given.lookup "port").bind readPort?).getD defaultPort
    entry := (given.lookup "entry-ip").bind Address.ofString?
    transport := (given.lookup "protocol").bind Transport.ofString?
    privateKey := given.lookup "private-key"
    mtu := ((given.lookup "mtu").bind readMtu?).getD defaultMtu
    bootstrap := (given.lookup "guest-hole").isSome }

/-- What may stand behind the name of a command. -/
structure CommandSpec where
  options : List OptionSpec
  /-- Whether a word may stand at a position among the words. -/
  accepts : Nat → String → Bool

def noWords (_ : Nat) (_ : String) : Bool := false

def anyWords (_ : Nat) (_ : String) : Bool := true

def onePath (position : Nat) (word : String) : Bool := position == 0 && isPath word

def commandSpec? : String → Option CommandSpec
  | "keygen" => some ⟨globalOptions, noWords⟩
  | "render" => some ⟨targetOptions, noWords⟩
  | "connect" => some ⟨targetOptions, noWords⟩
  | "complement" => some ⟨globalOptions, anyWords⟩
  | "check" => some ⟨globalOptions, onePath⟩
  | _ => none

/-- The command that a name, options and words make. -/
def Command.ofParts? (name : String) (given : Given) (words : List String) : Option Command :=
  match name, words with
  | "keygen", [] => some .keygen
  | "render", [] => (Target.ofGiven? given).map .render
  | "connect", [] => (Target.ofGiven? given).map .connect
  | "complement", _ :: _ => some (.complement words)
  | "check", [file] => if isPath file then some (.check file) else none
  | _, _ => none

/-- The invocation that the options before and behind a command's name make. -/
def Invocation.ofParts (before behind : Given) (command : Command) : Invocation :=
  let option (name : String) := behind.lookup name <|> before.lookup name
  { config := option "config"
    distribution := ((option "variant").bind Distribution.ofString?).getD .foss
    flags := option "flags"
    command }

/-- Whether the usage can be asked for with these words: of all commands, or of one. -/
def isHelpTopic : List String → Bool
  | [] => true
  | [name] => name = "help" || (commandSpec? name).isSome
  | _ => false

def Wish.ofArguments (args : List String) : Wish :=
  match readArguments topOptions .command [] [] args with
  | .done _ _ => .mistake
  | .help => .help
  | .version => .version
  | .mistake => .mistake
  | .command before name rest =>
    match commandSpec? name with
    | none => if name = "help" ∧ isHelpTopic rest then .help else .mistake
    | some spec =>
      match readArguments spec.options (.items spec.accepts) [] [] rest with
      | .help => .help
      | .version => .version
      | .done behind words =>
        match Command.ofParts? name behind words with
        | some command => .run (.ofParts before behind command)
        | none => .mistake
      | .command _ _ _ => .mistake
      | .mistake => .mistake

end VpnTunnel.Cli
