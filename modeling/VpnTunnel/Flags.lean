import VpnTunnel.Document.Json
import VpnTunnel.Document.Reader
import VpnTunnel.Text.NameSet

/-!
# Feature flags

Flags are named switches. One distribution of the program fetches them from a remote feed and keeps
the table fetched last; the other has none and never asks.
-/

namespace VpnTunnel

open Document

abbrev FlagTable := NameTable Bool

/-- A fetch that gave no table. -/
structure FetchFailure where
  reason : String
deriving DecidableEq, Repr

def FetchFailure.message (e : FetchFailure) : String := "Flag fetch failed: " ++ e.reason

/-- The flag that allows anonymous usage statistics. -/
def statisticsKey : String := "statistics_enabled"

/-- Reads an object of booleans. -/
def readFlagTable : Reader FlagTable
  | .obj members => do
    let entries ← members.mapM fun m => (readBool m.2).map fun b => (m.1, b)
    return .ofList entries
  | _ => none

def readFlagTable? (text : String) : Option FlagTable :=
  (Json.ofString? text).bind readFlagTable

/-- The answers of a remote feed to successive queries, counted from zero. -/
abbrev FlagFeed := Nat → Except FetchFailure FlagTable

/-- Flags from a remote feed. -/
structure RemoteFlags where
  feed : FlagFeed
  /-- How often the feed has been queried. -/
  queries : Nat
  active : FlagTable

namespace RemoteFlags

/-- Nothing is active before the first fetch. -/
def ofFeed (feed : FlagFeed) : RemoteFlags := ⟨feed, 0, .empty⟩

def flag? (f : RemoteFlags) (key : String) : Option Bool := f.active.find? key

/-- Queries the feed and makes its table the active one; tells whether that changed anything. A
failed query leaves the active table in place. -/
def fetch (f : RemoteFlags) : Except FetchFailure Bool × RemoteFlags :=
  match f.feed f.queries with
  | .ok table =>
    (.ok (table ≠ f.active), { f with queries := f.queries + 1, active := table })
  | .error e => (.error e, { f with queries := f.queries + 1 })

end RemoteFlags

/-- The flags of a running program. -/
inductive ProgramFlags where
  | remote (flags : RemoteFlags)
  | absent

namespace ProgramFlags

/-- Fetches, and tells whether a value has changed. -/
def fetch : ProgramFlags → Except FetchFailure Bool × ProgramFlags
  | remote f => (f.fetch.1, remote f.fetch.2)
  | absent => (.ok false, absent)

def allowsStatistics : ProgramFlags → Bool
  | remote f => (f.flag? statisticsKey).getD false
  | absent => false

/-- How often a feed has been queried. -/
def queries : ProgramFlags → Nat
  | remote f => f.queries
  | absent => 0

end ProgramFlags

/-- The distribution that a program was built for. -/
inductive Distribution where
  | store
  | foss
deriving DecidableEq, Repr

namespace Distribution

def all : List Distribution := [store, foss]

def name : Distribution → String
  | store => "store"
  | foss => "foss"

/-- The distribution of a name in any ASCII case. -/
def ofString? (s : String) : Option Distribution := all.find? (·.name == s.toLower)

/-- What a text that names no distribution is refused with. -/
def refusal (s : String) : String := "unknown build variant: " ++ s.toLower

/-- The flags of a program: remote ones in a store build that has a feed. -/
def flags : Distribution → Option FlagFeed → ProgramFlags
  | store, some feed => .remote (.ofFeed feed)
  | _, _ => .absent

end Distribution

end VpnTunnel
