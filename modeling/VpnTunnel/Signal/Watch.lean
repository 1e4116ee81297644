/-!
# Watched values

A value with one owner, who changes it, and any number of readers, who learn that it has changed. An
edit that leaves the value as it was is no change.
-/

namespace VpnTunnel

structure Watch (α : Type) where
  value : α
  /-- How often the value has changed. -/
  version : Nat
  /-- The version that each reader has seen last. -/
  seen : List Nat

namespace Watch

variable {α : Type}

def ofValue (a : α) : Watch α := ⟨a, 0, []⟩

/-- The number of the next reader. -/
def nextReader (w : Watch α) : Nat := w.seen.length

/-- Adds a reader, who has seen the value as it is now. -/
def subscribe (w : Watch α) : Watch α := { w with seen := w.seen ++ [w.version] }

/-- Replaces the value. -/
def update [DecidableEq α] (w : Watch α) (a : α) : Watch α :=
  if a = w.value then w else { w with value := a, version := w.version + 1 }

/-- Whether the value has changed since a reader saw it last. -/
def hasChanged (w : Watch α) (reader : Nat) : Bool := w.seen[reader]? != some w.version

/-- Marks the value as seen by a reader. -/
def markSeen (w : Watch α) (reader : Nat) : Watch α :=
  { w with seen := w.seen.set reader w.version }

end Watch

end VpnTunnel
