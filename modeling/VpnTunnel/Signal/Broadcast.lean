/-!
# Broadcast channels

A channel sends each item to all its receivers. It keeps the items sent last, as many as its
capacity; a receiver that falls behind them is told how many it has missed and goes on with the
oldest kept one. A channel that nobody listens to forgets what is sent.
-/

namespace VpnTunnel

structure Broadcast (α : Type) where
  capacity : Nat
  /-- All items that were sent while someone listened, in order. -/
  sent : List α
  /-- How many of the items each receiver has behind it; none for a receiver that has left. -/
  receivers : List (Option Nat)
  closed : Bool
deriving DecidableEq

/-- What a receiver gets. -/
inductive Delivery (α : Type) where
  | item (x : α)
  /-- So many items were missed. -/
  | lagged (missed : Nat)
  /-- The channel is closed and nothing is left. -/
  | closed
deriving DecidableEq, Repr

namespace Broadcast

variable {α : Type}

/-- A channel that keeps as many items as the least power of two not below `n`. -/
def ofCapacity (n : Nat) : Broadcast α := ⟨n.nextPowerOfTwo, [], [], false⟩

def listenerCount (b : Broadcast α) : Nat := b.receivers.countP Option.isSome

/-- The number of the next receiver. -/
def nextReceiver (b : Broadcast α) : Nat := b.receivers.length

/-- Adds a receiver, for which only later items are meant. -/
def subscribe (b : Broadcast α) : Broadcast α :=
  { b with receivers := b.receivers ++ [some b.sent.length] }

/-- Removes a receiver. -/
def leave (b : Broadcast α) (r : Nat) : Broadcast α :=
  { b with receivers := b.receivers.set r none }

def close (b : Broadcast α) : Broadcast α := { b with closed := true }

/-- How many receivers an item sent now would reach. -/
def audience (b : Broadcast α) : Nat := if b.closed then 0 else b.listenerCount

def send (b : Broadcast α) (x : α) : Broadcast α :=
  if b.audience = 0 then b else { b with sent := b.sent ++ [x] }

/-- The number of items no longer kept. -/
def dropped (b : Broadcast α) : Nat := b.sent.length - b.capacity

/-- What a receiver that has `position` items behind it gets next, if anything, and its position
after that. -/
def deliveryAt? (b : Broadcast α) (position : Nat) : Option (Delivery α × Nat) :=
  if position < b.dropped then some (.lagged (b.dropped - position), b.dropped)
  else match b.sent[position]? with
    | some x => some (.item x, position + 1)
    | none => if b.closed then some (.closed, position) else none

/-- What a receiver gets now, if anything, and the channel after that. -/
def receive? (b : Broadcast α) (r : Nat) : Option (Delivery α × Broadcast α) :=
  match b.receivers[r]? with
  | some (some position) => (b.deliveryAt? position).map fun d =>
      (d.1, { b with receivers := b.receivers.set r (some d.2) })
  | _ => none

end Broadcast

end VpnTunnel
