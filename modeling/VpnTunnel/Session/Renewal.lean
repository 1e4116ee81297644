import VpnTunnel.Session.Basic

/-!
# Renewing sessions

A renewal asks for a new session in place of the old one. Transient failures are followed by another
attempt after a wait that doubles, until the attempts are used up; any other answer ends the
renewal. The calls and the waits are part of the outcome.
-/

namespace VpnTunnel

/-- A length of time in nanoseconds, at most 2⁶⁴ seconds less one nanosecond. -/
structure Delay where
  nanoseconds : Nat
  le_longest : nanoseconds ≤ 2 ^ 64 * 10 ^ 9 - 1
deriving DecidableEq, Repr

namespace Delay

/-- The length closest to the given one. -/
def clamp (nanoseconds : Nat) : Delay :=
  ⟨min nanoseconds (2 ^ 64 * 10 ^ 9 - 1), Nat.min_le_right _ _⟩

def ofSeconds (n : Nat) : Delay := clamp (n * 10 ^ 9)

def ofMilliseconds (n : Nat) : Delay := clamp (n * 10 ^ 6)

def times (d : Delay) (k : Nat) : Delay := clamp (d.nanoseconds * k)

/-- The whole seconds. -/
def seconds (d : Delay) : Nat := d.nanoseconds / 10 ^ 9

/-- The nanoseconds beyond the whole seconds. -/
def subseconds (d : Delay) : Nat := d.nanoseconds % 10 ^ 9

end Delay

/-- How far a renewal has got, and how far it may go. -/
structure Backoff where
  /-- The attempts made so far. -/
  made : UInt32
  allowed : UInt32
  /-- The wait before the second attempt. -/
  firstWait : Delay
deriving DecidableEq, Repr

namespace Backoff

def default : Backoff := ⟨0, 3, .ofSeconds 1⟩

/-- Counts another attempt. After the greatest word the count begins again at zero. -/
def advance (r : Backoff) : Backoff := { r with made := r.made + 1 }

def hasMore (r : Backoff) : Bool := r.made < r.allowed

/-- The wait after the current attempt. It doubles with each attempt after the first, sixteen times
at most. -/
def wait (r : Backoff) : Delay := r.firstWait.times (2 ^ min (r.made.toNat - 1) 16)

theorem toNat_made_advance {r : Backoff} (h : r.made.toNat + 1 < 2 ^ 32) :
    r.advance.made.toNat = r.made.toNat + 1 :=
  (UInt32.toNat_add r.made 1).trans (Nat.mod_eq_of_lt h)

end Backoff

inductive RenewalFailure where
  | signedOut
  | tokenRejected
  | transient (reason : String)
  | gaveUp (attempts : UInt32)
deriving DecidableEq, Repr

def RenewalFailure.message : RenewalFailure → String
  | signedOut => "Not authenticated"
  | tokenRejected => "Refresh token invalid or revoked"
  | transient reason => "Transient error: " ++ reason
  | gaveUp attempts =>
    "Token refresh failed after " ++ toString attempts ++ " attempts"

/-- Answers the calls of a renewal, which are counted from zero, each for the session it is made
with. -/
abbrev Renewer := Nat → Session → Except RenewalFailure Session

inductive RenewalStep where
  | call (s : Session)
  | wait (d : Delay)
deriving DecidableEq

/-- What a renewal did, in order, and how it ended. -/
structure Renewal where
  steps : List RenewalStep
  result : Except RenewalFailure Session

namespace Session

/-- Renews the session, `call` being the number of the first call. -/
def renewFrom (renewer : Renewer) (s : Session) (call : Nat) (backoff : Backoff) : Renewal :=
  match renewer call s with
  | .ok fresh => ⟨[.call s], .ok fresh⟩
  | .error (.transient _) =>
    if hmore : backoff.advance.hasMore then
      let rest := renewFrom renewer s (call + 1) backoff.advance
      ⟨.call s :: .wait backoff.advance.wait :: rest.steps, rest.result⟩
    else ⟨[.call s], .error (.gaveUp backoff.advance.made)⟩
  | .error e => ⟨[.call s], .error e⟩
termination_by backoff.allowed.toNat - backoff.advance.made.toNat
decreasing_by
  -- the count does not begin again below the number of attempts allowed
  have h : backoff.advance.made < backoff.allowed := of_decide_eq_true hmore
  rw [UInt32.lt_iff_toNat_lt] at h
  have hallowed := backoff.allowed.toNat_lt
  have hnext := Backoff.toNat_made_advance (r := backoff.advance) (by omega)
  change backoff.allowed.toNat - backoff.advance.advance.made.toNat < _
  omega

def renew (renewer : Renewer) (s : Session) (backoff : Backoff) : Renewal :=
  renewFrom renewer s 0 backoff

/-- Renews only a session that has expired or is about to. -/
def renewIfDue (renewer : Renewer) (s : Session) (backoff : Backoff) (now : UInt64) : Renewal :=
  if s.isDueAt now then renew renewer s backoff else ⟨[], .ok s⟩

end Session

namespace Renewal

/-- The time that waiting takes, in nanoseconds. The clock wakes a sleeper after thirty years of 365
days at the latest. -/
def sleepTime (d : Delay) : Nat := min d.nanoseconds (30 * 365 * 86400 * 10 ^ 9)

/-- When each call was made, in nanoseconds after the first. -/
def callTimes (r : Renewal) : List Nat := go 0 r.steps
where
  go (now : Nat) : List RenewalStep → List Nat
    | [] => []
    | .call _ :: rest => now :: go now rest
    | .wait d :: rest => go (now + sleepTime d) rest

end Renewal

end VpnTunnel
