import VpnTunnel.Session.Renewal

/-!
# How a renewal goes

A renewal calls for an answer that settles it, as often as it may and at least once, and waits
between its calls, never less than before. The first answer that settles it is what it comes to;
where there is none, it gives up with the number of attempts made.
-/

namespace VpnTunnel

namespace Backoff

def calls (b : Backoff) : Nat := max 1 (b.allowed.toNat - b.made.toNat)

/-- The wait after a call of a renewal, the first call having the number zero. -/
def waitAfter (b : Backoff) (call : Nat) : Delay :=
  .clamp (b.firstWait.nanoseconds * 2 ^ min (b.made.toNat + call) 16)

/-- The steps of a renewal of one call more than it has waits: each wait stands between two
calls. -/
def steps (b : Backoff) (s : Session) (waits : Nat) : List RenewalStep :=
  (List.range waits).flatMap (fun call => [.call s, .wait (b.waitAfter call)]) ++ [.call s]

variable {b : Backoff} {s : Session}

end Backoff

namespace Session

/-- The answer ends a renewal. -/
def settles : Except RenewalFailure Session → Bool
  | .error (.transient _) => false
  | _ => true

variable {renewer : Renewer} {s : Session} {call : Nat} {b : Backoff}

theorem exists_transient_of_settles {x : Except RenewalFailure Session} (h : settles x = false) :
    ∃ reason, x = .error (.transient reason) := by
  cases x with
  | ok fresh => cases h
  | error e =>
    cases e with
    | transient reason => exact ⟨reason, rfl⟩
    | _ => cases h

theorem renewFrom_of_settles (h : settles (renewer call s) = true) :
    renewFrom renewer s call b = ⟨[.call s], renewer call s⟩ := by
  rw [renewFrom]
  cases hx : renewer call s with
  | ok fresh => rfl
  | error e =>
    cases e with
    | transient reason =>
      rw [hx] at h
      cases h
    | _ => rfl

end Session

end VpnTunnel
