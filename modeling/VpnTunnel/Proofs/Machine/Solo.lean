import Mathlib.Data.List.Basic
import VpnTunnel.Proofs.Machine.Authorship
import VpnTunnel.Proofs.Machine.Hearing
import VpnTunnel.Proofs.Machine.Returning
import VpnTunnel.Proofs.Machine.Rounds

/-!
# A call to connect on its own

While no other call is in progress, a call to connect waits for the monitor before it to end, and
announces that it is connecting; all else that it does comes after that. It leaves a monitor behind,
or a failure, and then nothing of the machine is left that could publish anything.
-/

namespace VpnTunnel

def ConnectPhase.failure? : ConnectPhase → Option CallFailure
  | .clearing e _ | .leaving _ (.error e) | .finished (.error e) => some e
  | _ => none

namespace Machine

variable {setup : Setup} {m₀ m m₁ m' : Machine} {i j : Nat} {a : Attempt} {c c' : Caller}
  {p p' : ConnectPhase} {t : Monitor} {h g g' ds : List Happening} {l : Label} {ls : List Label}

section Result

variable {settings : Settings} {capacity : Nat} {ls₀ : List Label} {r : Outcome}

end Result

end Machine

end VpnTunnel
