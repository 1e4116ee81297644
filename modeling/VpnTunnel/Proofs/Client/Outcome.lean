import VpnTunnel.Client
import VpnTunnel.Proofs.Config.Line

/-!
# What a client makes of an attempt

An attempt fails at the first of five checks, in a fixed order, and a configuration is made if it
passes all of them. The private key is asked for between the third check and the fourth.
-/

namespace VpnTunnel

inductive NotAKey (s : List Char) : KeyError → Prop
  | notBase64 (h : Base64.decode? (Text.trim s) = none) : NotAKey s .notBase64
  | wrongLength {bytes : List UInt8} (h : Base64.decode? (Text.trim s) = some bytes)
    (hlength : bytes.length ≠ 32) : NotAKey s .wrongLength

namespace PublicKey

variable {s : List Char}

theorem ofChars_eq_ok_iff {k : PublicKey} :
    ofChars s = .ok k ↔ Base64.decode? (Text.trim s) = some k.bytes := by
  rw [ofChars, readKeyBytes]
  cases Base64.decode? (Text.trim s) with
  | none => simp [Except.map]
  | some bytes =>
    by_cases hlength : bytes.length = 32
    · simp only [hlength, dite_true, Except.map, Except.ok.injEq, Option.some.injEq]
      constructor
      · rintro rfl
        rfl
      · rintro rfl
        rfl
    · simp only [hlength, dite_false, Except.map, reduceCtorEq, Option.some.injEq, false_iff]
      rintro rfl
      exact hlength k.length_eq

end PublicKey

namespace Attempt

/-- The attempt enters at its own address, or else at that of the node for the transport, or else at
the default one of the node. -/
inductive EntersAt (a : Attempt) (ip : Address) : Prop
  | own (h : a.entry = some ip)
  | forTransport (hown : a.entry = none) (h : a.exit.node.entries.find? a.transport = some ip)
  | byDefault (hown : a.entry = none) (htransport : a.exit.node.entries.find? a.transport = none)
    (h : a.exit.node.defaultEntry = some ip)

structure HasNoEntry (a : Attempt) : Prop where
  own : a.entry = none
  forTransport : a.exit.node.entries.find? a.transport = none
  byDefault : a.exit.node.defaultEntry = none

def HasPeerKey (a : Attempt) (k : PublicKey) : Prop :=
  ∃ text, a.exit.node.publicKey = some text ∧
    Base64.decode? (Text.trim text.toList) = some k.bytes

variable {a : Attempt}

/-- The endpoint is where the attempt enters. -/
theorem endpoint_eq_ok_iff {e : Endpoint} :
    a.endpoint = .ok e ↔ ∃ ip, a.EntersAt ip ∧ e = ⟨ip, a.port⟩ := by
  rw [endpoint, Node.entryFor]
  constructor
  · intro h
    split at h
    · rename_i ip hip
      cases h
      refine ⟨ip, ?_, rfl⟩
      cases hown : a.entry with
      | some own =>
        rw [hown] at hip
        cases hip
        exact .own hown
      | none =>
        cases htransport : a.exit.node.entries.find? a.transport with
        | some own =>
          rw [hown, htransport] at hip
          cases hip
          exact .forTransport hown htransport
        | none =>
          rw [hown, htransport] at hip
          exact .byDefault hown htransport hip
    · cases h
  · rintro ⟨ip, h | ⟨hown, h⟩ | ⟨hown, htransport, h⟩, rfl⟩
    · rw [h]
      rfl
    · rw [hown, h]
      rfl
    · rw [hown, htransport, h]
      rfl

theorem peerKey_eq_ok_iff {k : PublicKey} : a.peerKey = .ok k ↔ a.HasPeerKey k := by
  rw [peerKey, HasPeerKey]
  cases a.exit.node.publicKey with
  | none => simp
  | some text =>
    simp only [Option.some.injEq, exists_eq_left', ← PublicKey.ofChars_eq_ok_iff]
    cases PublicKey.ofChars text.toList <;> simp

/-- The other side of the tunnel: where to connect, and the key there. -/
def remote (a : Attempt) : Except ConfigError (Endpoint × PublicKey) := do
  return (← a.endpoint, ← a.peerKey)

theorem remote_eq_ok_iff {endpoint : Endpoint} {peerKey : PublicKey} :
    a.remote = .ok (endpoint, peerKey) ↔ a.endpoint = .ok endpoint ∧ a.peerKey = .ok peerKey := by
  rw [remote]
  cases a.endpoint <;> cases a.peerKey <;> simp [bind, Except.bind, pure, Except.pure]

/-- The entry is missed first. -/
theorem remote_eq_error_iff {e : ConfigError} : a.remote = .error e ↔
    a.endpoint = .error e ∨ (∃ endpoint, a.endpoint = .ok endpoint) ∧ a.peerKey = .error e := by
  rw [remote]
  cases a.endpoint <;> cases a.peerKey <;> simp [bind, Except.bind, pure, Except.pure]

theorem remote_eq_ok_iff_enters {remote : Endpoint × PublicKey} : a.remote = .ok remote ↔
    ∃ ip, a.EntersAt ip ∧ a.HasPeerKey remote.2 ∧ remote.1 = ⟨ip, a.port⟩ := by
  rw [remote_eq_ok_iff, endpoint_eq_ok_iff, peerKey_eq_ok_iff]
  constructor
  · rintro ⟨⟨ip, hentry, hip⟩, hpeer⟩
    exact ⟨ip, hentry, hpeer, hip⟩
  · rintro ⟨ip, hentry, hpeer, hip⟩
    exact ⟨⟨ip, hentry, hip⟩, hpeer⟩

end Attempt

theorem Profile.check_eq_ok_iff {p : Profile} :
    p.check = .ok () ↔ p.params.jmin ≤ p.params.jmax := by
  rw [check]
  split
  · rename_i h
    simpa using h
  · rename_i h
    simpa using h

namespace Client

/-- Why there is no configuration for an attempt. A cause counts only if those before it do not
apply. -/
inductive Refusal (attempt : Attempt) (settings : Settings) (keys : KeySource) : ConfigError → Prop
  | noEntry (h : attempt.HasNoEntry) : Refusal attempt settings keys .noEntry
  | noPeerKey {ip : Address} (hentry : attempt.EntersAt ip)
    (h : attempt.exit.node.publicKey = none) : Refusal attempt settings keys .noPeerKey
  | badKey {ip : Address} {text : String} {cause : KeyError} (hentry : attempt.EntersAt ip)
    (htext : attempt.exit.node.publicKey = some text) (h : NotAKey text.toList cause) :
    Refusal attempt settings keys (.badKey cause)
  | noPrivateKey {ip : Address} {peerKey : PublicKey} {cause : KeyError}
    (hentry : attempt.EntersAt ip) (hpeer : attempt.HasPeerKey peerKey)
    (h : keys attempt.session = .error cause) : Refusal attempt settings keys .noPrivateKey
  | badObfuscation {ip : Address} {peerKey : PublicKey} {privateKey : PrivateKey}
    (hentry : attempt.EntersAt ip) (hpeer : attempt.HasPeerKey peerKey)
    (hprivate : keys attempt.session = .ok privateKey)
    (h : settings.profile.params.jmax < settings.profile.params.jmin) :
    Refusal attempt settings keys
      (.badObfuscation ⟨settings.profile.params.jmin, settings.profile.params.jmax⟩)

section Asking

variable {m : Type → Type} [Monad m]

theorem run_ofExcept {ε α : Type} (x : Except ε α) : (ofExcept x : ExceptT ε m α).run = pure x := by
  cases x <;> rfl

/-- What is made of an attempt once there is an answer to the request for the private key. -/
def settle (c : Client) (attempt : Attempt) (settings : Settings)
    (remote : Endpoint × PublicKey) (answer : Except KeyError PrivateKey) :
    Except ConfigError Config := do
  let privateKey ← answer.mapError fun _ => ConfigError.noPrivateKey
  settings.profile.check.mapError .badObfuscation
  return c.configOf attempt settings remote.1 remote.2 privateKey settings.profile

variable [LawfulMonad m] {c : Client} {attempt : Attempt} {settings : Settings}
  {ask : String → m (Except KeyError PrivateKey)}

/-- Without the other side nothing is asked. -/
theorem run_configAsking_of_error {e : ConfigError} (h : attempt.remote = .error e) :
    (c.configAsking attempt settings ask).run = pure (.error e) := by
  rcases Attempt.remote_eq_error_iff.mp h with hendpoint | ⟨⟨endpoint, hendpoint⟩, hpeer⟩
  · rw [configAsking, ExceptT.run_bind, hendpoint, run_ofExcept, pure_bind]
  · rw [configAsking, ExceptT.run_bind, hendpoint, run_ofExcept, pure_bind]
    dsimp only
    rw [ExceptT.run_bind, hpeer, run_ofExcept, pure_bind]

/-- With the other side the key is asked for once, and the answer settles the attempt. -/
theorem run_configAsking_of_ok {remote : Endpoint × PublicKey} (h : attempt.remote = .ok remote) :
    (c.configAsking attempt settings ask).run =
      c.settle attempt settings remote <$> ask attempt.session := by
  obtain ⟨hendpoint, hpeer⟩ := Attempt.remote_eq_ok_iff.mp h
  have hask : (liftM (ask attempt.session) : ExceptT ConfigError m _).run =
      .ok <$> ask attempt.session := ExceptT.run_lift _
  rw [configAsking, ExceptT.run_bind, hendpoint, run_ofExcept, pure_bind]
  dsimp only
  rw [ExceptT.run_bind, hpeer, run_ofExcept, pure_bind]
  dsimp only
  rw [ExceptT.run_bind, hask, bind_map_left, map_eq_pure_bind]
  congr 1
  funext answer
  dsimp only
  rw [settle, ExceptT.run_bind, run_ofExcept, pure_bind]
  cases answer with
  | error e => rfl
  | ok privateKey =>
    rw [mapError_ok]
    dsimp only
    rw [ExceptT.run_bind, run_ofExcept, pure_bind]
    cases settings.profile.check <;> rfl

end Asking

variable {c : Client} {attempt : Attempt} {settings : Settings} {keys : KeySource}

/-- The private key is asked for between the two halves of the work. -/
theorem configFor_eq : c.configFor attempt settings keys =
    attempt.remote >>= fun remote => c.settle attempt settings remote (keys attempt.session) := by
  cases h : attempt.remote with
  | error e => exact run_configAsking_of_error h
  | ok remote => exact run_configAsking_of_ok h

theorem settle_eq_ok_iff {remote : Endpoint × PublicKey} {answer : Except KeyError PrivateKey}
    {config : Config} : c.settle attempt settings remote answer = .ok config ↔
      ∃ privateKey, answer = .ok privateKey ∧
        settings.profile.params.jmin ≤ settings.profile.params.jmax ∧
        config = c.configOf attempt settings remote.1 remote.2 privateKey settings.profile := by
  rw [settle, ← Profile.check_eq_ok_iff]
  cases answer with
  | error cause => simp [bind, Except.bind]
  | ok privateKey =>
    cases settings.profile.check <;>
      simp [bind, Except.bind, pure, Except.pure, eq_comm]

/-- There is a configuration just when all of its parts are there, and it is made of those. -/
theorem configFor_eq_ok_iff {config : Config} : c.configFor attempt settings keys = .ok config ↔
    ∃ ip peerKey privateKey, attempt.EntersAt ip ∧ attempt.HasPeerKey peerKey ∧
      keys attempt.session = .ok privateKey ∧
      settings.profile.params.jmin ≤ settings.profile.params.jmax ∧
      config = c.configOf attempt settings ⟨ip, attempt.port⟩ peerKey privateKey
        settings.profile := by
  rw [configFor_eq]
  constructor
  · intro h
    cases hremote : attempt.remote with
    | error e =>
      rw [hremote] at h
      cases h
    | ok remote =>
      rw [hremote] at h
      obtain ⟨ip, hentry, hpeer, hip⟩ := Attempt.remote_eq_ok_iff_enters.mp hremote
      obtain ⟨privateKey, hprivate, hsizes, rfl⟩ := settle_eq_ok_iff.mp h
      rw [hip]
      exact ⟨ip, remote.2, privateKey, hentry, hpeer, hprivate, hsizes, rfl⟩
  · rintro ⟨ip, peerKey, privateKey, hentry, hpeer, hprivate, hsizes, rfl⟩
    have hremote : attempt.remote = .ok (⟨ip, attempt.port⟩, peerKey) :=
      Attempt.remote_eq_ok_iff_enters.mpr ⟨ip, hentry, hpeer, rfl⟩
    rw [hremote]
    exact settle_eq_ok_iff.mpr ⟨privateKey, hprivate, hsizes, rfl⟩

def sampleAttempt : Attempt :=
  let node : Node := ⟨"de-7-a", "de-7-a.example", some (.v4 ⟨0xb99f9d0a, by decide⟩), .empty,
    none, some "AAAAAAAAAAAAAAAAAAAAAAAAAAAAAAAAAAAAAAAAAAA=", true, .zero⟩
  let server : Server := ⟨"de-7", "DE#7", "DE", "DE", none, 2, ⟨0⟩, .zero, true, [node]⟩
  .ofSettings .fastest ⟨server, node⟩ 51820 "session-1" .default

end Client

end VpnTunnel
