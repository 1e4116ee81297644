import VpnTunnel.Proofs.Client.ReadBack
import VpnTunnel.Proofs.Mentions

/-!
# The interface that a client sets up

The addresses and the resolvers of an interface. IPv6 takes part in either only if the user and the
server both allow it.
-/

namespace VpnTunnel

theorem and_two_pow_eq_iff {n k : Nat} : n &&& 2 ^ k = 2 ^ k ↔ n.testBit k = true := by
  constructor
  · intro h
    have hbit := congrArg (·.testBit k) h
    simpa [Nat.testBit_and] using hbit
  · intro h
    apply Nat.eq_of_testBit_eq
    intro i
    rw [Nat.testBit_and, Nat.testBit_two_pow]
    by_cases hi : k = i
    · simp [← hi, h]
    · simp [hi]

/-- Bit 4 stands for IPv6. -/
theorem Features.contains_ipv6_iff (f : Features) :
    f.contains .ipv6 = true ↔ f.bits.toNat.testBit 4 = true := by
  have hbit : ipv6.bits.toNat = 2 ^ 4 := rfl
  rw [contains, beq_iff_eq, ← UInt32.toNat_inj, UInt32.toNat_and, hbit, and_two_pow_eq_iff]

namespace Attempt

/-- The user wants IPv6 and the server has the bit for it. -/
def DualStack (a : Attempt) : Prop :=
  a.wantsIpv6 = true ∧ a.exit.server.features.bits.toNat.testBit 4 = true

instance (a : Attempt) : Decidable a.DualStack := inferInstanceAs (Decidable (_ ∧ _))

theorem isDualStack_iff {a : Attempt} : a.isDualStack = true ↔ a.DualStack := by
  rw [isDualStack, Server.hasIpv6, Bool.and_eq_true, Features.contains_ipv6_iff, DualStack]

/-- The tunnel of the attempt carries packets to the address. -/
def Reaches (a : Attempt) : Address → Prop
  | .v4 _ => True
  | .v6 _ => a.DualStack

instance (a : Attempt) : DecidablePred a.Reaches
  | .v4 _ => inferInstanceAs (Decidable True)
  | .v6 _ => inferInstanceAs (Decidable a.DualStack)

theorem reaches_iff {attempt : Attempt} {a : Address} :
    attempt.Reaches a ↔ (a.isV4 || attempt.isDualStack) = true := by
  cases a with
  | v4 a => simp [Reaches, Address.isV4]
  | v6 a => simp [Reaches, Address.isV4, isDualStack_iff]

end Attempt

namespace Client

variable (c : Client) (attempt : Attempt) (custom : List Address)

/-- The addresses of the interface. -/
theorem addresses_eq : c.addresses attempt.isDualStack =
    .v4 ⟨c.ipv4, 32, Nat.le_refl 32⟩ ::
      (if attempt.DualStack then [.v6 ⟨c.ipv6, 128, Nat.le_refl 128⟩] else []) := by
  simp only [addresses, Attempt.isDualStack_iff]
  rfl

theorem ownResolvers_eq : c.ownResolvers attempt.isDualStack =
    .v4 c.resolver4 :: (if attempt.DualStack then [.v6 c.resolver6] else []) := by
  simp only [ownResolvers, Attempt.isDualStack_iff]

theorem ownResolvers_sublist (dualStack : Bool) :
    (c.ownResolvers dualStack).Sublist [.v4 c.resolver4, .v6 c.resolver6] := by
  cases dualStack <;> simp [ownResolvers]

theorem resolvers_eq : c.resolvers attempt.isDualStack custom =
    (custom.filter (attempt.Reaches ·) ++ c.ownResolvers attempt.isDualStack).eraseDups := by
  have hfilter : custom.filter (fun a => a.isV4 || attempt.isDualStack) =
      custom.filter (attempt.Reaches ·) := by
    apply List.filter_congr
    intro a _
    rw [Bool.eq_iff_iff, decide_eq_true_eq, Attempt.reaches_iff]
  rw [resolvers, hfilter]

/-- The user's resolvers come first, as far as the tunnel reaches them, and none comes twice. -/
theorem firstMentions_resolvers : FirstMentions some
    (custom.filter (attempt.Reaches ·) ++
      .v4 c.resolver4 :: (if attempt.DualStack then [.v6 c.resolver6] else []))
    (c.resolvers attempt.isDualStack custom) := by
  have hmentions := firstMentions_eraseDups some
    (custom.filter (attempt.Reaches ·) ++ c.ownResolvers attempt.isDualStack)
  rwa [List.filterMap_some, ← resolvers_eq, ownResolvers_eq] at hmentions

/-- A resolver is the user's own and reached by the tunnel, or one of the client's. -/
theorem mem_resolvers_iff {a : Address} : a ∈ c.resolvers attempt.isDualStack custom ↔
    a ∈ custom ∧ attempt.Reaches a ∨ a = .v4 c.resolver4 ∨
      a = .v6 c.resolver6 ∧ attempt.DualStack := by
  rw [resolvers_eq, List.mem_eraseDups, List.mem_append, List.mem_filter, decide_eq_true_eq,
    ownResolvers_eq, List.mem_cons]
  split <;> simp [*]

/-- The user's resolvers come first, in the user's order. -/
theorem exists_resolvers_eq_append : ∃ chosen own,
    c.resolvers attempt.isDualStack custom = chosen ++ own ∧
      FirstMentions (Option.guard (attempt.Reaches ·)) custom chosen ∧
      own.Sublist [.v4 c.resolver4, .v6 c.resolver6] := by
  have hchosen := firstMentions_eraseDups (Option.guard (attempt.Reaches ·)) custom
  rw [List.filterMap_eq_filter] at hchosen
  let chosen := (custom.filter (attempt.Reaches ·)).eraseDups
  let own := (c.ownResolvers attempt.isDualStack).eraseDups
  refine ⟨chosen, own.filter (· ∉ chosen), ?_, hchosen, ?_⟩
  · rw [resolvers_eq, eraseDups_append_filter]
  · exact (List.filter_sublist.trans (eraseDups_sublist _)).trans (c.ownResolvers_sublist _)

/-- The interface has one address of each family in use. Its resolvers are those of the user that
the tunnel reaches and then the client's own, each at its first mention: so none stands there twice,
the user's come first in the user's order, and the client's IPv4 resolver is always among them.
Without IPv6 no entry is of that family. -/
theorem interface_of_configFor {settings : Settings} {keys : KeySource} {config : Config}
    (h : c.configFor attempt settings keys = .ok config) :
    config.interface.addresses =
      .v4 ⟨c.ipv4, 32, Nat.le_refl 32⟩ ::
        (if attempt.DualStack then [.v6 ⟨c.ipv6, 128, Nat.le_refl 128⟩] else []) ∧
    FirstMentions some
      (settings.resolvers.filter (attempt.Reaches ·) ++
        .v4 c.resolver4 :: (if attempt.DualStack then [.v6 c.resolver6] else []))
      config.interface.dns ∧
    config.interface.dns.Nodup ∧
    (∃ chosen own, config.interface.dns = chosen ++ own ∧
      FirstMentions (Option.guard (attempt.Reaches ·)) settings.resolvers chosen ∧
      own.Sublist [.v4 c.resolver4, .v6 c.resolver6]) ∧
    .v4 c.resolver4 ∈ config.interface.dns ∧
    (¬attempt.DualStack → (∀ b ∈ config.interface.addresses, ∃ b4, b = .v4 b4) ∧
      ∀ a ∈ config.interface.dns, ∃ a4, a = .v4 a4) := by
  obtain ⟨endpoint, peerKey, privateKey, rfl⟩ := exists_of_configFor h
  have hmentions := c.firstMentions_resolvers attempt settings.resolvers
  refine ⟨c.addresses_eq attempt, hmentions, hmentions.nodup,
    c.exists_resolvers_eq_append attempt settings.resolvers, ?_, fun hsingle => ⟨?_, ?_⟩⟩
  · exact (c.mem_resolvers_iff attempt settings.resolvers).mpr (.inr (.inl rfl))
  · intro b hb
    have haddresses := c.addresses_eq attempt
    rw [if_neg hsingle] at haddresses
    change b ∈ c.addresses attempt.isDualStack at hb
    rw [haddresses, List.mem_singleton] at hb
    exact ⟨_, hb⟩
  · intro a ha
    rcases (c.mem_resolvers_iff attempt settings.resolvers).mp ha with
      ⟨_, hreaches⟩ | hown | ⟨_, hdual⟩
    · cases a with
      | v4 a => exact ⟨a, rfl⟩
      | v6 a => exact absurd hreaches hsingle
    · exact ⟨_, hown⟩
    · exact absurd hdual hsingle

def listedResolvers : List Address :=
  [.v4 ⟨0x09090909, by decide⟩, .v6 ⟨0x262000fe0000000000000000000000fe, by decide⟩,
    .v4 ⟨0x09090909, by decide⟩]

/-- The user wants IPv6, but the server does not have it. -/
theorem interface_of_listedResolvers : ∃ config,
    standard.configFor sampleAttempt { sampleSettings with resolvers := listedResolvers }
        sampleKeys.keySource = .ok config ∧
      config.interface.dns = [.v4 ⟨0x09090909, by decide⟩, .v4 standard.resolver4] ∧
      config.interface.dns.Nodup ∧ ∀ a ∈ config.interface.dns, ∃ a4, a = .v4 a4 := by
  obtain ⟨config, hmade, hdns⟩ : ∃ config,
      standard.configFor sampleAttempt { sampleSettings with resolvers := listedResolvers }
        sampleKeys.keySource = .ok config ∧
      config.interface.dns = [.v4 ⟨0x09090909, by decide⟩, .v4 standard.resolver4] :=
    ⟨_, rfl, by decide⟩
  obtain ⟨-, -, hnodup, -, -, hfamilies⟩ := interface_of_configFor standard sampleAttempt hmade
  exact ⟨config, hmade, hdns, hnodup, (hfamilies (by decide)).2⟩

end Client

end VpnTunnel
