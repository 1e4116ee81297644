import Mathlib.Data.List.Nodup
import VpnTunnel.Proofs.Address.Specifiers
import VpnTunnel.Routing

/-!
# Routed addresses

Which addresses the routes of a tunnel cover, said of the address itself: by the mode of the split,
by the specifiers that name the address, and by the ranges of private networks.
-/

namespace VpnTunnel

/-- The address belongs to a private network, or to the ones that hosts on a link give themselves:
10.0.0.0 to 10.255.255.255, 172.16.0.0 to 172.31.255.255, 192.168.0.0 to 192.168.255.255, and
169.254.0.0 to 169.254.255.255. -/
def Ipv4.IsPrivate (a : Ipv4) : Prop :=
  a.toNat / 2 ^ 24 = 10 ∨ a.toNat / 2 ^ 20 = 172 * 2 ^ 4 + 1 ∨
    a.toNat / 2 ^ 16 = 192 * 2 ^ 8 + 168 ∨ a.toNat / 2 ^ 16 = 169 * 2 ^ 8 + 254

/-- The private ranges are read as the private networks. -/
theorem names_privateRanges_iff (a : Ipv4) :
    Specifier.Names privateRanges a ↔ a.IsPrivate := by
  have h10 : Specifier.Denotes "10.0.0.0/8" a ↔ a.toNat / 2 ^ 24 = 10 := by
    have hread : Specifier.read? "10.0.0.0/8" = some ⟨.ofOctets 10 0 0 0, 8, by decide⟩ := rfl
    exact Specifier.denotes_iff_div_eq _ hread a
  have h172 : Specifier.Denotes "172.16.0.0/12" a ↔ a.toNat / 2 ^ 20 = 172 * 2 ^ 4 + 1 := by
    have hread : Specifier.read? "172.16.0.0/12" = some ⟨.ofOctets 172 16 0 0, 12, by decide⟩ := rfl
    exact Specifier.denotes_iff_div_eq _ hread a
  have h192 : Specifier.Denotes "192.168.0.0/16" a ↔ a.toNat / 2 ^ 16 = 192 * 2 ^ 8 + 168 := by
    have hread : Specifier.read? "192.168.0.0/16" = some ⟨.ofOctets 192 168 0 0, 16, by decide⟩ := rfl
    exact Specifier.denotes_iff_div_eq _ hread a
  have h169 : Specifier.Denotes "169.254.0.0/16" a ↔ a.toNat / 2 ^ 16 = 169 * 2 ^ 8 + 254 := by
    have hread : Specifier.read? "169.254.0.0/16" = some ⟨.ofOctets 169 254 0 0, 16, by decide⟩ := rfl
    exact Specifier.denotes_iff_div_eq _ hread a
  simp only [Specifier.Names, privateRanges, List.mem_cons, List.not_mem_nil, or_false,
    exists_eq_or_imp, exists_eq_left, h10, h172, h192, h169, Ipv4.IsPrivate]

theorem Ipv4Block.mem_everything (a : Ipv4) : a ∈ everything := mem_of_bits_eq_zero rfl a

theorem Ipv6Block.mem_everything (a : Ipv6) : a ∈ everything := by
  have hlt := a.isLt
  change first everything ≤ a.toNat ∧ a.toNat ≤ last everything
  simp only [last, first, everything, size, Ipv6.zero]
  omega

def Block.Disjoint (b c : Block) : Prop := ∀ a : Address, ¬(a ∈ b ∧ a ∈ c)

namespace Block

def Cover (blocks : List Block) (a : Address) : Prop := ∃ b ∈ blocks, a ∈ b

theorem mem_v4_v4 {a : Ipv4} {b : Ipv4Block} : Address.v4 a ∈ v4 b ↔ a ∈ b := Iff.rfl

theorem v6_not_mem_v4 {a : Ipv6} {b : Ipv4Block} : Address.v6 a ∉ v4 b := fun h => h

theorem v4_not_mem_v6 {a : Ipv4} {b : Ipv6Block} : Address.v4 a ∉ v6 b := fun h => h

theorem cover_map_v4_iff {bs : List Ipv4Block} {a : Ipv4} :
    Cover (bs.map v4) (.v4 a) ↔ Covers bs a := by
  simp [Cover, Covers, mem_v4_v4]

theorem not_cover_map_v4 {bs : List Ipv4Block} {a : Ipv6} : ¬Cover (bs.map v4) (.v6 a) := by
  simp [Cover, v6_not_mem_v4]

theorem disjoint_v4 {b c : Ipv4Block} (h : b.Disjoint c) : (v4 b).Disjoint (v4 c) := by
  rintro (a | a) ⟨hb, hc⟩
  · exact h a ⟨hb, hc⟩
  · exact v6_not_mem_v4 hb

theorem disjoint_v4_v6 (b : Ipv4Block) (c : Ipv6Block) : (v4 b).Disjoint (v6 c) := by
  rintro (a | a) ⟨hb, hc⟩
  · exact v4_not_mem_v6 hc
  · exact v6_not_mem_v4 hb

theorem v4_injective : Function.Injective v4 := fun _ _ h => v4.inj h

end Block

namespace RoutePolicy

/-- The addresses that belong into the tunnel. -/
def Wants (policy : RoutePolicy) (split : Split) : Address → Prop
  | .v6 _ => policy.bootstrap = true
  | .v4 a => policy.bootstrap = true ∨
    match split.mode with
    | .off | .excludeApps | .includeApps => True
    | .includeIps => Specifier.Names split.ips.toList a
    | .excludeIps =>
      ¬Specifier.Names split.ips.toList a ∧ (policy.directLan = true → ¬a.IsPrivate)

variable (policy : RoutePolicy) (split : Split)

theorem cover_bothFamilies (a : Address) : Block.Cover bothFamilies a := by
  cases a with
  | v4 a => exact ⟨.v4 .everything, by simp [bothFamilies], Ipv4Block.mem_everything a⟩
  | v6 a => exact ⟨.v6 .everything, by simp [bothFamilies], Ipv6Block.mem_everything a⟩

theorem covers_everything (a : Ipv4) : Covers [.everything] a :=
  ⟨.everything, List.mem_singleton_self _, Ipv4Block.mem_everything a⟩

/-- Outside a bootstrap all routes are of one family. -/
theorem exists_routes_eq_map (h : policy.bootstrap = false) :
    ∃ bs : List Ipv4Block, policy.routes split = bs.map .v4 ∧ bs.Nodup ∧
      (split.mode ≠ .includeIps → bs.Pairwise Ipv4Block.Disjoint) ∧
      ∀ a, Covers bs a ↔ policy.Wants split (.v4 a) := by
  obtain ⟨mode, apps, ips⟩ := split
  cases mode with
  | off | excludeApps | includeApps =>
    refine ⟨[.everything], by simp [routes, h, ipv4Only], by simp, by simp, fun a => ?_⟩
    simp [Wants, h, covers_everything]
  | includeIps =>
    refine ⟨Specifier.readAll ips.toList, by simp [routes, h], Specifier.nodup_readAll _, by simp,
      fun a => ?_⟩
    simp [Wants, h, Specifier.covers_readAll_iff]
  | excludeIps =>
    refine ⟨complement (ips.toList ++ if policy.directLan then privateRanges else []),
      by simp [routes, h], nodup_complement _, fun _ => ?_, fun a => ?_⟩
    · exact (pairwise_complement _).imp Ipv4Block.disjoint_of_last_lt_first
    · rw [covers_complement_iff, Specifier.names_append]
      cases hlan : policy.directLan with
      | false => simp [Wants, h, hlan, Specifier.Names]
      | true => simp [Wants, h, hlan, names_privateRanges_iff]

theorem routes_of_bootstrap (h : policy.bootstrap = true) :
    policy.routes split = bothFamilies := by
  simp [routes, h]

/-- The routes cover just the addresses that belong into the tunnel. -/
theorem cover_routes_iff (a : Address) :
    Block.Cover (policy.routes split) a ↔ policy.Wants split a := by
  by_cases hboot : policy.bootstrap = true
  · rw [routes_of_bootstrap policy split hboot]
    refine iff_of_true (cover_bothFamilies a) ?_
    cases a <;> simp [Wants, hboot]
  · obtain ⟨bs, hroutes, _, _, hcovers⟩ :=
      policy.exists_routes_eq_map split (Bool.eq_false_iff.mpr hboot)
    rw [hroutes]
    cases a with
    | v4 a => rw [Block.cover_map_v4_iff, hcovers]
    | v6 a => exact iff_of_false Block.not_cover_map_v4 hboot

/-- No route is given twice. -/
theorem nodup_routes : (policy.routes split).Nodup := by
  by_cases hboot : policy.bootstrap = true
  · rw [routes_of_bootstrap policy split hboot]
    decide
  · obtain ⟨bs, hroutes, hnodup, _, _⟩ :=
      policy.exists_routes_eq_map split (Bool.eq_false_iff.mpr hboot)
    rw [hroutes]
    exact List.Nodup.map Block.v4_injective hnodup

/-- Routes overlap only where they are the user's own list. -/
theorem pairwise_disjoint_routes (h : split.mode ≠ .includeIps) :
    (policy.routes split).Pairwise Block.Disjoint := by
  by_cases hboot : policy.bootstrap = true
  · rw [routes_of_bootstrap policy split hboot]
    simpa [bothFamilies] using Block.disjoint_v4_v6 _ _
  · obtain ⟨bs, hroutes, _, hdisjoint, _⟩ :=
      policy.exists_routes_eq_map split (Bool.eq_false_iff.mpr hboot)
    rw [hroutes, List.pairwise_map]
    exact (hdisjoint h).imp Block.disjoint_v4

/-- Whether the local network is reached directly matters only where addresses are excluded. -/
theorem routes_directLan (h : split.mode ≠ .excludeIps) (directLan : Bool) :
    { policy with directLan }.routes split = policy.routes split := by
  obtain ⟨mode, apps, ips⟩ := split
  cases mode with
  | off | excludeApps | includeApps | includeIps => rfl
  | excludeIps => exact absurd rfl h

/-- The routes cover exactly the addresses that belong into the tunnel. No block stands twice among
them, blocks overlap only as the user has listed them, and the local network matters only where
addresses are excluded. -/
theorem cover_routes_iff_wants :
    (∀ a, Block.Cover (policy.routes split) a ↔ policy.Wants split a) ∧
    (policy.routes split).Nodup ∧
    (split.mode ≠ .includeIps → (policy.routes split).Pairwise Block.Disjoint) ∧
    (split.mode ≠ .excludeIps → ∀ directLan,
      { policy with directLan }.routes split = policy.routes split) :=
  ⟨policy.cover_routes_iff split, policy.nodup_routes split, policy.pairwise_disjoint_routes split,
    policy.routes_directLan split⟩

end RoutePolicy

end VpnTunnel
