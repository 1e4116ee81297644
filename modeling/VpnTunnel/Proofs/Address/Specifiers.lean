import VpnTunnel.Address.Specifier
import VpnTunnel.Proofs.Address.Canonical
import VpnTunnel.Proofs.Mentions

/-!
# The addresses that specifiers name

A list of specifiers names the addresses of the blocks that its readable members stand for, and its
complement has the others.
-/

namespace VpnTunnel

namespace Specifier

/-- The specifier is readable, and the block that it stands for has the address. -/
def Denotes (spec : String) (a : Ipv4) : Prop := ∃ b, read? spec = some b ∧ a ∈ b

def Names (specs : List String) (a : Ipv4) : Prop := ∃ spec ∈ specs, Denotes spec a

/-- Of a readable specifier only the leading bits of an address decide. -/
theorem denotes_iff_div_eq {spec : String} (b : Ipv4Block) (h : read? spec = some b) (a : Ipv4) :
    Denotes spec a ↔ a.toNat / b.size = b.addr.toNat / b.size := by
  simp only [Denotes, h, Option.some.injEq, exists_eq_left', Ipv4Block.mem_iff_div_eq]

theorem names_append {specs more : List String} {a : Ipv4} :
    Names (specs ++ more) a ↔ Names specs a ∨ Names more a := by
  simp only [Names, List.mem_append, or_and_right, exists_or]

theorem nodup_readAll (specs : List String) : (readAll specs).Nodup := nodup_eraseDups _

theorem mem_readAll_iff {specs : List String} {b : Ipv4Block} :
    b ∈ readAll specs ↔ ∃ spec ∈ specs, read? spec = some b := by
  rw [readAll, List.mem_eraseDups, List.mem_filterMap]

/-- What is read covers just the addresses that some specifier names. -/
theorem covers_readAll_iff (specs : List String) (a : Ipv4) :
    Covers (readAll specs) a ↔ Names specs a := by
  simp only [Covers, Names, Denotes, mem_readAll_iff]
  constructor
  · rintro ⟨b, ⟨spec, hspec, hread⟩, ha⟩
    exact ⟨spec, hspec, b, hread, ha⟩
  · rintro ⟨spec, hspec, b, hread, ha⟩
    exact ⟨b, ⟨spec, hspec, hread⟩, ha⟩

end Specifier

/-- The complement covers just the addresses that no specifier names. -/
theorem covers_complement_iff (specs : List String) (a : Ipv4) :
    Covers (complement specs) a ↔ ¬Specifier.Names specs a := by
  have hcovers := (runs_intervalsOutside (Specifier.readAll specs)).covers_flatMap a
  rwa [← complementBlocks_eq_flatMap, Specifier.covers_readAll_iff] at hcovers

/-- The blocks of a complement follow one another. -/
theorem pairwise_complement (specs : List String) :
    (complement specs).Pairwise Ipv4Block.Precedes :=
  pairwise_complementBlocks (Specifier.readAll specs)

theorem nodup_complement (specs : List String) : (complement specs).Nodup :=
  nodup_complementBlocks (Specifier.readAll specs)

end VpnTunnel
