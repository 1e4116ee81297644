import Mathlib.Data.List.Induction
import Mathlib.Logic.Relation
import VpnTunnel.Proofs.Number.TotalOrder
import VpnTunnel.Server.Basic

/-!
# The node that is chosen

A server is reached through the first of its online nodes with the least load, loads being compared
as bit patterns in their total order. Nodes that are not online have no part in the choice.
-/

namespace VpnTunnel

open Number

/-- The node is online, no online node has a smaller load, and each online node in front of it has a
greater one. -/
structure IsBest (nodes : List Node) (d : Node) : Prop where
  online : d.online = true
  least : ∀ n ∈ nodes, n.online = true → ¬n.load.Precedes d.load
  first : ∃ before after, nodes = before ++ d :: after ∧
    ∀ n ∈ before, n.online = true → d.load.Precedes n.load

inductive OfflineInsertion : List Node → List Node → Prop
  | insert (before after : List Node) {n : Node} (hn : n.online = false) :
    OfflineInsertion (before ++ after) (before ++ n :: after)

/-- The lists differ in nodes that are not online: such nodes have come or gone, any number of
times, and one that goes and comes back has changed its place. -/
def SameButOffline : List Node → List Node → Prop := Relation.EqvGen OfflineInsertion

variable {best d : Node} {nodes rest : List Node}

theorem leastLoaded_append_singleton (best : Node) (rest : List Node) (n : Node) :
    leastLoaded best (rest ++ [n]) =
      if n.load.rank < (leastLoaded best rest).load.rank then n else leastLoaded best rest := by
  rw [leastLoaded, List.foldl_append]
  rfl

/-- The choice has a place in the list, with greater loads in front of it and none smaller
behind it. -/
theorem exists_leastLoaded_eq (best : Node) (rest : List Node) : ∃ before after,
    best :: rest = before ++ leastLoaded best rest :: after ∧
      (∀ n ∈ before, (leastLoaded best rest).load.rank < n.load.rank) ∧
      ∀ n ∈ after, (leastLoaded best rest).load.rank ≤ n.load.rank := by
  induction rest using List.reverseRecOn with
  | nil => exact ⟨[], [], rfl, by simp, by simp⟩
  | append_singleton rest n ih =>
    obtain ⟨before, after, heq, hbefore, hafter⟩ := ih
    rw [leastLoaded_append_singleton]
    split
    next hlt =>
      refine ⟨best :: rest, [], by simp, fun x hx => ?_, by simp⟩
      rw [heq] at hx
      rcases List.mem_append.mp hx with hx | hx
      · exact Nat.lt_trans hlt (hbefore x hx)
      · rcases List.mem_cons.mp hx with rfl | hx
        · exact hlt
        · exact Nat.lt_of_lt_of_le hlt (hafter x hx)
    next hge =>
      refine ⟨before, after ++ [n], ?_, hbefore, fun x hx => ?_⟩
      · rw [← List.cons_append, heq, List.append_assoc, List.cons_append]
      · rcases List.mem_append.mp hx with hx | hx
        · exact hafter x hx
        · rw [List.mem_singleton.mp hx]
          exact Nat.not_lt.mp hge

theorem isBest_of_filter_eq {before after : List Node}
    (heq : nodes.filter (·.online) = before ++ d :: after)
    (hbefore : ∀ n ∈ before, d.load.rank < n.load.rank)
    (hafter : ∀ n ∈ after, d.load.rank ≤ n.load.rank) : IsBest nodes d := by
  obtain ⟨front, back, rfl, hfront, hback⟩ := List.filter_eq_append_iff.mp heq
  obtain ⟨skipped, behind, rfl, hskipped, hd, -⟩ := List.filter_eq_cons_iff.mp hback
  constructor
  · exact hd
  · intro n hn honline
    rw [Single.precedes_iff_rank_lt, Nat.not_lt]
    have hmem : n ∈ before ++ d :: after := heq ▸ List.mem_filter.mpr ⟨hn, honline⟩
    rcases List.mem_append.mp hmem with hn | hn
    · exact Nat.le_of_lt (hbefore n hn)
    · rcases List.mem_cons.mp hn with rfl | hn
      · exact Nat.le_refl _
      · exact hafter n hn
  · refine ⟨front ++ skipped, behind, by simp, fun n hn honline => ?_⟩
    rw [Single.precedes_iff_rank_lt]
    rcases List.mem_append.mp hn with hn | hn
    · exact hbefore n (hfront ▸ List.mem_filter.mpr ⟨hn, honline⟩)
    · exact absurd honline (hskipped n hn)

/-- There is one best node at most. -/
theorem IsBest.unique {d' : Node} (h : IsBest nodes d) (h' : IsBest nodes d') : d = d' := by
  obtain ⟨before, after, heq, hbefore⟩ := h.first
  obtain ⟨before', after', heq', hbefore'⟩ := h'.first
  obtain ⟨more, rfl, hmore⟩ | ⟨more, rfl, hmore⟩ :=
    List.append_eq_append_iff.mp (heq.symm.trans heq')
  · cases more with
    | nil => exact (List.cons.inj hmore).1
    | cons x more =>
      obtain ⟨rfl, -⟩ := List.cons.inj hmore
      have hd' := hbefore' d (by simp) h.online
      exact absurd hd' (h.least d' (by simp [heq']) h'.online)
  · cases more with
    | nil => exact (List.cons.inj hmore).1.symm
    | cons x more =>
      obtain ⟨rfl, -⟩ := List.cons.inj hmore
      have hd := hbefore d' (by simp) h'.online
      exact absurd hd (h'.least d (by simp [heq]) h.online)

namespace Server

/-- There is no best node just when no node is online. -/
theorem bestNode?_eq_none_iff (s : Server) :
    s.bestNode? = none ↔ ∀ n ∈ s.nodes, n.online = false := by
  have hnone : s.bestNode? = none ↔ s.nodes.filter (·.online) = [] := by
    unfold bestNode? onlineNodes
    cases s.nodes.filter (·.online) <;> simp
  rw [hnone, List.filter_eq_nil_iff]
  exact forall₂_congr fun _ _ => iff_of_eq (Bool.not_eq_true _)

/-- The best node is the first of the online ones that have the least load. -/
theorem bestNode?_eq_some_iff (s : Server) (d : Node) :
    s.bestNode? = some d ↔ IsBest s.nodes d := by
  have hsound : ∀ d, s.bestNode? = some d → IsBest s.nodes d := by
    intro d h
    unfold bestNode? onlineNodes at h
    split at h
    next => cases h
    next n rest hnodes =>
      obtain rfl := Option.some.inj h
      obtain ⟨before, after, heq, hbefore, hafter⟩ := exists_leastLoaded_eq n rest
      exact isBest_of_filter_eq (hnodes.trans heq) hbefore hafter
  refine ⟨hsound d, fun h => ?_⟩
  cases hbest : s.bestNode? with
  | none =>
    obtain ⟨before, after, heq, -⟩ := h.first
    have hoffline := (s.bestNode?_eq_none_iff.mp hbest) d (by simp [heq])
    rw [h.online] at hoffline
    cases hoffline
  | some d' => rw [(hsound d' hbest).unique h]

theorem filter_online_eq_of_sameButOffline {nodes' : List Node} (h : SameButOffline nodes nodes') :
    nodes.filter (·.online) = nodes'.filter (·.online) := by
  induction h with
  | rel _ _ h =>
    obtain ⟨before, after, hn⟩ := h
    simp [hn]
  | refl => rfl
  | symm _ _ _ ih => exact ih.symm
  | trans _ _ _ _ _ ih ih' => exact ih.trans ih'

/-- No node is chosen when none is online. Otherwise the chosen one is the first of the online nodes
with the least load, in the total order of the patterns of loads, and it stays so when nodes come,
go or move that are not online. -/
theorem bestNode?_first_of_least (s : Server) :
    IsStrictTotalOrder Single Single.Precedes ∧
    (s.bestNode? = none ↔ ∀ n ∈ s.nodes, n.online = false) ∧
    (∀ d, s.bestNode? = some d ↔ IsBest s.nodes d) ∧
    ∀ s' : Server, SameButOffline s.nodes s'.nodes → s'.bestNode? = s.bestNode? := by
  refine ⟨Single.isStrictTotalOrder_precedes, s.bestNode?_eq_none_iff, s.bestNode?_eq_some_iff,
    fun s' h => ?_⟩
  unfold bestNode? onlineNodes
  rw [filter_online_eq_of_sameButOffline h]

def sampleNode (id : String) (online : Bool) (load : UInt32) : Node :=
  ⟨id, "", none, .empty, none, none, online, ⟨load⟩⟩

def sampleServer (nodes : List Node) : Server :=
  ⟨"s", "s", "CH", "DE", none, 0, ⟨0⟩, .zero, true, nodes⟩

/-- Loads of zero, and of zero with a sign twice. -/
def sampleNodes : List Node :=
  [sampleNode "a" true 0, sampleNode "b" true 0x80000000, sampleNode "c" true 0x80000000]

/-- The first zero with a sign is chosen, also where a node that is not online has the least load
of all. -/
theorem bestNode?_of_zeros :
    SameButOffline (sampleNode "d" false 0xFF800000 :: sampleNodes) sampleNodes ∧
      (sampleServer sampleNodes).bestNode? = some (sampleNode "b" true 0x80000000) ∧
      (sampleServer sampleNodes).bestNode? =
        (sampleServer (sampleNode "d" false 0xFF800000 :: sampleNodes)).bestNode? := by
  have hsame : SameButOffline (sampleNode "d" false 0xFF800000 :: sampleNodes) sampleNodes :=
    (Relation.EqvGen.rel _ _ (.insert [] sampleNodes rfl)).symm
  exact ⟨hsame, rfl, (bestNode?_first_of_least (sampleServer _)).2.2.2 _ hsame⟩

end Server

end VpnTunnel
