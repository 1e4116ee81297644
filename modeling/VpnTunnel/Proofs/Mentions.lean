import Mathlib.Data.List.Induction
import Mathlib.Data.List.Sort

/-!
# First mentions

A list of items each of which may name something: the things named, each once and in the order of
first mention, are one list.
-/

namespace VpnTunnel

section eraseDups

variable {α : Type} [BEq α]

/-- Induction along the removal of repetitions: behind its first item a list loses all that equal
it. -/
theorem eraseDups_induction {P : List α → Prop} (hnil : P [])
    (hcons : ∀ x xs, P (xs.filter (!· == x)) → P (x :: xs)) (xs : List α) : P xs := by
  induction hn : xs.length using Nat.strongRecOn generalizing xs with
  | ind n ih =>
    cases xs with
    | nil => exact hnil
    | cons x xs =>
      have hle := List.length_filter_le (!· == x) xs
      rw [List.length_cons] at hn
      exact hcons x xs (ih _ (by omega) _ rfl)

theorem eraseDups_sublist (xs : List α) : xs.eraseDups.Sublist xs := by
  induction xs using eraseDups_induction with
  | hnil => simp
  | hcons x xs ih =>
    rw [List.eraseDups_cons]
    exact (ih.trans List.filter_sublist).cons_cons x

variable [LawfulBEq α]

/-- Only the first occurrence of each member is kept. -/
theorem nodup_eraseDups (xs : List α) : xs.eraseDups.Nodup := by
  induction xs using eraseDups_induction with
  | hnil => simp
  | hcons x xs ih =>
    rw [List.eraseDups_cons, List.nodup_cons]
    exact ⟨by simp, ih⟩

/-- Where nothing is repeated there is nothing to remove. -/
theorem eraseDups_of_nodup {xs : List α} (h : xs.Nodup) : xs.eraseDups = xs := by
  induction xs with
  | nil => simp
  | cons x xs ih =>
    obtain ⟨hx, hxs⟩ := List.nodup_cons.mp h
    have hfilter : xs.filter (!· == x) = xs := by
      apply List.filter_eq_self.mpr
      intro y hy
      have hne : y ≠ x := fun heq => hx (heq ▸ hy)
      simpa using hne
    rw [List.eraseDups_cons, hfilter, ih hxs]

theorem eraseDups_filter (p : α → Bool) (xs : List α) :
    (xs.filter p).eraseDups = xs.eraseDups.filter p := by
  induction xs using eraseDups_induction with
  | hnil => simp
  | hcons x xs ih =>
    rw [List.eraseDups_cons]
    cases hx : p x with
    | true =>
      rw [List.filter_cons_of_pos hx, List.eraseDups_cons, List.filter_cons_of_pos hx, ← ih,
        List.filter_comm]
    | false =>
      have hne : ¬p x = true := by simp [hx]
      rw [List.filter_cons_of_neg hne, List.filter_cons_of_neg hne, ← ih, List.filter_filter]
      congr 1
      apply List.filter_congr
      intro y _
      by_cases hy : y = x
      · simp [hy, hx]
      · simp [hy]

/-- A repetition of an item behind it does not count. -/
theorem eraseDups_append_cons {x : α} {xs : List α} (h : x ∈ xs) (ys : List α) :
    (xs ++ x :: ys).eraseDups = (xs ++ ys).eraseDups := by
  rw [List.eraseDups_append, List.eraseDups_append, List.removeAll,
    List.filter_cons_of_neg (by simpa using h)]
  rfl

/-- What a longer list adds is what was not there before. -/
theorem eraseDups_append_filter [DecidableEq α] (xs ys : List α) :
    (xs ++ ys).eraseDups = xs.eraseDups ++ ys.eraseDups.filter (· ∉ xs.eraseDups) := by
  rw [List.eraseDups_append, List.removeAll, eraseDups_filter]
  congr 2
  funext y
  simp

end eraseDups

section FirstMentions

variable {α β : Type} [DecidableEq β]

/-- The place of the first item that names `b`, or the end of the list if none does. -/
def firstMention (name : α → Option β) (xs : List α) (b : β) : Nat :=
  xs.findIdx fun a => name a = some b

/-- What the items name, each once and in the order of first mention. -/
structure FirstMentions (name : α → Option β) (xs : List α) (ys : List β) : Prop where
  mem_iff : ∀ b, b ∈ ys ↔ ∃ a ∈ xs, name a = some b
  ordered : ys.Pairwise fun b c => firstMention name xs b < firstMention name xs c

variable {name : α → Option β} {xs : List α} {ys zs : List β}

theorem firstMention_lt {a : α} {b : β} (ha : a ∈ xs) (hb : name a = some b) :
    firstMention name xs b < xs.length :=
  List.findIdx_lt_length_of_exists ⟨a, ha, by simpa using hb⟩

/-- More items behind do not move a first mention. -/
theorem firstMention_append {a : α} {b : β} (ha : a ∈ xs) (hb : name a = some b) (more : List α) :
    firstMention name (xs ++ more) b = firstMention name xs b := by
  rw [firstMention, List.findIdx_append]
  exact if_pos (firstMention_lt ha hb)

theorem length_le_firstMention_append {b : β} (h : ∀ a ∈ xs, name a ≠ some b) (more : List α) :
    xs.length ≤ firstMention name (xs ++ more) b := by
  have hnone : xs.findIdx (fun a => decide (name a = some b)) = xs.length := by
    apply List.findIdx_eq_length.mpr
    intro a ha
    simpa using h a ha
  rw [firstMention, List.findIdx_append, hnone, if_neg (Nat.lt_irrefl _)]
  exact Nat.le_add_left _ _

namespace FirstMentions

theorem nodup (h : FirstMentions name xs ys) : ys.Nodup := by
  rw [List.Nodup]
  refine h.ordered.imp fun {b c} hlt heq => ?_
  rw [heq] at hlt
  exact Nat.lt_irrefl _ hlt

/-- There is one such list. -/
theorem unique (hy : FirstMentions name xs ys) (hz : FirstMentions name xs zs) : ys = zs := by
  let R (b c : β) : Prop := firstMention name xs b < firstMention name xs c
  have : Std.Irrefl R := ⟨fun _ h => Nat.lt_irrefl _ h⟩
  have : Std.Antisymm R := ⟨fun _ _ h h' => absurd h (Nat.lt_asymm h')⟩
  apply hy.ordered.eq_of_mem_iff hz.ordered
  intro b
  rw [hy.mem_iff, hz.mem_iff]

end FirstMentions

/-- Without repetitions, what the items name stands in the order of first mention. -/
theorem firstMentions_eraseDups (name : α → Option β) (xs : List α) :
    FirstMentions name xs (xs.filterMap name).eraseDups := by
  constructor
  · intro b
    rw [List.mem_eraseDups, List.mem_filterMap]
  · induction xs using List.reverseRecOn with
    | nil => simp
    | append_singleton xs a ih =>
      have hold : (xs.filterMap name).eraseDups.Pairwise fun b c =>
          firstMention name (xs ++ [a]) b < firstMention name (xs ++ [a]) c := by
        refine ih.imp_of_mem fun {b c} hb hc hlt => ?_
        obtain ⟨x, hx, hxb⟩ := List.mem_filterMap.mp (List.mem_eraseDups.mp hb)
        obtain ⟨y, hy, hyc⟩ := List.mem_filterMap.mp (List.mem_eraseDups.mp hc)
        rwa [firstMention_append hx hxb, firstMention_append hy hyc]
      rw [List.filterMap_append, eraseDups_append_filter, List.pairwise_append]
      refine ⟨hold, ?_, ?_⟩
      · apply List.Pairwise.filter
        cases ha : name a <;> simp [ha, List.eraseDups_cons]
      · intro b hb c hc
        obtain ⟨x, hx, hxb⟩ := List.mem_filterMap.mp (List.mem_eraseDups.mp hb)
        have hnew : ∀ y ∈ xs, name y ≠ some c := by
          intro y hy hyc
          have hin : c ∈ (xs.filterMap name).eraseDups :=
            List.mem_eraseDups.mpr (List.mem_filterMap.mpr ⟨y, hy, hyc⟩)
          simpa [hin] using (List.mem_filter.mp hc).2
        rw [firstMention_append hx hxb]
        exact Nat.lt_of_lt_of_le (firstMention_lt hx hxb) (length_le_firstMention_append hnew [a])

end FirstMentions

end VpnTunnel
