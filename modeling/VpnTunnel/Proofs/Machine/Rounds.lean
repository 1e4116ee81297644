import VpnTunnel.Proofs.Machine.Ledger

/-!
# Rounds

A round begins when no call is in progress, and goes on as long as nobody disconnects. Its calls get
the lock in the order in which they were made, and each does all that it does before the next: so
the engine is asked what each of them asks for, in that order, and what is current is what the last
of them has left that has come to that.
-/

namespace VpnTunnel

/-- The current attempt that a call to connect to `a` has left, if it has come to that. -/
def ConnectPhase.mark? (a : Attempt) : ConnectPhase → Option (Option Attempt)
  | .waiting | .joining _ | .announcing | .recording => none
  | .leaving _ (.error _) | .finished (.error _) => some none
  | _ => some (some a)

def Caller.mark? : Caller → Option (Option Attempt)
  | connect a p => p.mark? a
  | _ => none

theorem Caller.mark?_eq_none_of_waits {c : Caller} (h : c.Waits) : c.mark? = none := by
  cases c with
  | connect a p => cases p <;> first | rfl | cases h
  | _ => rfl

theorem Caller.isAdmitted_of_hasReturned {c : Caller} (hkind : c.TakesLock)
    (h : c.HasReturned) : c.isAdmitted = true := by
  cases c with
  | connect a p => cases p <;> first | rfl | cases h
  | disconnect p => cases hkind
  | stop p => cases p <;> first | rfl | cases h

/-- When the list of the last one that has one grows, so does the whole. -/
theorem flatMap_range_eq_append {α : Type} {f f' : Nat → List α} {k n : Nat} {xs : List α}
    (hk : k < n) (hown : f' k = f k ++ xs) (hother : ∀ j, j ≠ k → f' j = f j)
    (hlast : ∀ j, k < j → f j = []) :
    (List.range n).flatMap f' = (List.range n).flatMap f ++ xs := by
  induction n with
  | zero => exact absurd hk (Nat.not_lt_zero k)
  | succ n ih =>
    simp only [List.range_succ, List.flatMap_append, List.flatMap_singleton]
    obtain rfl | hkn := Nat.eq_or_lt_of_le (Nat.le_of_lt_succ hk)
    · have hbefore : (List.range k).flatMap f' = (List.range k).flatMap f := by
        rw [List.flatMap_def, List.flatMap_def, List.map_congr_left]
        exact fun j hj => hother j (Nat.ne_of_lt (List.mem_range.mp hj))
      rw [hbefore, hown, List.append_assoc]
    · rw [ih hkn, hother n (Nat.ne_of_gt hkn), hlast n hkn, List.append_nil, List.append_nil]

theorem exists_append_of_getElem? {α : Type} {l : List α} {k : Nat} {x : α} (h : l[k]? = some x) :
    ∃ l₁ l₂, l = l₁ ++ x :: l₂ ∧ l₁.length = k := by
  obtain ⟨hk, rfl⟩ := List.getElem?_eq_some_iff.mp h
  refine ⟨l.take k, l.drop (k + 1), ?_, by simp [Nat.le_of_lt hk]⟩
  rw [List.getElem_cons_drop, List.take_append_drop]

/-- Where none of the later calls has come to leave a mark, the call's own mark is the last. -/
theorem getLast?_marks {ds₁ ds₂ : List Caller} {d : Caller} (h : ∀ e ∈ ds₂, e.mark? = none)
    (z : Option Attempt) :
    ((ds₁ ++ d :: ds₂).filterMap Caller.mark?).getLast?.getD z =
      d.mark?.getD ((ds₁.filterMap Caller.mark?).getLast?.getD z) := by
  rw [List.filterMap_append, List.filterMap_cons, List.filterMap_eq_nil_iff.mpr h]
  cases d.mark? <;> simp

namespace Machine

variable {setup : Setup} {m₀ m m₁ m' : Machine} {i : Nat} {a : Attempt} {d d' : Caller}
  {h g : List Happening} {ds : List Caller} {l : Label} {ls : List Label}

/-- What the calls `ds` have come to since the machine was `m₀`. -/
structure Round (m₀ : Machine) (g : List Happening) (ds : List Caller) (m : Machine) : Prop where
  callers : m.callers = m₀.callers ++ ds
  lockers : ∀ d ∈ ds, d.TakesLock
  /-- Each call does all that it does before the next. -/
  serial : g.filter (·.caller?.isSome) =
    (List.range ds.length).flatMap fun k => deeds (m₀.callers.length + k) g
  current : m.current = (ds.filterMap Caller.mark?).getLast?.getD m₀.current

theorem round_start (m : Machine) : Round m [] [] m where
  callers := by simp
  lockers := List.forall_mem_nil _
  serial := rfl
  current := rfl

theorem CallerMove.mark? (hmove : CallerMove setup m i l d d' m₁) (hkind : d.TakesLock)
    {z : Option Attempt} (h : m.current = d.mark?.getD z) : m₁.current = d'.mark?.getD z := by
  cases hmove with
  | connect hmove =>
    cases hmove with
    | announce | fail => rw [current_publish]; exact h
    | leave events result =>
      rw [unlock, current_unsubscribe]
      cases result <;> exact h
    | record | clear => rfl
    | _ => exact h
  | disconnect => cases hkind
  | stop hmove => cases hmove <;> exact h
  | answer hmove =>
    cases hmove with
    | lowered => cases hkind
    | _ => exact h

namespace Round

theorem getElem?_eq (hm : Round m₀ g ds m) (k : Nat) :
    m.callers[m₀.callers.length + k]? = ds[k]? := by
  rw [hm.callers, List.getElem?_append_right (Nat.le_add_right ..), Nat.add_sub_cancel_left]

/-- A call that does not need the lock yet, or is not there, has done nothing in the round. -/
theorem deeds_eq_nil (hm : Round m₀ g ds m) (hk : Kept setup (h ++ g) m) {k : Nat}
    (hwaits : ∀ d, ds[k]? = some d → d.Waits) : deeds (m₀.callers.length + k) g = [] := by
  have hnone : deeds (m₀.callers.length + k) (h ++ g) = [] := by
    cases hd : ds[k]? with
    | none => exact hk.performed.fresh ((hm.getElem?_eq k).trans hd)
    | some d => exact (hk.performed.own ((hm.getElem?_eq k).trans hd)).waits (hwaits d hd)
  rw [deeds_append] at hnone
  exact (List.append_eq_nil_iff.mp hnone).2

/-- The first call in line goes on, and those behind it have not come to anything yet. -/
theorem go (hm : Round m₀ g ds m) (hk : Kept setup (h ++ g) m)
    (hearlier : ∀ d ∈ m₀.callers, d.HasReturned) (hd : m.callers[i]? = some d)
    (hmove : CallerMove setup m i l d d' m₁) :
    ∃ ds', Round m₀ (g ++ (m.happening? setup l).toList) ds' (m₁.setCaller i d') := by
  have hi : m₀.callers.length ≤ i := by
    refine Nat.le_of_not_lt fun hlt => hmove.not_hasReturned (hearlier d ?_)
    rw [hm.callers, List.getElem?_append_left hlt] at hd
    exact List.mem_of_getElem? hd
  obtain ⟨k, rfl⟩ := Nat.exists_eq_add_of_le hi
  have hdk : ds[k]? = some d := (hm.getElem?_eq k).symm.trans hd
  have hkind := hm.lockers d (List.mem_of_getElem? hdk)
  have hhead := hmove.head_eq hk.custody hd hkind
  have hwaits : ∀ {j e}, k < j → ds[j]? = some e → e.Waits := fun {j e} hj he =>
    hk.orderly.waits_behind hk.custody hhead (Nat.add_lt_add_left hj _)
      ((hm.getElem?_eq j).trans he) (hm.lockers e (List.mem_of_getElem? he))
  have hsilent : ∀ j, k < j → deeds (m₀.callers.length + j) g = [] := fun j hj =>
    hm.deeds_eq_nil hk fun e he => hwaits hj he
  have hlt : k < ds.length := (List.getElem?_eq_some_iff.mp hdk).1
  obtain ⟨ds₁, ds₂, rfl, rfl⟩ := exists_append_of_getElem? hdk
  have hmarks : ∀ e ∈ ds₂, e.mark? = none := fun e he => by
    obtain ⟨j, hj⟩ := List.mem_iff_getElem?.mp he
    refine Caller.mark?_eq_none_of_waits (hwaits (j := ds₁.length + (j + 1)) (by omega) ?_)
    rw [List.getElem?_append_right (Nat.le_add_right ..), Nat.add_sub_cancel_left,
      List.getElem?_cons_succ, hj]
  refine ⟨ds₁ ++ d' :: ds₂, ?callers, ?lockers, ?serial, ?current⟩
  case callers => simp [setCaller, hmove.callers_eq, hm.callers]
  case lockers =>
    intro e he
    have hsame := hm.lockers e
    simp only [List.mem_append, List.mem_cons] at he hsame
    obtain he | rfl | he := he
    · exact hsame (.inl he)
    · exact hmove.takesLock_iff.mpr hkind
    · exact hsame (.inr (.inr he))
  case serial =>
    have hlength : (ds₁ ++ d' :: ds₂).length = (ds₁ ++ d :: ds₂).length := by simp
    have hown : (m.happening? setup l).toList.filter (·.caller?.isSome) =
        (m.happening? setup l).toList := List.filter_eq_self.mpr fun y hy => by
      rw [caller?_of_happening? (Option.mem_toList.mp hy), hmove.caller?]
      rfl
    rw [List.filter_append, hm.serial, hlength, hown]
    refine (flatMap_range_eq_append hlt (deeds_of_eq hmove.caller?) (fun j hj => ?_) hsilent).symm
    refine deeds_of_ne ?_
    rw [hmove.caller?]
    simpa using Ne.symm hj
  case current =>
    rw [getLast?_marks hmarks]
    refine hmove.mark? hkind ?_
    rw [← getLast?_marks hmarks]
    exact hm.current

/-- What calls do not do, does not concern the round. -/
theorem of_eq (hm : Round m₀ g ds m) (hcs : m₁.callers = m.callers)
    (hcurrent : m₁.current = m.current) (hl : l.caller? = none) :
    ∃ ds', Round m₀ (g ++ (m.happening? setup l).toList) ds' m₁ := by
  refine ⟨ds, hcs.trans hm.callers, hm.lockers, ?_, hcurrent.trans hm.current⟩
  have hnone : (m.happening? setup l).toList.filter (·.caller?.isSome) = [] :=
    List.filter_eq_nil_iff.mpr fun y hy => by
      rw [caller?_of_happening? (Option.mem_toList.mp hy), hl]
      nofun
  have hne : ∀ k, l.caller? ≠ some k := by rw [hl]; nofun
  simp only [List.filter_append, hnone, hm.serial, List.append_nil, deeds_of_ne (hne _)]

theorem enlist (hm : Round m₀ g ds m) (hk : Kept setup (h ++ g) m) {r : Request}
    (hkind : (Caller.ofRequest r).TakesLock) :
    Round m₀ g (ds ++ [.ofRequest r]) (m.enlist r) where
  callers := by simp [callers_enlist, hm.callers]
  lockers e he := by
    obtain he | he := List.mem_append.mp he
    · exact hm.lockers e he
    · exact List.mem_singleton.mp he ▸ hkind
  serial := by
    have hsilent : deeds (m₀.callers.length + ds.length) g = [] :=
      hm.deeds_eq_nil hk (by simp)
    simp [hm.serial, List.range_succ, hsilent]
  current := by
    have hmark : (Caller.ofRequest r).mark? = none := by cases r <;> rfl
    simp [Machine.enlist, hm.current, hmark]

/-- Every step that makes no call to disconnect keeps the calls one after the other. -/
theorem step (hm : Round m₀ g ds m) (hk : Kept setup (h ++ g) m)
    (hearlier : ∀ d ∈ m₀.callers, d.HasReturned) (hl : ∀ b, l ≠ .call (.disconnect b))
    (hstep : m.step setup l = some m') :
    ∃ ds', Round m₀ (g ++ (m.happening? setup l).toList) ds' m' := by
  cases callMove_of_step hstep with
  | call r =>
    simp only [happening?, Option.toList_none, List.append_nil]
    cases r with
    | connect | stop => exact ⟨_, hm.enlist hk trivial⟩
    | disconnect b => exact absurd rfl (hl b)
  | go hc hmove => exact hm.go hk hearlier hc hmove
  | apart hl hcallers hqueue hcurrent => exact hm.of_eq hcallers hcurrent hl

/-- What calls alone bring about comes call by call. -/
theorem filterMap_eq {β : Type} (hm : Round m₀ g ds m) {f : Happening → Option β}
    (hf : ∀ x y, f x = some y → x.caller? ≠ none) :
    g.filterMap f =
      (List.range ds.length).flatMap fun k => (deeds (m₀.callers.length + k) g).filterMap f := by
  have hcallers : g.filterMap f = (g.filter (·.caller?.isSome)).filterMap f := by
    rw [List.filterMap_filter]
    congr 1
    funext x
    split
    · rfl
    next hx =>
      cases hfx : f x with
      | none => rfl
      | some y => exact absurd (Option.isSome_iff_ne_none.mpr (hf x y hfx)) hx
  rw [hcallers, hm.serial, List.filterMap_flatMap]

/-- The engine is asked what the calls ask for, one call after another. -/
theorem asks_eq (hm : Round m₀ g ds m) : g.filterMap Happening.asks? =
    (List.range ds.length).flatMap fun k =>
      (Account.of (deeds (m₀.callers.length + k) g)).asked := by
  refine hm.filterMap_eq fun x y hx => ?_
  cases x <;> simp_all [Happening.asks?, Happening.caller?]

/-- When all of its calls have returned, they have got the lock in their order. -/
theorem admits_eq (hm : Round m₀ g ds m) (hk₀ : Kept setup h m₀) (hk : Kept setup (h ++ g) m)
    (hreturned : ∀ d ∈ ds, d.HasReturned) :
    g.filterMap Happening.admits? = List.range' m₀.callers.length ds.length := by
  have hf : ∀ x i, Happening.admits? x = some i → x.caller? ≠ none := fun x i hx => by
    cases x <;> simp_all [Happening.admits?, Happening.caller?]
  rw [hm.filterMap_eq hf, List.range'_eq_map_range, List.map_eq_flatMap, List.flatMap_def,
    List.flatMap_def, List.map_congr_left]
  intro k hk'
  have hd := List.getElem?_eq_getElem (List.mem_range.mp hk')
  have hmem := List.getElem_mem (List.mem_range.mp hk')
  have hown := hk.performed.own ((hm.getElem?_eq k).trans hd)
  rw [hk₀.deeds_append_eq (Nat.le_add_right ..)] at hown
  rw [hown.admitted, if_pos]
  exact Caller.isAdmitted_of_hasReturned (hm.lockers _ hmem) (hreturned _ hmem)

end Round

/-- Calls that need the lock do all that they do one after the other. -/
theorem round_of_run (hk : Kept setup h m₀) (hearlier : ∀ d ∈ m₀.callers, d.HasReturned)
    (hls : ∀ b, .call (.disconnect b) ∉ ls) (hrun : m₀.run setup ls = some m) :
    ∃ ds, Round m₀ (m₀.chronicle setup ls) ds m := by
  refine (chronicle_induction (c := []) (P := fun g m => Kept setup (h ++ g) m ∧
    ∃ ds, Round m₀ g ds m) (fun {g m l m'} hl hm hstep => ?_)
    ⟨by simpa using hk, [], round_start m₀⟩ hrun).2
  obtain ⟨hk, ds, hm⟩ := hm
  refine ⟨by simpa using hk.step hstep, hm.step hk hearlier (fun b hb => hls b (hb ▸ hl)) hstep⟩

end Machine

end VpnTunnel
