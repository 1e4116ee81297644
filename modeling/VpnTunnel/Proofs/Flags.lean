import Mathlib.Data.List.Sort
import VpnTunnel.Flags
import VpnTunnel.Proofs.Text.Names

/-!
# Which flags are active

Remote flags go by the table that was fetched last: a fetch that fails changes nothing, and a flag
that is missing in a new table does not outlive the old one. A program without a feed has no flags,
and asks nobody for any.
-/

namespace VpnTunnel

namespace NameTable

variable {α : Type} {s t : NameTable α} {key : String} {value : α}

theorem find?_eq_some_iff : t.find? key = some value ↔ (key, value) ∈ t.entries :=
  lookup_eq_some_iff_mem (t.ascending.imp String.ne_of_lt)

/-- A table is what it gives for each name. -/
theorem eq_of_find?_eq (h : ∀ key, s.find? key = t.find? key) : s = t := by
  let R (e f : String × α) : Prop := e.1 < f.1
  have : Std.Irrefl R := ⟨fun e => String.lt_irrefl e.1⟩
  have : Std.Antisymm R := ⟨fun _ _ hef hfe => absurd hef (String.lt_asymm hfe)⟩
  have hs : s.entries.Pairwise R := List.pairwise_map.mp s.ascending
  have ht : t.entries.Pairwise R := List.pairwise_map.mp t.ascending
  have hentries : s.entries = t.entries := by
    apply hs.eq_of_mem_iff ht
    rintro ⟨key, value⟩
    rw [← find?_eq_some_iff, ← find?_eq_some_iff, h]
  cases s
  cases t
  cases hentries
  rfl

/-- Two tables differ just when some key is looked up differently. -/
theorem ne_iff_exists_find? : s ≠ t ↔ ∃ key, s.find? key ≠ t.find? key := by
  rw [← not_iff_not, not_not, not_exists]
  constructor
  · rintro rfl key
    exact not_not.mpr rfl
  · exact fun h => eq_of_find?_eq fun key => not_not.mp (h key)

end NameTable

/-- The table is the one that the last of the first `n` answers with a table brought, and empty
where all of them are failures. -/
def IsLastTable (feed : FlagFeed) (n : Nat) (table : FlagTable) : Prop :=
  (∃ k < n, feed k = .ok table ∧ ∀ j, k < j → j < n → ∃ e, feed j = .error e) ∨
    table = .empty ∧ ∀ j < n, ∃ e, feed j = .error e

namespace IsLastTable

variable {feed : FlagFeed} {n : Nat} {table : FlagTable}

theorem zero (feed : FlagFeed) : IsLastTable feed 0 .empty :=
  .inr ⟨rfl, fun _ hj => absurd hj (Nat.not_lt_zero _)⟩

theorem of_ok (h : feed n = .ok table) : IsLastTable feed (n + 1) table :=
  .inl ⟨n, Nat.lt_succ_self n, h, fun _ hnj hj => absurd hj (by omega)⟩

theorem of_error {e : FetchFailure} (hlast : IsLastTable feed n table) (h : feed n = .error e) :
    IsLastTable feed (n + 1) table := by
  have hfails {j : Nat} (hj : j < n + 1) (hbefore : j < n → ∃ e, feed j = .error e) :
      ∃ e, feed j = .error e := by
    obtain hj | rfl := Nat.lt_succ_iff_lt_or_eq.mp hj
    · exact hbefore hj
    · exact ⟨e, h⟩
  obtain ⟨k, hk, hok, hafter⟩ | ⟨hempty, hall⟩ := hlast
  · exact .inl ⟨k, Nat.lt_succ_of_lt hk, hok, fun j hkj hj => hfails hj (hafter j hkj)⟩
  · exact .inr ⟨hempty, fun j hj => hfails hj (hall j)⟩

end IsLastTable

namespace ProgramFlags

def after (f : ProgramFlags) : Nat → ProgramFlags
  | 0 => f
  | n + 1 => (f.after n).fetch.2

end ProgramFlags

/-- The remote flags as they are after `n` fetches, and what the next fetch makes of them. -/
structure RemoteFlags.GoesByLast (feed : FlagFeed) (n : Nat) (f : RemoteFlags) : Prop where
  source : f.feed = feed
  queries : f.queries = n
  active : IsLastTable feed n f.active
  flags : ∀ key, f.flag? key = f.active.find? key
  statistics : (ProgramFlags.remote f).allowsStatistics = true ↔
    f.active.find? statisticsKey = some true
  /-- A failure is handed on and changes nothing. -/
  failure : ∀ e, feed n = .error e → f.fetch.1 = .error e ∧ f.fetch.2.active = f.active
  /-- A table becomes the active one, and is told to be new if it differs from the one before for
  any name. -/
  success : ∀ table, feed n = .ok table → f.fetch.2.active = table ∧
    ∃ changed, f.fetch.1 = .ok changed ∧
      (changed = true ↔ ∃ key, table.find? key ≠ f.active.find? key)

/-- The flags that nothing comes of: no fetch fails or changes anything, and no feed is asked. -/
structure ProgramFlags.StaysAbsent (f : ProgramFlags) (n : Nat) : Prop where
  fetch : (f.after n).fetch.1 = .ok false
  statistics : (f.after n).allowsStatistics = false
  queries : (f.after n).queries = 0

namespace RemoteFlags

variable {feed : FlagFeed} {n : Nat} {f : RemoteFlags}

theorem fetch_of_ok {table : FlagTable} (h : f.feed f.queries = .ok table) :
    f.fetch = (.ok (table ≠ f.active), { f with queries := f.queries + 1, active := table }) := by
  rw [fetch, h]

theorem fetch_of_error {e : FetchFailure} (h : f.feed f.queries = .error e) :
    f.fetch = (.error e, { f with queries := f.queries + 1 }) := by
  rw [fetch, h]

/-- All that is said of remote flags follows from where their table comes from. -/
theorem goesByLast_of_active (hfeed : f.feed = feed) (hqueries : f.queries = n)
    (hactive : IsLastTable feed n f.active) : GoesByLast feed n f where
  source := hfeed
  queries := hqueries
  active := hactive
  flags _ := rfl
  statistics := by
    rw [ProgramFlags.allowsStatistics, flag?]
    cases f.active.find? statisticsKey <;> simp
  failure e h := by
    rw [fetch_of_error (by rw [hfeed, hqueries, h])]
    exact ⟨rfl, rfl⟩
  success table h := by
    rw [fetch_of_ok (by rw [hfeed, hqueries, h])]
    refine ⟨rfl, _, rfl, ?_⟩
    rw [decide_eq_true_iff, NameTable.ne_iff_exists_find?]

theorem goesByLast_ofFeed (feed : FlagFeed) : GoesByLast feed 0 (ofFeed feed) :=
  goesByLast_of_active rfl rfl (.zero feed)

/-- One fetch more, and one answer more to go by. -/
theorem GoesByLast.fetch (h : GoesByLast feed n f) : GoesByLast feed (n + 1) f.fetch.2 := by
  cases hanswer : feed n with
  | error e =>
    rw [fetch_of_error (by rw [h.source, h.queries, hanswer])]
    exact goesByLast_of_active h.source (congrArg (· + 1) h.queries) (h.active.of_error hanswer)
  | ok table =>
    rw [fetch_of_ok (by rw [h.source, h.queries, hanswer])]
    exact goesByLast_of_active h.source (congrArg (· + 1) h.queries) (.of_ok hanswer)

/-- After any number of fetches the remote flags go by the last one that brought a table. -/
theorem exists_after_eq_remote (feed : FlagFeed) (n : Nat) :
    ∃ f, (ProgramFlags.remote (.ofFeed feed)).after n = .remote f ∧ GoesByLast feed n f := by
  induction n with
  | zero => exact ⟨_, rfl, goesByLast_ofFeed feed⟩
  | succ n ih =>
    obtain ⟨f, hafter, hf⟩ := ih
    exact ⟨f.fetch.2, by rw [ProgramFlags.after, hafter]; rfl, hf.fetch⟩

end RemoteFlags

theorem ProgramFlags.after_absent (n : Nat) : absent.after n = absent := by
  induction n with
  | zero => rfl
  | succ n ih => rw [after, ih]; rfl

theorem ProgramFlags.staysAbsent_absent (n : Nat) : absent.StaysAbsent n := by
  constructor <;> rw [after_absent] <;> rfl

/-- A store build with a feed goes by the table that it has fetched last, whatever the feed answers
and however often it is asked. The other builds never allow statistics, never see a change or a
failure, and ask no feed, be there one or not. -/
theorem Distribution.flags_after (n : Nat) :
    (∀ feed, ∃ f, (store.flags (some feed)).after n = .remote f ∧
      RemoteFlags.GoesByLast feed n f) ∧
    (∀ feed?, (foss.flags feed?).StaysAbsent n) ∧
    (store.flags none).StaysAbsent n :=
  ⟨fun feed => RemoteFlags.exists_after_eq_remote feed n,
    fun _ => ProgramFlags.staysAbsent_absent n, ProgramFlags.staysAbsent_absent n⟩

end VpnTunnel
