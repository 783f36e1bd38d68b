/-
# The table of open timing requests

A table is known by its entries. A request that is observed is in it from then
on, until it is resolved, another one of its key is observed, or it is too old
when any request is observed. In a table with one entry for a key, what is
resolved is the origin of the entry of that key, if it is not too old.

Key definitions: `TimingKeys.Distinct`.
Key theorems: `TimingKeys.mem_observe`, `TimingKeys.mem_resolve`,
`TimingKeys.resolve_eq_some`, `TimingKeys.resolve_eq_some_iff`.
-/
import Raop.Proofs.Net.ChannelSet
import Raop.Proxy.TimingKeys

namespace Raop
namespace TimingKeys

variable {α : Type} {t : TimingKeys α} {e : TimingEntry α} {now : Nat} {key : UInt64} {origin : α}

@[simp] theorem ttl_observe (t : TimingKeys α) (now : Nat) (key : UInt64) (origin : α) :
    (t.observe now key origin).ttl = t.ttl := rfl

@[simp] theorem ttl_resolve (t : TimingKeys α) (now : Nat) (key : UInt64) :
    (t.resolve now key).2.ttl = t.ttl := by
  unfold resolve
  split <;> rfl

@[simp] theorem ttl_clear (t : TimingKeys α) : t.clear.ttl = t.ttl := rfl

@[simp] theorem entries_clear (t : TimingKeys α) : t.clear.entries = [] := rfl

/-- An entry that is not too old later on is not too old now. -/
theorem fresh_of_le {ttl later : Nat} (hle : now ≤ later) (h : fresh ttl later e = true) :
    fresh ttl now e = true := by
  simp only [fresh, decide_eq_true_eq] at h ⊢
  omega

theorem mem_observe : e ∈ (t.observe now key origin).entries ↔
    e = ⟨key, origin, now⟩ ∨ e ∈ t.entries ∧ e.key ≠ key ∧ fresh t.ttl now e = true := by
  simp [observe]

/-- What is left of a table when a key was resolved. -/
theorem entries_resolve (t : TimingKeys α) (now : Nat) (key : UInt64) :
    (t.resolve now key).2.entries = t.entries.filter fun e => e.key ≠ key := by
  unfold resolve
  split
  · next hnone =>
    refine (List.filter_eq_self.2 fun e he => ?_).symm
    simpa using List.find?_eq_none.1 hnone e he
  · rfl

theorem mem_resolve : e ∈ (t.resolve now key).2.entries ↔ e ∈ t.entries ∧ e.key ≠ key := by
  simp [entries_resolve]

/-- What is resolved is the origin of an entry of the key that is not too old. -/
theorem resolve_eq_some (h : (t.resolve now key).1 = some origin) :
    ∃ e ∈ t.entries, e.key = key ∧ fresh t.ttl now e = true ∧ e.origin = origin := by
  unfold resolve at h
  split at h
  · cases h
  · next e hfind =>
    simp only [Option.ite_none_right_eq_some, Option.some.injEq] at h
    exact ⟨e, List.mem_of_find?_eq_some hfind, by simpa using List.find?_some hfind, h.1, h.2⟩

/-! ### One entry for a key -/

/-- No two entries have one key. -/
def Distinct (t : TimingKeys α) : Prop := (t.entries.map (·.key)).Nodup

theorem distinct_of_entries_eq_nil (h : t.entries = []) : t.Distinct := by
  simp [Distinct, h]

theorem Distinct.filter (h : t.Distinct) (p : TimingEntry α → Bool) :
    ((t.entries.filter p).map (·.key)).Nodup :=
  h.sublist (List.filter_sublist.map _)

theorem Distinct.observe (h : t.Distinct) (now : Nat) (key : UInt64) (origin : α) :
    (t.observe now key origin).Distinct := by
  unfold Distinct TimingKeys.observe
  rw [List.map_cons, List.nodup_cons]
  refine ⟨fun hmem => ?_, ?_⟩
  · obtain ⟨e, he, hkey⟩ := List.mem_map.1 hmem
    have hne : e.key ≠ key := by simpa using (List.mem_filter.1 he).2
    exact hne hkey
  · rw [List.filter_filter]
    exact h.filter _

theorem Distinct.resolve (h : t.Distinct) (now : Nat) (key : UInt64) :
    (t.resolve now key).2.Distinct := by
  unfold Distinct
  rw [entries_resolve]
  exact h.filter _

/-- With one entry for a key, the entry of a key is resolved unless it is too old. -/
theorem resolve_eq_some_iff (h : t.Distinct) : (t.resolve now key).1 = some origin ↔
    ∃ e ∈ t.entries, e.key = key ∧ fresh t.ttl now e = true ∧ e.origin = origin := by
  refine ⟨resolve_eq_some, ?_⟩
  rintro ⟨e, he, rfl, hfresh, rfl⟩
  have hfind : t.entries.find? (fun d => decide (d.key = e.key)) = some e :=
    find?_of_nodup h he fun d => decide_eq_true_iff
  simp [TimingKeys.resolve, hfind, hfresh]

end TimingKeys
end Raop
