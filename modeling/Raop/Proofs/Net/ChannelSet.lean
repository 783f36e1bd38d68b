/-
# What a channel set holds

A channel that is opened is the last of its set, and the set has a channel of
that role from then on. A negotiation opens the audio channel after everything
else, so that a set it was successful with has one.

A set that has one channel for each role at most keeps to that, whatever is
opened and closed. The channel that was opened is then the one that is found
for its role, and those of the other roles are found as before.

Key definitions: `ChannelSet.Distinct`.
Key theorems: `ChannelSet.isSome_get?_iff`, `ChannelSet.isSome_get?_of_opener`,
`ChannelSet.Distinct.closeRole`, `ChannelSet.Distinct.opener`, `ChannelSet.get?_of_opener`,
`Negotiation.opens_audio_of_negotiate`.
-/
import Mathlib.Data.List.Induction
import Mathlib.Data.List.Perm.Basic
import Raop.Negotiation
import Raop.Proofs.Lists

namespace Raop

namespace ChannelSet

theorem isSome_get?_iff (s : ChannelSet) (role : Role) :
    (s.get? role).isSome ↔ ∃ c ∈ s.entries, c.role = role := by
  simp [get?, List.find?_isSome]

@[simp] theorem entries_closeAll (s : ChannelSet) : s.closeAll.entries = [] := rfl

variable {binder : Binder} {s s' : ChannelSet} {role : Role} {remote : Option Endpoint}

theorem openRole_eq_ok {localEnd : Endpoint} {c : Channel}
    (h : s.openRole binder role localEnd remote = (.ok c, s')) :
    c.role = role ∧ c.isOpen = true ∧ s'.entries = (s.closeRole role).entries ++ [c] := by
  unfold openRole at h
  simp only at h
  split at h
  · simp at h
  · rename_i port _
    simp only [Prod.mk.injEq, Except.ok.injEq] at h
    obtain ⟨rfl, rfl⟩ := h
    exact ⟨rfl, rfl, rfl⟩

theorem isSome_get?_of_opener {ports : RtpPorts} {ip : IpAddress} {port : UInt16}
    (h : opener binder ports ip role remote s = (.ok port, s')) : (s'.get? role).isSome := by
  unfold opener at h
  split at h
  · rename_i c set hopen
    simp only [Prod.mk.injEq] at h
    obtain ⟨-, rfl⟩ := h
    obtain ⟨hrole, -, hentries⟩ := openRole_eq_ok hopen
    rw [isSome_get?_iff]
    exact ⟨c, by simp [hentries], hrole⟩
  · simp at h

/-! ### One channel for a role -/

/-- No two channels of the set have one role. -/
def Distinct (s : ChannelSet) : Prop := (s.entries.map (·.role)).Nodup

theorem distinct_of_entries_eq_nil (h : s.entries = []) : s.Distinct := by
  simp [Distinct, h]

theorem distinct_closeAll (s : ChannelSet) : s.closeAll.Distinct := distinct_of_entries_eq_nil rfl

/-- In a set with one channel for a role at most, that one is found. -/
theorem get?_eq_some_iff (h : s.Distinct) {c : Channel} :
    s.get? role = some c ↔ c ∈ s.entries ∧ c.role = role := by
  constructor
  · intro hc
    exact ⟨List.mem_of_find?_eq_some hc, by simpa using List.find?_some hc⟩
  · rintro ⟨hmem, rfl⟩
    exact find?_of_nodup h hmem fun d => beq_iff_eq

/-- Sets with the same channels of a role find the same one. -/
theorem get?_congr (h : s.Distinct) (h' : s'.Distinct)
    (hmem : ∀ c, c.role = role → (c ∈ s'.entries ↔ c ∈ s.entries)) : s'.get? role = s.get? role := by
  refine Option.ext fun c => ?_
  rw [get?_eq_some_iff h', get?_eq_some_iff h]
  exact and_congr_left fun hrole => hmem c hrole

open scoped List in
/-- What is removed and what is left are the list. -/
theorem perm_swapRemove {α : Type} {xs : List α} {i : Nat} (h : i < xs.length) :
    xs[i] :: swapRemove xs i ~ xs := by
  induction xs using List.reverseRecOn with
  | nil => simp at h
  | append_singleton ys last _ =>
    have hlen : (ys ++ [last]).length = ys.length + 1 := by simp
    unfold swapRemove
    simp only [List.getLast?_concat, List.dropLast_concat, hlen]
    by_cases hi : i = ys.length
    · rw [if_pos (by omega), List.getElem_concat_length hi]
      exact (List.perm_append_singleton last ys).symm
    · have hys : i < ys.length := by omega
      have hcut : ys.take i ++ ys[i] :: ys.drop (i + 1) = ys := by simp
      rw [if_neg (by omega), List.getElem_append_left hys, List.set_eq_take_append_cons_drop,
        if_pos hys]
      calc ys[i] :: (ys.take i ++ last :: ys.drop (i + 1))
          ~ ys[i] :: last :: (ys.take i ++ ys.drop (i + 1)) := List.perm_middle.cons _
        _ ~ last :: ys[i] :: (ys.take i ++ ys.drop (i + 1)) := List.Perm.swap _ _ _
        _ ~ last :: (ys.take i ++ ys[i] :: ys.drop (i + 1)) := List.perm_middle.symm.cons _
        _ = last :: ys := by rw [hcut]
        _ ~ ys ++ [last] := (List.perm_append_singleton last ys).symm

/-- Closing a role takes one channel of it out, if there is one, and leaves the others. -/
theorem closeRole_cases (s : ChannelSet) (role : Role) :
    (∀ c ∈ s.entries, c.role ≠ role) ∧ s.closeRole role = s ∨
      ∃ c, c.role = role ∧ (c :: (s.closeRole role).entries).Perm s.entries ∧
        (s.closeRole role).released = c.shutdown :: s.released ∧
        (s.closeRole role).attempts = s.attempts := by
  unfold closeRole
  split
  · next i c hi hc =>
    obtain ⟨hlt, hrole, -⟩ := List.findIdx?_eq_some_iff_getElem.1 hi
    have hci : s.entries[i] = c := by
      rw [get?, List.find?_eq_bind_findIdx?_getElem?, hi] at hc
      simpa [hlt] using hc
    refine Or.inr ⟨c, by simpa [hci] using hrole, ?_, rfl, rfl⟩
    exact hci ▸ perm_swapRemove hlt
  · next hnone =>
    refine Or.inl ⟨fun c hc hrole => ?_, rfl⟩
    obtain ⟨d, hd⟩ := Option.isSome_iff_exists.1 ((isSome_get?_iff s role).2 ⟨c, hc, hrole⟩)
    cases hi : s.entries.findIdx? fun c => c.role == role with
    | some i => exact hnone i d hi hd
    | none =>
      have hne := List.findIdx?_eq_none_iff.1 hi c hc
      simp [hrole] at hne

theorem mem_closeRole {c : Channel} (hc : c ∈ s.entries) (hne : c.role ≠ role) :
    c ∈ (s.closeRole role).entries := by
  rcases closeRole_cases s role with ⟨-, hs⟩ | ⟨d, hd, hperm, -⟩
  · exact hs.symm ▸ hc
  · rcases List.mem_cons.1 (hperm.mem_iff.2 hc) with rfl | hm
    · exact absurd hd hne
    · exact hm

theorem Distinct.closeRole (h : s.Distinct) (role : Role) :
    (s.closeRole role).Distinct ∧
      ∀ c, c ∈ (s.closeRole role).entries ↔ c ∈ s.entries ∧ c.role ≠ role := by
  rcases closeRole_cases s role with ⟨hne, hs⟩ | ⟨c, hc, hperm, -⟩
  · rw [hs]
    exact ⟨h, fun c => ⟨fun hm => ⟨hm, hne c hm⟩, And.left⟩⟩
  · have hroles : (c.role :: (s.closeRole role).entries.map (·.role)).Nodup :=
      (hperm.map Channel.role).nodup_iff.2 h
    obtain ⟨hout, hrest⟩ := List.nodup_cons.1 hroles
    refine ⟨hrest, fun d => ?_⟩
    rw [← hperm.mem_iff, List.mem_cons]
    constructor
    · intro hd
      refine ⟨Or.inr hd, fun hrole => hout ?_⟩
      exact hc.trans hrole.symm ▸ List.mem_map_of_mem hd
    · rintro ⟨rfl | hd, hrole⟩
      · exact absurd hc hrole
      · exact hd

/-- Opening a role keeps to one channel for each, granted or refused, and does not touch the channels
of other roles. -/
theorem Distinct.openRole (h : s.Distinct) (binder : Binder) (role : Role) (localEnd : Endpoint)
    (remote : Option Endpoint) :
    (s.openRole binder role localEnd remote).2.Distinct ∧
      ∀ r, r ≠ role → (s.openRole binder role localEnd remote).2.get? r = s.get? r := by
  obtain ⟨hclosed, hmem⟩ := h.closeRole role
  unfold ChannelSet.openRole
  simp only
  split
  · refine ⟨hclosed, fun r hr => get?_congr h hclosed fun c hc => ?_⟩
    rw [hmem c]
    exact and_iff_left (hc ▸ hr)
  · next port _ =>
    generalize hc : ({ id := (s.closeRole role).attempts, role, port, remote } : Channel) = c
    have hrole : c.role = role := hc ▸ rfl
    have hopen : (((s.closeRole role).entries ++ [c]).map (·.role)).Nodup := by
      rw [List.map_append, List.nodup_append]
      refine ⟨hclosed, by simp, fun a ha b hb hab => ?_⟩
      obtain ⟨d, hd, rfl⟩ := List.mem_map.1 ha
      obtain rfl : b = c.role := by simpa using hb
      exact ((hmem d).1 hd).2 (hab.trans hrole)
    refine ⟨hopen, fun r hr => get?_congr h hopen fun d hd => ?_⟩
    have hne : d ≠ c := fun he => hr (hd.symm.trans (he ▸ hrole))
    simp only [List.mem_append, hmem d, List.mem_singleton, hne, or_false]
    exact and_iff_left (hd ▸ hr)

/-- The opener keeps to one channel for each role, and does not touch the others. -/
theorem Distinct.opener (h : s.Distinct) (binder : Binder) (ports : RtpPorts) (ip : IpAddress)
    (role : Role) (remote : Option Endpoint) :
    (ChannelSet.opener binder ports ip role remote s).2.Distinct ∧
      ∀ r, r ≠ role → (ChannelSet.opener binder ports ip role remote s).2.get? r = s.get? r := by
  have hopen := h.openRole binder role ⟨ip, ports.ofRole role⟩ remote
  unfold ChannelSet.opener
  split
  · next heq => rwa [heq] at hopen
  · next heq => rwa [heq] at hopen

/-- The port that the opener gives is that of the channel that is found for the role from then on. -/
theorem get?_of_opener (h : s.Distinct) {ports : RtpPorts} {ip : IpAddress} {port : UInt16}
    (ho : opener binder ports ip role remote s = (.ok port, s')) :
    ∃ c, s'.get? role = some c ∧ c.isOpen = true ∧ c.receiving = true ∧ c.port = port := by
  have hdistinct : s'.Distinct := by
    have hkept := (h.opener binder ports ip role remote).1
    rwa [ho] at hkept
  unfold opener openRole at ho
  simp only at ho
  split at ho
  · next c set hopen =>
    split at hopen
    · simp at hopen
    · simp only [Prod.mk.injEq, Except.ok.injEq] at hopen ho
      obtain ⟨rfl, rfl⟩ := hopen
      obtain ⟨rfl, rfl⟩ := ho
      exact ⟨_, (get?_eq_some_iff hdistinct).2 ⟨by simp, rfl⟩, rfl, rfl, rfl⟩
  · simp at ho

end ChannelSet

namespace Negotiation

variable {σ : Type} {opener : Opener σ} {client : IpAddress} {value : String} {s s' : σ}

/-- The audio channel is the last that a negotiation opens. -/
theorem opens_audio_of_negotiate {t : Transport}
    (h : negotiate opener client value s = (.ok t, s')) :
    ∃ port s₁, opener .audio none s₁ = (.ok port, s') := by
  unfold negotiate at h
  split at h
  · simp at h
  · split at h
    · simp at h
    · rename_i s₁ _
      split at h
      · simp at h
      · rename_i port s₂ hopen
        simp only [Prod.mk.injEq] at h
        obtain ⟨-, rfl⟩ := h
        exact ⟨port, s₁, hopen⟩

end Negotiation
end Raop
