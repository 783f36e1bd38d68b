/-
# Peers do not disturb one another

Two runs are compared: a run, and the run in which one peer sends no datagram.
The peers share the table of timing requests, so the two tables differ: a
request of the silent peer is missing from one of them, and it is when a request
is observed that entries too old leave the other. The entries of the other
peers that are not too old are the same in both (`Alike`). No later input tells
more than that apart, as long as the clock does not run backwards, and so the
other peers are sent the same datagrams in the same order.

Key definitions: `Proxy.sentTo`, `Proxy.without`, `Proxy.Alike`.
Key theorems: `Proxy.Alike.skip`, `Proxy.Alike.take`, `Proxy.sent_without`.
-/
import Raop.Proofs.Proxy.TimingRoutes

namespace Raop
namespace Proxy

/-- The datagrams sent to a peer, each with its channel, in order. -/
def sentTo (index : Nat) (out : List Output) : List (Role × Endpoint × Bytes) :=
  out.filterMap fun o => match o with
    | .peerDatagram other role target data =>
      if other = index then some (role, target, data) else none
    | _ => none

/-- When a datagram arrives. -/
def Input.arrival? : Input → Option Nat
  | .met (.datagram now _ _ _) | .met (.peerDatagram now _ _ _ _) => some now.ticks
  | _ => none

/-- A datagram of a peer. -/
def Input.isOf (index : Nat) : Input → Bool
  | .met (.peerDatagram _ other _ _ _) => other = index
  | _ => false

/-- The inputs without the datagrams of a peer. -/
def without (index : Nat) (inputs : List Input) : List Input :=
  inputs.filter fun i => !i.isOf index

theorem Input.exists_of_isOf {index : Nat} {i : Input} (h : i.isOf index = true) :
    ∃ now role source data, i = .met (.peerDatagram now index role source data) := by
  unfold Input.isOf at h
  split at h
  · next now other role source data =>
    obtain rfl : other = index := by simpa using h
    exact ⟨now, role, source, data, rfl⟩
  · cases h

theorem Input.eq_of_isOf {index other : Nat} {i : Input} (h : i.isOf index = true)
    (h' : i.isOf other = true) : index = other := by
  obtain ⟨now, role, source, data, rfl⟩ := exists_of_isOf h
  simpa [isOf] using h'

@[simp] theorem sentTo_append (index : Nat) (out out' : List Output) :
    sentTo index (out ++ out') = sentTo index out ++ sentTo index out' :=
  List.filterMap_append

theorem sentTo_eq_nil {index : Nat} {out : List Output}
    (h : ∀ other role target data, Output.peerDatagram other role target data ∈ out →
      other ≠ index) : sentTo index out = [] := by
  refine List.filterMap_eq_nil_iff.2 fun o ho => ?_
  split
  · next other role target data => exact if_neg (h other role target data ho)
  · rfl

/-- What a peer is sent for a response depends on whether the response is for it alone. -/
theorem sentTo_delivered_congr {r : Relay} {origin origin' : Option (Nat × Nat)} {index : Nat}
    (h : ∀ id, origin = some (index, id) ↔ origin' = some (index, id)) (data : Bytes) :
    sentTo index (r.delivered origin data) = sentTo index (r.delivered origin' data) := by
  have hother (o : Option (Nat × Nat)) (hne : ∀ id, o ≠ some (index, id)) :
      sentTo index (r.delivered o data) = [] := by
    refine sentTo_eq_nil fun other role target sent hmem hindex => ?_
    obtain ⟨index', id, peer, c, target', rfl, -, -, -, hdelivered⟩ :=
      Relay.delivered_ne_nil (List.ne_nil_of_mem hmem)
    rw [hdelivered, List.mem_singleton, Output.peerDatagram.injEq] at hmem
    exact hne id (by rw [← hindex, hmem.1])
  by_cases hid : ∃ id, origin = some (index, id)
  · obtain ⟨id, hid⟩ := hid
    rw [hid, (h id).1 hid]
  · rw [hother origin fun id heq => hid ⟨id, heq⟩,
      hother origin' fun id heq => hid ⟨id, (h id).2 heq⟩]

variable {ctx : ProxyContext} {p q : Proxy} {i : Input} {A now later : Nat}
  {e : TimingEntry (Nat × Nat)} {a : TimingAnswer}

theorem of_asked? (h : p.asked? i = some e) : i.arrival? = some e.seen ∧ i.isOf e.origin.1 = true := by
  unfold asked? at h
  split at h
  · next now index source data =>
    simp only [Option.bind_eq_some_iff, Option.map_eq_some_iff] at h
    obtain ⟨⟨peer, c⟩, -, key, -, rfl⟩ := h
    simp [Input.arrival?, Input.isOf]
  · cases h

theorem arrival_of_answered? (h : p.answered? i = some a) : i.arrival? = some a.arrived := by
  unfold answered? at h
  split at h
  · simp only [Option.bind_eq_some_iff, Option.map_eq_some_iff] at h
    obtain ⟨c, -, key, -, rfl⟩ := h
    rfl
  · cases h

/-- What is in the table after an input was in it before, or is asked with the input. -/
theorem mem_keys_or_asks_of_take {inputs : List Input}
    (h : e ∈ (p.take ctx i).relay.keys.entries ++ (p.take ctx i).asks ctx inputs) :
    e ∈ p.relay.keys.entries ++ p.asks ctx (i :: inputs) := by
  simp only [asks, List.mem_append, Option.mem_toList] at h ⊢
  rcases h with h | h
  · rcases mem_keys_take ctx h with hasked | ⟨hold, -⟩
    · exact Or.inr (Or.inl hasked)
    · exact Or.inl hold
  · exact Or.inr (Or.inr h)

/-- Two sessions are the same but for what peer `A` did with its datagrams: their tables have the same
entries of other peers that are not too old at `now`, and the other peers were sent the same. -/
structure Alike (A now : Nat) (p q : Proxy) : Prop where
  eq_swap : q = p.swap q.relay.keys q.output
  distinct_left : p.relay.keys.Distinct
  distinct_right : q.relay.keys.Distinct
  ttl_eq : q.relay.keys.ttl = p.relay.keys.ttl
  mem_iff : ∀ e, e.origin.1 ≠ A → TimingKeys.fresh p.relay.keys.ttl now e = true →
    (e ∈ q.relay.keys.entries ↔ e ∈ p.relay.keys.entries)
  sent_eq : ∀ B, B ≠ A → sentTo B q.output = sentTo B p.output

namespace Alike

theorem refl (h : p.relay.keys.Distinct) : Alike A now p p :=
  ⟨rfl, h, h, rfl, fun _ _ _ => Iff.rfl, fun _ _ => rfl⟩

/-- As time passes there is less to tell apart. -/
theorem mono (h : Alike A now p q) (hle : now ≤ later) : Alike A later p q :=
  { h with mem_iff := fun e he hfresh => h.mem_iff e he (TimingKeys.fresh_of_le hle hfresh) }

/-- A datagram of `A` is taken in one of the sessions. Its key is not that of another peer's entry. -/
theorem skip (h : Alike A now p q) (hof : i.isOf A = true)
    (hnow : ∀ t, i.arrival? = some t → t = now)
    (hkeys : ∀ e', p.asked? i = some e' → ∀ e ∈ p.relay.keys.entries, e.origin.1 ≠ A →
      e.key ≠ e'.key) : Alike A now (p.take ctx i) q := by
  obtain ⟨time, role, source, data, rfl⟩ := Input.exists_of_isOf hof
  obtain ⟨out, hout, htake⟩ := take_peerDatagram ctx p time A role source data
  have hself := htake p.relay.keys p.output
  have hsent : ∀ B, B ≠ A → sentTo B q.output = sentTo B (p.output ++ out) := by
    intro B hB
    have hnone : sentTo B out = [] := sentTo_eq_nil fun other r target sent hmem heq =>
      hB (heq.symm.trans (hout other r target sent hmem))
    rw [sentTo_append, hnone, List.append_nil, h.sent_eq B hB]
  cases hasked : p.asked? (.met (.peerDatagram time A role source data)) with
  | none =>
    have htaken : p.take ctx (.met (.peerDatagram time A role source data)) =
        p.swap p.relay.keys (p.output ++ out) := by
      rw [hasked] at hself
      exact hself
    rw [htaken]
    exact ⟨h.eq_swap, h.distinct_left, h.distinct_right, h.ttl_eq, h.mem_iff, hsent⟩
  | some e' =>
    have htaken : p.take ctx (.met (.peerDatagram time A role source data)) =
        p.swap (p.relay.keys.observe e'.seen e'.key e'.origin) (p.output ++ out) := by
      rw [hasked] at hself
      exact hself
    obtain ⟨harrival, hindex⟩ := of_asked? hasked
    have horigin : e'.origin.1 = A := Input.eq_of_isOf hindex hof
    have hseen : e'.seen = now := hnow _ harrival
    rw [htaken]
    refine ⟨h.eq_swap, h.distinct_left.observe .., h.distinct_right, h.ttl_eq, ?_, hsent⟩
    intro e he hfresh
    have hfresh' : TimingKeys.fresh p.relay.keys.ttl now e = true := hfresh
    refine (h.mem_iff e he hfresh').trans (Iff.trans ?_ TimingKeys.mem_observe.symm)
    refine ⟨fun hmem => Or.inr ⟨hmem, hkeys e' hasked e hmem he, hseen ▸ hfresh'⟩, ?_⟩
    rintro (rfl | ⟨hmem, -⟩)
    · exact absurd horigin he
    · exact hmem

theorem sent_append (h : Alike A now p q) (out : List Output) (B : Nat) (hB : B ≠ A) :
    sentTo B (q.output ++ out) = sentTo B (p.output ++ out) := by
  rw [sentTo_append, sentTo_append, h.sent_eq B hB]

/-- A request is entered in both tables. -/
theorem observe (h : Alike A now p q) (e : TimingEntry (Nat × Nat)) (out : List Output) :
    Alike A now (p.swap (p.relay.keys.observe e.seen e.key e.origin) (p.output ++ out))
      (p.swap (q.relay.keys.observe e.seen e.key e.origin) (q.output ++ out)) where
  eq_swap := rfl
  distinct_left := h.distinct_left.observe ..
  distinct_right := h.distinct_right.observe ..
  ttl_eq := h.ttl_eq
  mem_iff d hd hfresh := by
    refine TimingKeys.mem_observe.trans (Iff.trans ?_ TimingKeys.mem_observe.symm)
    rw [h.mem_iff d hd hfresh, h.ttl_eq]
  sent_eq := h.sent_append out

/-- A response is resolved in both tables. It comes to the same peer with both, or to none but `A`. -/
theorem resolve (h : Alike A now p q) (harrived : a.arrived = now) :
    Alike A now
      (p.swap (p.relay.keys.resolve a.arrived a.key).2
        (p.output ++ p.relay.delivered (p.relay.keys.resolve a.arrived a.key).1 a.data))
      (p.swap (q.relay.keys.resolve a.arrived a.key).2
        (q.output ++ p.relay.delivered (q.relay.keys.resolve a.arrived a.key).1 a.data)) where
  eq_swap := rfl
  distinct_left := h.distinct_left.resolve ..
  distinct_right := h.distinct_right.resolve ..
  ttl_eq := by simp [swap, h.ttl_eq]
  mem_iff e he hfresh := by
    have hfresh' : TimingKeys.fresh p.relay.keys.ttl now e = true := by simpa [swap] using hfresh
    refine TimingKeys.mem_resolve.trans (Iff.trans ?_ TimingKeys.mem_resolve.symm)
    rw [h.mem_iff e he hfresh']
  sent_eq B hB := by
    change sentTo B (q.output ++ _) = sentTo B (p.output ++ _)
    rw [sentTo_append, sentTo_append, h.sent_eq B hB]
    refine congrArg (sentTo B p.output ++ ·) (sentTo_delivered_congr (fun id => ?_) a.data)
    rw [TimingKeys.resolve_eq_some_iff h.distinct_right, TimingKeys.resolve_eq_some_iff h.distinct_left,
      h.ttl_eq, harrived]
    refine exists_congr fun e => ⟨?_, ?_⟩
    · rintro ⟨hmem, hkey, hfresh, horigin⟩
      exact ⟨(h.mem_iff e (by rw [horigin]; exact hB) hfresh).1 hmem, hkey, hfresh, horigin⟩
    · rintro ⟨hmem, hkey, hfresh, horigin⟩
      exact ⟨(h.mem_iff e (by rw [horigin]; exact hB) hfresh).2 hmem, hkey, hfresh, horigin⟩

/-- Both sessions become another one, in which the tables are as they were or empty. -/
theorem aside (h : Alike A now p q) (p' : Proxy) (forget : Bool) (out : List Output) :
    Alike A now
      (p'.swap (if forget then p.relay.keys.clear else p.relay.keys) (p.output ++ out))
      (p'.swap (if forget then q.relay.keys.clear else q.relay.keys) (q.output ++ out)) := by
  cases forget with
  | true =>
    exact ⟨rfl, TimingKeys.distinct_of_entries_eq_nil rfl, TimingKeys.distinct_of_entries_eq_nil rfl,
      h.ttl_eq, fun _ _ _ => Iff.rfl, h.sent_append out⟩
  | false => exact ⟨rfl, h.distinct_left, h.distinct_right, h.ttl_eq, h.mem_iff, h.sent_append out⟩

/-- Both sessions take an input. -/
theorem take (h : Alike A now p q) (hnow : ∀ t, i.arrival? = some t → t = now) :
    Alike A now (p.take ctx i) (q.take ctx i) := by
  rcases take_cases ctx p i with
    ⟨e, out, -, -, htake⟩ | ⟨a, -, hanswered, htake⟩ | ⟨-, -, forget, out, htake⟩
  · have hleft : p.take ctx i = p.swap (p.relay.keys.observe e.seen e.key e.origin) (p.output ++ out) :=
      htake p.relay.keys p.output
    rw [h.eq_swap, hleft, htake]
    exact h.observe e out
  · have hleft : p.take ctx i = p.swap (p.relay.keys.resolve a.arrived a.key).2
        (p.output ++ p.relay.delivered (p.relay.keys.resolve a.arrived a.key).1 a.data) :=
      htake p.relay.keys p.output
    rw [h.eq_swap, hleft, htake]
    exact h.resolve (hnow _ (arrival_of_answered? hanswered))
  · have hleft : p.take ctx i = (p.take ctx i).swap
        (if forget then p.relay.keys.clear else p.relay.keys) (p.output ++ out) :=
      htake p.relay.keys p.output
    have hright : q.take ctx i = (p.take ctx i).swap
        (if forget then q.relay.keys.clear else q.relay.keys) (q.output ++ out) := by
      rw [h.eq_swap]
      exact htake _ _
    rw [hright]
    generalize p.take ctx i = p' at hleft ⊢
    rw [hleft]
    exact h.aside p' forget out

/-- Sessions that are alike send the other peers the same, whatever follows. -/
theorem sent_run : ∀ (inputs : List Input) {p q : Proxy} {now : Nat}, Alike A now p q →
    (now :: inputs.filterMap Input.arrival?).Pairwise (· ≤ ·) →
    (∀ e ∈ p.relay.keys.entries ++ p.asks ctx inputs,
      ∀ e' ∈ p.relay.keys.entries ++ p.asks ctx inputs,
      e.origin.1 = A → e'.origin.1 ≠ A → e.key ≠ e'.key) →
    ∀ B, B ≠ A → sentTo B (q.run ctx (without A inputs)).output = sentTo B (p.run ctx inputs).output
  | [], _, _, _, h, _, _ => h.sent_eq
  | i :: inputs, p, q, now, h, hsorted, hkeys => by
    -- the time when this input is taken
    obtain ⟨later, hle, hnow, hsorted'⟩ : ∃ later, now ≤ later ∧
        (∀ t, i.arrival? = some t → t = later) ∧
        (later :: inputs.filterMap Input.arrival?).Pairwise (· ≤ ·) := by
      cases harrival : i.arrival? with
      | none =>
        rw [List.filterMap_cons_none harrival] at hsorted
        exact ⟨now, le_rfl, by simp, hsorted⟩
      | some t =>
        rw [List.filterMap_cons_some harrival] at hsorted
        obtain ⟨hfirst, hrest⟩ := List.pairwise_cons.1 hsorted
        exact ⟨t, hfirst t (by simp), by simp, hrest⟩
    have hkeys' : ∀ e ∈ (p.take ctx i).relay.keys.entries ++ (p.take ctx i).asks ctx inputs,
        ∀ e' ∈ (p.take ctx i).relay.keys.entries ++ (p.take ctx i).asks ctx inputs,
        e.origin.1 = A → e'.origin.1 ≠ A → e.key ≠ e'.key := fun e he e' he' =>
      hkeys e (mem_keys_or_asks_of_take he) e' (mem_keys_or_asks_of_take he')
    by_cases hof : i.isOf A = true
    · have hskip : without A (i :: inputs) = without A inputs := by simp [without, hof]
      rw [hskip]
      refine sent_run inputs ((h.mono hle).skip hof hnow fun e' hasked e he hother => ?_) hsorted' hkeys'
      have hmem : e' ∈ p.relay.keys.entries ++ p.asks ctx (i :: inputs) := by simp [asks, hasked]
      have horigin : e'.origin.1 = A := Input.eq_of_isOf (of_asked? hasked).2 hof
      exact (hkeys e' hmem e (List.mem_append_left _ he) horigin hother).symm
    · have hkeep : without A (i :: inputs) = i :: without A inputs := by simp [without, hof]
      rw [hkeep]
      exact sent_run inputs ((h.mono hle).take hnow) hsorted' hkeys'

end Alike

/-- **Peers do not disturb one another.** Whatever a session is told, the other peers are sent the same
datagrams on the same channels in the same order without the datagrams of peer `A`, if no other peer's
timing request has the key of one of its own. Datagrams arrive in the order of the clock. -/
theorem sent_without (ctx : ProxyContext) (client localEnd : Endpoint) (inputs : List Input) (A : Nat)
    (hclock : (inputs.filterMap Input.arrival?).Pairwise (· ≤ ·))
    (hkeys : ∀ e ∈ (ofClient ctx client localEnd).asks ctx inputs,
      ∀ e' ∈ (ofClient ctx client localEnd).asks ctx inputs,
      e.origin.1 = A → e'.origin.1 ≠ A → e.key ≠ e'.key) (B : Nat) (hB : B ≠ A) :
    sentTo B ((ofClient ctx client localEnd).run ctx (without A inputs)).output =
      sentTo B ((ofClient ctx client localEnd).run ctx inputs).output := by
  have halike : Alike A 0 (ofClient ctx client localEnd) (ofClient ctx client localEnd) :=
    .refl (TimingKeys.distinct_of_entries_eq_nil rfl)
  refine halike.sent_run inputs ?_ hkeys B hB
  exact List.pairwise_cons.2 ⟨fun _ _ => Nat.zero_le _, hclock⟩

/-- The second peer is sent its response without the first one's request, too. -/
theorem sent_without_pairRun :
    sentTo 1 (pairStart.run pairContext (without 0 pairRun)).output =
        sentTo 1 (pairStart.run pairContext pairRun).output ∧
      (sentTo 1 (pairStart.run pairContext pairRun).output).length = 1 ∧
      (without 0 pairRun).length < pairRun.length := by
  refine ⟨sent_without pairContext default default pairRun 0 (by decide) ?_ 1 (by decide), ?_, ?_⟩
  · change ∀ e ∈ pairStart.asks pairContext pairRun, ∀ e' ∈ pairStart.asks pairContext pairRun, _
    rw [asks_pairRun]
    decide
  · decide +kernel
  · decide

end Proxy
end Raop
