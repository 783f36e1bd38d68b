/-
# Which peer gets a timing response

A request that a peer asks stays open until a request of its key is asked, a
response of its key is taken, or the table is emptied; and what is in the table
is open in this sense (`openSince_of_mem`). So a response of the sender that is
forwarded answers one open request, not too old, and goes to the one channel
that it came from; and as the response closes the request, no other response
answers it.

Key definitions: `Proxy.after`, `Proxy.asks`, `Proxy.askedAt`, `Proxy.answeredAt`,
`Proxy.putAt`, `Proxy.OpenSince`, `Proxy.Served`.
Key theorems: `Proxy.openSince_of_mem`, `Proxy.served_of_forwards`,
`Proxy.responses_routed`.
-/
import Raop.Proofs.Player.Invariant
import Raop.Proofs.Proxy.Inputs

namespace Raop

theorem Channel.remote_of_send {c : Channel} {data : Bytes} {target : Endpoint}
    (h : c.send data = .ok target) : c.remote = some target := by
  unfold send at h
  split at h
  · cases h
  · split at h
    · cases h
    · next hremote =>
      split at h
      · cases h
      · rw [hremote, Except.ok.inj h]

/-- What is delivered goes to one channel, that of its origin. -/
theorem Relay.delivered_ne_nil {r : Relay} {origin : Option (Nat × Nat)} {data : Bytes}
    (h : r.delivered origin data ≠ []) :
    ∃ index id peer c target, origin = some (index, id) ∧ r.peer? index = some peer ∧
      peer.channels.find? id = some c ∧ c.remote = some target ∧
      r.delivered origin data = [.peerDatagram index c.role target data] := by
  rcases origin with _ | ⟨index, id⟩
  · exact absurd rfl h
  · cases hpeer : r.peer? index with
    | none => simp [delivered, hpeer] at h
    | some peer =>
      cases hc : peer.channels.find? id with
      | none => simp [delivered, hpeer, hc] at h
      | some c =>
        cases hsend : c.send data with
        | error e => simp [delivered, hpeer, hc, toPeer, hsend] at h
        | ok target =>
          exact ⟨index, id, peer, c, target, rfl, hpeer, hc, Channel.remote_of_send hsend,
            by simp [delivered, hpeer, hc, toPeer, hsend, index_of_peer? hpeer]⟩

namespace Proxy

/-- The session after the first inputs. -/
def after (ctx : ProxyContext) (p : Proxy) (inputs : List Input) (k : Nat) : Proxy :=
  p.run ctx (inputs.take k)

/-- The timing requests of the peers that are observed with inputs. -/
def asks (ctx : ProxyContext) : Proxy → List Input → List (TimingEntry (Nat × Nat))
  | _, [] => []
  | p, i :: inputs => (p.asked? i).toList ++ asks ctx (p.take ctx i) inputs

/-- The timing request that is observed with the input at a position. -/
def askedAt (ctx : ProxyContext) (p : Proxy) (inputs : List Input) (k : Nat) :
    Option (TimingEntry (Nat × Nat)) :=
  inputs[k]?.bind (p.after ctx inputs k).asked?

/-- The timing response that is taken with the input at a position. -/
def answeredAt (ctx : ProxyContext) (p : Proxy) (inputs : List Input) (k : Nat) : Option TimingAnswer :=
  inputs[k]?.bind (p.after ctx inputs k).answered?

/-- What is put out with the input at a position. -/
def putAt (ctx : ProxyContext) (p : Proxy) (inputs : List Input) (k : Nat) : List Output :=
  (p.after ctx inputs (k + 1)).output.drop (p.after ctx inputs k).output.length

variable {ctx : ProxyContext} {p : Proxy} {inputs : List Input} {i : Input} {j k : Nat}
  {e : TimingEntry (Nat × Nat)} {a : TimingAnswer}

theorem after_succ (ctx : ProxyContext) (p : Proxy) (h : inputs[k]? = some i) :
    p.after ctx inputs (k + 1) = (p.after ctx inputs k).take ctx i := by
  simp only [after, List.take_add_one, h, run_append]
  rfl

theorem after_of_length_le (ctx : ProxyContext) (p : Proxy) (h : inputs[k]? = none) :
    p.after ctx inputs (k + 1) = p.after ctx inputs k := by
  simp only [after, List.take_add_one, h, Option.toList_none, List.append_nil]

theorem output_after_succ (ctx : ProxyContext) (p : Proxy) (inputs : List Input) (k : Nat) :
    (p.after ctx inputs (k + 1)).output = (p.after ctx inputs k).output ++ p.putAt ctx inputs k := by
  obtain ⟨out, hout⟩ : ∃ out, (p.after ctx inputs (k + 1)).output =
      (p.after ctx inputs k).output ++ out := by
    cases hi : inputs[k]? with
    | none => exact ⟨[], by rw [after_of_length_le ctx p hi, List.append_nil]⟩
    | some i =>
      rw [after_succ ctx p hi]
      exact output_take ctx _ i
  rw [putAt, hout, List.drop_left]

/-! ### The table along a run -/

/-- What is in the table after an input was observed with it, or was there and has a key that the input
did not concern. -/
theorem mem_keys_take (ctx : ProxyContext) (h : e ∈ (p.take ctx i).relay.keys.entries) :
    p.asked? i = some e ∨ e ∈ p.relay.keys.entries ∧
      (∀ e', p.asked? i = some e' → e'.key ≠ e.key) ∧ ∀ a, p.answered? i = some a → a.key ≠ e.key := by
  rcases keys_take ctx p i with
    ⟨e', hasked, hanswered, hkeys⟩ | ⟨a, hasked, hanswered, hkeys⟩ | ⟨hasked, hanswered, hkeys⟩
  · rw [hkeys] at h
    rcases TimingKeys.mem_observe.1 h with rfl | ⟨hmem, hne, -⟩
    · exact Or.inl hasked
    · refine Or.inr ⟨hmem, fun e'' he => ?_, by simp [hanswered]⟩
      rw [hasked] at he
      obtain rfl := Option.some.inj he
      exact Ne.symm hne
  · rw [hkeys] at h
    obtain ⟨hmem, hne⟩ := TimingKeys.mem_resolve.1 h
    refine Or.inr ⟨hmem, by simp [hasked], fun a' ha => ?_⟩
    rw [hanswered] at ha
    obtain rfl := Option.some.inj ha
    exact Ne.symm hne
  · refine Or.inr ⟨?_, by simp [hasked], by simp [hanswered]⟩
    rcases hkeys with hkeys | hkeys
    · rwa [hkeys] at h
    · rw [hkeys] at h
      cases h

theorem ttl_take (ctx : ProxyContext) (p : Proxy) (i : Input) :
    (p.take ctx i).relay.keys.ttl = p.relay.keys.ttl := by
  rcases keys_take ctx p i with ⟨e, -, -, hkeys⟩ | ⟨a, -, -, hkeys⟩ | ⟨-, -, hkeys | hkeys⟩ <;>
    simp [hkeys]

theorem ttl_after (ctx : ProxyContext) (p : Proxy) (inputs : List Input) (k : Nat) :
    (p.after ctx inputs k).relay.keys.ttl = p.relay.keys.ttl := by
  induction k with
  | zero => rfl
  | succ k ih =>
    cases hi : inputs[k]? with
    | none => rw [after_of_length_le ctx p hi, ih]
    | some i => rw [after_succ ctx p hi, ttl_take, ih]

/-- A request was observed at `j`, and at `k` it is open still: it was in the table all the time, and
nothing of its key was observed or taken since. -/
structure OpenSince (ctx : ProxyContext) (p : Proxy) (inputs : List Input) (j k : Nat)
    (e : TimingEntry (Nat × Nat)) : Prop where
  lt : j < k
  asked : p.askedAt ctx inputs j = some e
  kept : ∀ i, j < i → i ≤ k → e ∈ (p.after ctx inputs i).relay.keys.entries
  unasked : ∀ i, j < i → i < k → ∀ e', p.askedAt ctx inputs i = some e' → e'.key ≠ e.key
  unanswered : ∀ i, j < i → i < k → ∀ a, p.answeredAt ctx inputs i = some a → a.key ≠ e.key

/-- An open request stays open with an input that does not concern its key and leaves it in the
table. -/
theorem OpenSince.succ (h : p.OpenSince ctx inputs j k e)
    (hmem : e ∈ (p.after ctx inputs (k + 1)).relay.keys.entries)
    (hasked : ∀ e', p.askedAt ctx inputs k = some e' → e'.key ≠ e.key)
    (hanswered : ∀ a, p.answeredAt ctx inputs k = some a → a.key ≠ e.key) :
    p.OpenSince ctx inputs j (k + 1) e where
  lt := Nat.lt_succ_of_lt h.lt
  asked := h.asked
  kept i hj hi := by
    rcases Nat.lt_or_eq_of_le hi with hlt | rfl
    · exact h.kept i hj (Nat.le_of_lt_succ hlt)
    · exact hmem
  unasked i hj hi := by
    rcases Nat.lt_or_eq_of_le (Nat.le_of_lt_succ hi) with hlt | rfl
    · exact h.unasked i hj hlt
    · exact hasked
  unanswered i hj hi := by
    rcases Nat.lt_or_eq_of_le (Nat.le_of_lt_succ hi) with hlt | rfl
    · exact h.unanswered i hj hlt
    · exact hanswered

/-- What is in the table was observed, and is open since. -/
theorem openSince_of_mem (ctx : ProxyContext) (inputs : List Input) (hnil : p.relay.keys.entries = [])
    (k : Nat) : ∀ e, e ∈ (p.after ctx inputs k).relay.keys.entries →
      ∃ j, p.OpenSince ctx inputs j k e := by
  induction k with
  | zero =>
    intro e he
    have hmem : e ∈ p.relay.keys.entries := he
    rw [hnil] at hmem
    cases hmem
  | succ k ih =>
    intro e he
    cases hi : inputs[k]? with
    | none =>
      have hmem := he
      rw [after_of_length_le ctx p hi] at hmem
      obtain ⟨j, hopen⟩ := ih e hmem
      exact ⟨j, hopen.succ he (by simp [askedAt, hi]) (by simp [answeredAt, hi])⟩
    | some i =>
      have hmem := he
      rw [after_succ ctx p hi] at hmem
      have hasked : p.askedAt ctx inputs k = (p.after ctx inputs k).asked? i := by simp [askedAt, hi]
      have hanswered : p.answeredAt ctx inputs k = (p.after ctx inputs k).answered? i := by
        simp [answeredAt, hi]
      rcases mem_keys_take ctx hmem with hnew | ⟨hold, hne, hne'⟩
      · refine ⟨k, Nat.lt_succ_self k, hasked.trans hnew, fun i' hj hi' => ?_, ?_, ?_⟩
        · obtain rfl : i' = k + 1 := by omega
          exact he
        · intro i' hj hi'
          omega
        · intro i' hj hi'
          omega
      · obtain ⟨j, hopen⟩ := ih e hold
        exact ⟨j, hopen.succ he (by rwa [hasked]) (by rwa [hanswered])⟩

/-! ### Responses -/

/-- The timing response that is taken at a position is forwarded. -/
def Forwards (ctx : ProxyContext) (p : Proxy) (inputs : List Input) (k : Nat) (a : TimingAnswer) : Prop :=
  p.answeredAt ctx inputs k = some a ∧ p.putAt ctx inputs k ≠ []

/-- A response that is taken at `k` is what a request comes to that was observed at `j`: the request is
open, it has the key of the response, it is not older than it may be, and one datagram is put out, the
response, on the channel that the request came from. -/
structure Served (ctx : ProxyContext) (p : Proxy) (inputs : List Input) (j k : Nat)
    (e : TimingEntry (Nat × Nat)) (a : TimingAnswer) : Prop where
  openSince : p.OpenSince ctx inputs j k e
  key_eq : e.key = a.key
  in_time : a.arrived ≤ e.seen + p.relay.keys.ttl
  put_eq : ∃ peer c target, (p.after ctx inputs k).relay.peer? e.origin.1 = some peer ∧
    peer.channels.find? e.origin.2 = some c ∧ c.remote = some target ∧
    p.putAt ctx inputs k = [.peerDatagram e.origin.1 c.role target a.data]

theorem served_of_forwards (hnil : p.relay.keys.entries = []) (h : p.Forwards ctx inputs k a) :
    ∃ j e, p.Served ctx inputs j k e a := by
  obtain ⟨hanswered, hput⟩ := h
  obtain ⟨i, hi, htaken⟩ := Option.bind_eq_some_iff.1 hanswered
  -- what is put out is what is delivered to the origin of the entry resolved
  have hputAt : p.putAt ctx inputs k = (p.after ctx inputs k).relay.delivered
      ((p.after ctx inputs k).relay.keys.resolve a.arrived a.key).1 a.data := by
    have houtput := congrArg (·.output) (take_answered ctx htaken
      (p.after ctx inputs k).relay.keys (p.after ctx inputs k).output)
    have hput := output_after_succ ctx p inputs k
    rw [after_succ ctx p hi] at hput
    exact List.append_cancel_left (hput.symm.trans houtput)
  rw [hputAt] at hput
  obtain ⟨index, id, peer, c, target, horigin, hpeer, hc, htarget, hdelivered⟩ :=
    Relay.delivered_ne_nil hput
  obtain ⟨e, he, hkey, hfresh, heorigin⟩ := TimingKeys.resolve_eq_some horigin
  obtain ⟨j, hopen⟩ := openSince_of_mem ctx inputs hnil k e he
  refine ⟨j, e, hopen, hkey, ?_, peer, c, target, ?_⟩
  · rw [ttl_after] at hfresh
    simpa [TimingKeys.fresh] using hfresh
  · rw [heorigin]
    exact ⟨hpeer, hc, htarget, hputAt.trans hdelivered⟩

/-- A request is answered by one response at most. -/
theorem Served.unique {k' : Nat} {e' : TimingEntry (Nat × Nat)} {a' : TimingAnswer}
    (h : p.Served ctx inputs j k e a) (h' : p.Served ctx inputs j k' e' a')
    (hforwards : p.Forwards ctx inputs k a) (hforwards' : p.Forwards ctx inputs k' a') : k = k' := by
  have he : e = e' := Option.some.inj (h.openSince.asked.symm.trans h'.openSince.asked)
  subst he
  -- the earlier one of two responses would have closed the request
  rcases Nat.lt_trichotomy k k' with hlt | heq | hlt
  · exact absurd h.key_eq.symm (h'.openSince.unanswered k h.openSince.lt hlt a hforwards.1)
  · exact heq
  · exact absurd h'.key_eq.symm (h.openSince.unanswered k' h'.openSince.lt hlt a' hforwards'.1)

theorem mem_asks_of_askedAt (ctx : ProxyContext) : ∀ (inputs : List Input) (p : Proxy) (k : Nat),
    p.askedAt ctx inputs k = some e → e ∈ p.asks ctx inputs
  | [], p, k, h => by simp [askedAt] at h
  | i :: inputs, p, 0, h => by
    have hasked : p.asked? i = some e := h
    simp [asks, hasked]
  | i :: inputs, p, k + 1, h =>
    List.mem_append_right _ (mem_asks_of_askedAt ctx inputs (p.take ctx i) k h)

/-- **Which peer gets a timing response.** If requests from different channels of peers have different
keys, each response that is forwarded goes to the one channel from where a request of its key came; that
request is open and not too old; and no two responses are forwarded for one request. -/
theorem responses_routed (ctx : ProxyContext) (client localEnd : Endpoint) (inputs : List Input)
    (hkeys : ∀ e ∈ (ofClient ctx client localEnd).asks ctx inputs,
      ∀ e' ∈ (ofClient ctx client localEnd).asks ctx inputs, e.key = e'.key → e.origin = e'.origin) :
    ∃ request : Nat → Nat,
      (∀ k a, (ofClient ctx client localEnd).Forwards ctx inputs k a →
        ∃ e, (ofClient ctx client localEnd).Served ctx inputs (request k) k e a ∧
          ∀ e' ∈ (ofClient ctx client localEnd).asks ctx inputs, e'.key = a.key → e'.origin = e.origin) ∧
      ∀ k k' a a', (ofClient ctx client localEnd).Forwards ctx inputs k a →
        (ofClient ctx client localEnd).Forwards ctx inputs k' a' → request k = request k' → k = k' := by
  generalize hp : ofClient ctx client localEnd = p at hkeys ⊢
  have hserved : ∀ k, ∃ j, ∀ a, p.Forwards ctx inputs k a → ∃ e, p.Served ctx inputs j k e a := by
    intro k
    by_cases h : ∃ a, p.Forwards ctx inputs k a
    · obtain ⟨a, ha⟩ := h
      obtain ⟨j, e, he⟩ := served_of_forwards (by rw [← hp]; rfl) ha
      refine ⟨j, fun a' ha' => ⟨e, ?_⟩⟩
      obtain rfl : a = a' := Option.some.inj (ha.1.symm.trans ha'.1)
      exact he
    · exact ⟨0, fun a ha => absurd ⟨a, ha⟩ h⟩
  choose request hrequest using hserved
  refine ⟨request, fun k a ha => ?_, fun k k' a a' ha ha' heq => ?_⟩
  · obtain ⟨e, he⟩ := hrequest k a ha
    refine ⟨e, he, fun e' hmem hkey => hkeys e' hmem e ?_ (hkey.trans he.key_eq.symm)⟩
    exact mem_asks_of_askedAt ctx inputs p _ he.openSince.asked
  · obtain ⟨e, he⟩ := hrequest k a ha
    obtain ⟨e', he'⟩ := hrequest k' a' ha'
    rw [heq] at he
    exact he.unique he' ha ha'

/-- A proxy with two peers. -/
def pairContext : ProxyContext where
  config := { peers := [⟨"10.0.0.2", 5000⟩, ⟨"10.0.0.3", 5000⟩] }
  binder := .successive 6000 none true
  peerBinder _ := .successive 7000 none true

def pairStart : Proxy := ofClient pairContext default default

/-- What a peer answers to the SETUP. -/
def pairAnswer : Bytes :=
  Text.encode ("RTSP/1.0 200 OK\r\n" ++
    "Transport: RTP/AVP/UDP;server_port=9000;control_port=9001;timing_port=9002\r\n\r\n")

/-- A stream is announced and set up, until the channels to the sender and to both peers are there. -/
def pairJoin : List Input :=
  [.request pairContext.binder pairContext.peerBinder default PlayerSession.announceLossless,
    .met (.connected default 0 default), .met (.connected default 1 default), .answerTaken,
    .request pairContext.binder pairContext.peerBinder default
      (setupWith "RTP/AVP/UDP;control_port=6001;timing_port=6002"),
    .met (.peerData pairContext.peerBinder 0 pairAnswer),
    .met (.peerData pairContext.peerBinder 1 pairAnswer)]

/-- A peer asks for the time. -/
def pairRequest (index : Nat) : Input :=
  .met (.peerDatagram ⟨index, {}⟩ index .timing ⟨default, 9002⟩
    (TimingPacket.request 0 ⟨0, .ofNat index⟩).encode)

/-- The sender answers it. -/
def pairResponse (index : Nat) : Input :=
  .met (.datagram ⟨3 - index, {}⟩ .timing ⟨default, 6002⟩
    ((TimingPacket.request 0 ⟨0, .ofNat index⟩).respond {} {}).encode)

/-- Both peers ask, and are answered the other way round. -/
def pairRun : List Input := pairJoin ++ [pairRequest 0, pairRequest 1, pairResponse 1, pairResponse 0]

theorem asks_pairRun :
    pairStart.asks pairContext pairRun = [⟨0, (0, 1), 0⟩, ⟨1, (1, 1), 1⟩] := by
  decide +kernel

/-- Both responses are forwarded, each to the peer that asked. -/
theorem responses_routed_pairRun :
    (∃ j e a, pairStart.Served pairContext pairRun j 9 e a ∧ e.origin.1 = 1) ∧
      ∃ j e a, pairStart.Served pairContext pairRun j 10 e a ∧ e.origin.1 = 0 := by
  have hforwards : ∀ index ∈ [0, 1], ∃ a, a.key = .ofNat index ∧
      pairStart.Forwards pairContext pairRun (10 - index) a := by
    have hrun : ∀ index ∈ [0, 1],
        (pairStart.answeredAt pairContext pairRun (10 - index)).map (·.key) = some (.ofNat index) ∧
        (pairStart.putAt pairContext pairRun (10 - index)).isEmpty = false := by
      decide +kernel
    intro index hindex
    obtain ⟨hanswered, hput⟩ := hrun index hindex
    obtain ⟨a, ha, hkey⟩ := Option.map_eq_some_iff.1 hanswered
    exact ⟨a, hkey, ha, by simpa using hput⟩
  obtain ⟨request, hserved, -⟩ := responses_routed pairContext default default pairRun (by
    change ∀ e ∈ pairStart.asks pairContext pairRun, ∀ e' ∈ pairStart.asks pairContext pairRun, _
    rw [asks_pairRun]
    decide)
  obtain ⟨a, hkey, ha⟩ := hforwards 1 (by decide)
  obtain ⟨b, hkey', hb⟩ := hforwards 0 (by decide)
  obtain ⟨e, he, horigin⟩ := hserved 9 a ha
  obtain ⟨d, hd, horigin'⟩ := hserved 10 b hb
  refine ⟨⟨_, e, a, he, ?_⟩, _, d, b, hd, ?_⟩
  · rw [← horigin ⟨1, (1, 1), 1⟩ ?_ hkey.symm]
    change _ ∈ pairStart.asks pairContext pairRun
    rw [asks_pairRun]
    decide
  · rw [← horigin' ⟨0, (0, 1), 0⟩ ?_ hkey'.symm]
    change _ ∈ pairStart.asks pairContext pairRun
    rw [asks_pairRun]
    decide

end Proxy
end Raop
