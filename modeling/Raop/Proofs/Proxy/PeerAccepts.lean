/-
# Downstream receivers accept the transport they are given

A negotiation is refused for what the specification says or for a channel that
does not open. What it says is admitted if it can be read, each port is a port
number, and interleaving and mode have the value they must have
(`Negotiation.Admitted`). Any negotiation that succeeds shows this of its
specification, and nothing else is needed where all channels open
(`Negotiation.negotiate_isOk_iff`).

A specification that is passed on to a peer has been read, changed in two ports
at most and written again. All three keep it admitted, whatever the ports, so
no receiver whose channels open refuses it.

Key definitions: `Opener.OpensAll`, `Negotiation.Admitted`, `Negotiation.Accepted`.
Key theorems: `Negotiation.admitted_of_negotiate`, `Negotiation.negotiate_isOk_iff`,
`Peer.accepted_facing`, `Proxy.forwarded_transport_accepted`.
-/
import Raop.Proofs.Proxy.PeerSetup

namespace Raop

open Text

/-- Every channel that is asked for opens. -/
def Opener.OpensAll {σ : Type} (opener : Opener σ) : Prop :=
  ∀ role remote s, ∃ port s', opener role remote s = (.ok port, s')

namespace Negotiation

/-- An option that no session refuses for what it says. -/
structure Admitted (o : TransportOption) : Prop where
  /-- A control or timing port is a port number. -/
  port : ∀ role, roleOf? o.key = some role →
    ∃ value port, o.value = some value ∧ readU16? value.toList = some port
  /-- Interleaving and mode have the one value that is supported. -/
  required : ∀ value, required? o.key = some value → o.value = some value

variable {σ τ : Type} {opener : Opener σ} {client : IpAddress} {s s' : σ}
  {o a : TransportOption} {os as : List TransportOption} {value : String} {sent answer : Transport}

theorem portOf_eq_ok_iff {port : UInt16} :
    portOf o = .ok port ↔ ∃ value, o.value = some value ∧ readU16? value.toList = some port := by
  unfold portOf
  rw [← Option.bind_eq_some_iff]
  constructor
  · intro h
    split at h
    · next p hp =>
      obtain rfl := Except.ok.inj h
      exact hp
    · cases h
  · intro h
    simp only [h]

/-- A key that asks for a channel prescribes no value. -/
theorem required?_of_roleOf? {role : Role} (h : roleOf? o.key = some role) :
    required? o.key = none := by
  rcases roleOf?_eq_some_iff.1 h with ⟨hkey, -⟩ | ⟨hkey, -⟩
  · rw [hkey]
    decide
  · rw [hkey]
    decide

/-! ### Options one after the other -/

theorem admitted_of_answerOption (h : answerOption opener client o s = (.ok a, s')) : Admitted o := by
  unfold answerOption at h
  cases hrole : roleOf? o.key with
  | some role =>
    have hport : ∃ port, portOf o = .ok port := by
      cases hp : portOf o with
      | ok port => exact ⟨port, rfl⟩
      | error e => simp [hrole, hp] at h
    obtain ⟨port, hport⟩ := hport
    obtain ⟨value, hvalue, hread⟩ := portOf_eq_ok_iff.1 hport
    refine ⟨fun _ _ => ⟨value, port, hvalue, hread⟩, fun required hrequired => ?_⟩
    rw [required?_of_roleOf? hrole] at hrequired
    cases hrequired
  | none =>
    refine ⟨fun role hsome => ?_, fun required hrequired => ?_⟩
    · rw [hrole] at hsome
      cases hsome
    · by_contra hne
      simp [hrole, hrequired, hne] at h

/-- An admitted option is answered, under its own key. -/
theorem answerOption_of_admitted (hopens : opener.OpensAll) (client : IpAddress) (s : σ)
    (h : Admitted o) : ∃ a s', answerOption opener client o s = (.ok a, s') ∧ a.key = o.key := by
  unfold answerOption
  cases hrole : roleOf? o.key with
  | some role =>
    obtain ⟨value, port, hvalue, hread⟩ := h.port role hrole
    have hport : portOf o = .ok port := portOf_eq_ok_iff.2 ⟨value, hvalue, hread⟩
    obtain ⟨localPort, s', hopen⟩ := hopens role (some ⟨client, port⟩) s
    exact ⟨o.withValue (natText localPort.toNat), s', by simp only [hport, hopen], rfl⟩
  | none =>
    cases hrequired : required? o.key with
    | some value => exact ⟨o, s, by simp only [h.required value hrequired, if_true], rfl⟩
    | none => exact ⟨o, s, rfl, rfl⟩

theorem admitted_of_answerOptions : ∀ {os as : List TransportOption} {s s' : σ},
    answerOptions opener client os s = (.ok as, s') → ∀ o ∈ os, Admitted o
  | [], _, _, _, _ => by simp
  | o :: os, as, s, s', h => by
    unfold answerOptions at h
    split at h
    · cases h
    · next a s₁ ha =>
      split at h
      · cases h
      · next rest s₂ hrest =>
        intro p hp
        rcases List.mem_cons.1 hp with rfl | hp
        · exact admitted_of_answerOption ha
        · exact admitted_of_answerOptions hrest p hp

theorem answerOptions_of_admitted (hopens : opener.OpensAll) (client : IpAddress) :
    ∀ {os : List TransportOption} (s : σ), (∀ o ∈ os, Admitted o) →
      ∃ as s', answerOptions opener client os s = (.ok as, s') ∧ as.map (·.key) = os.map (·.key)
  | [], s, _ => ⟨[], s, rfl, rfl⟩
  | o :: os, s, h => by
    obtain ⟨a, s₁, ha, hkey⟩ := answerOption_of_admitted hopens client s (h o List.mem_cons_self)
    obtain ⟨as, s₂, has, hkeys⟩ := answerOptions_of_admitted hopens client s₁
      fun p hp => h p (List.mem_cons_of_mem o hp)
    refine ⟨a :: as, s₂, ?_, by rw [List.map_cons, List.map_cons, hkey, hkeys]⟩
    rw [answerOptions]
    simp only [ha, has]

/-! ### The whole specification -/

/-- What was negotiated had options that are all admitted, whatever the channels did. -/
theorem admitted_of_negotiate (h : negotiate opener client value s = (.ok answer, s'))
    (hsent : Transport.parse value = .ok sent) : ∀ o ∈ sent.options, Admitted o := by
  unfold negotiate at h
  rw [hsent] at h
  simp only at h
  split at h
  · cases h
  · next as s₁ has => exact admitted_of_answerOptions has

/-- Admitted options are negotiated where all channels open: each is answered under its key, and the
server port is added. -/
theorem negotiate_of_admitted (hopens : opener.OpensAll) (client : IpAddress) (s : σ)
    (hsent : Transport.parse value = .ok sent) (h : ∀ o ∈ sent.options, Admitted o) :
    ∃ answer s', negotiate opener client value s = (.ok answer, s') ∧
      answer.options.map (·.key) = sent.options.map (·.key) ++ [Transport.serverPort] := by
  obtain ⟨as, s₁, has, hkeys⟩ := answerOptions_of_admitted hopens client s h
  obtain ⟨port, s₂, haudio⟩ := hopens .audio none s₁
  unfold negotiate
  simp only [hsent, has, haudio]
  exact ⟨_, _, rfl, by simp [hkeys]⟩

/-- **What a negotiation asks of a specification**, if all channels open: that it can be read and its
options are admitted. -/
theorem negotiate_isOk_iff (hopens : opener.OpensAll) (client : IpAddress) (s : σ) :
    (∃ answer s', negotiate opener client value s = (.ok answer, s')) ↔
      ∃ sent, Transport.parse value = .ok sent ∧ ∀ o ∈ sent.options, Admitted o := by
  constructor
  · rintro ⟨answer, s', h⟩
    obtain ⟨sent, hsent⟩ := parse_of_negotiate h
    exact ⟨sent, hsent, admitted_of_negotiate h hsent⟩
  · rintro ⟨sent, hsent, h⟩
    obtain ⟨answer, s', hok, -⟩ := negotiate_of_admitted hopens client s hsent h
    exact ⟨answer, s', hok⟩

theorem exists_answer {result : Except Error Transport × σ} (h : result.1.toOption.isSome = true) :
    ∃ answer s', result = (.ok answer, s') := by
  obtain ⟨outcome, s'⟩ := result
  cases outcome with
  | error e => cases h
  | ok answer => exact ⟨answer, s', rfl⟩

/-- No session whose channels open refuses the specification, whoever the client is. -/
def Accepted (value : String) : Prop :=
  ∀ (σ : Type) (opener : Opener σ), opener.OpensAll → ∀ (client : IpAddress) (s : σ),
    ∃ answer s', negotiate opener client value s = (.ok answer, s')

end Negotiation

/-! ### With the ports of a peer -/

namespace Peer

open Negotiation

variable {o : TransportOption} {sent : Transport}

/-- A port number in the place of a port is admitted. -/
theorem admitted_withPort {role : Role} (h : roleOf? o.key = some role) (port : UInt16) :
    Admitted (o.withValue (natText port.toNat)) := by
  refine ⟨fun _ _ => ⟨natText port.toNat, port, rfl, readU16?_natText port⟩, fun value hvalue => ?_⟩
  have hnone : required? (o.withValue (natText port.toNat)).key = none := required?_of_roleOf? h
  rw [hnone] at hvalue
  cases hvalue

theorem admitted_own (h : Admitted o) (control timing : UInt16) : Admitted (own control timing o) := by
  unfold own
  split
  · next hrole => exact admitted_withPort hrole control
  · next hrole => exact admitted_withPort hrole timing
  · exact h

theorem admitted_facing (h : ∀ o ∈ sent.options, Admitted o) (control timing : UInt16) :
    ∀ o ∈ (facing sent control timing).options, Admitted o := by
  intro o ho
  obtain ⟨n, hn⟩ := List.mem_iff_getElem?.1 ho
  rw [getElem?_facing, Option.map_eq_some_iff] at hn
  obtain ⟨a, ha, rfl⟩ := hn
  have hadmitted : Admitted a := h a (List.mem_of_getElem? ha)
  split
  · exact hadmitted
  · exact admitted_own hadmitted control timing

/-- **A specification that was negotiated is accepted with any other ports in it**, once it is
written again. -/
theorem accepted_facing {σ : Type} {opener : Opener σ} {client : IpAddress} {s s' : σ} {value : String}
    {answer : Transport} (h : negotiate opener client value s = (.ok answer, s'))
    (hsent : Transport.parse value = .ok sent) (control timing : UInt16) :
    Accepted (facing sent control timing).render := by
  intro τ downstream hopens sender t
  have hread : Transport.parse (facing sent control timing).render = .ok (facing sent control timing) :=
    Transport.parse_render (readable_facing (Transport.readable_of_parse hsent) control timing)
  have hadmitted := admitted_facing (admitted_of_negotiate h hsent) control timing
  exact (negotiate_isOk_iff hopens sender t).2 ⟨_, hread, hadmitted⟩

end Peer

namespace Proxy

open Negotiation

variable {ctx : ProxyContext} {now : Moment} {request : Request} {p : Proxy} {value : String}
  {answer : Transport} {channels : ChannelSet}

/-- **A transport that the proxy negotiates is refused by no receiver behind it.** With any two ports in
it, it is accepted by every session whose channels open; and what a peer is given for the SETUP is the
transport with two ports in it. -/
theorem forwarded_transport_accepted (hm : request.method = .setup) (hstate : p.state = .announced)
    (hvalue : request.headers.transport? = some value)
    (hneg : Negotiation.negotiate (ChannelSet.opener ctx.binder ctx.config.localPorts p.localEnd.ip)
      p.client.ip value p.channels = (.ok answer, channels)) :
    ∃ sent new, Transport.parse value = .ok sent ∧
      (p.start ctx now request).output = p.output ++ new ∧
      (∀ control timing, Accepted (Peer.facing sent control timing).render) ∧
      ∀ index out, Output.request index out ∈ new → ∃ control timing,
        out.headers.transport? = some (Peer.facing sent control timing).render := by
  obtain ⟨sent, hsent⟩ := parse_of_negotiate hneg
  obtain ⟨relay, dropped, -, houtput, hdropped, -⟩ :=
    output_setup now hm hstate hvalue hneg
  refine ⟨sent, (relay.setup ctx.peerBinder request).2 ++ dropped, hsent, houtput,
    Peer.accepted_facing hneg hsent, fun index out hout => ?_⟩
  rcases List.mem_append.1 hout with hout | hout
  · obtain ⟨peer, -, q, -, -, -, hsetup⟩ := Relay.request_of_setup hout
    obtain ⟨value', sent', control, timing, hvalue', hsent', -, rfl, -, -⟩ := Peer.setup_eq_ok hsetup
    obtain rfl : value = value' := Option.some.inj (hvalue.symm.trans hvalue')
    obtain rfl : sent = sent' := Except.ok.inj (hsent.symm.trans hsent')
    exact ⟨control.port, timing.port, Headers.get?_insert_self ..⟩
  · exact absurd hout (hdropped index out)

/-- Options of every kind, ports that are repeated and written in another way, and white space. -/
def mixedTransport : String :=
  " RTP/AVP/UDP ;unicast;mode=record;x= 1 ;control_port=+6001;timing_port=06002;control_port=6003;;"

theorem forwarded_transport_accepted_mixed :
    ∃ out transport, Output.request 0 out ∈ (peeredAfterSetup mixedTransport).output ∧
      out.headers.transport? = some transport ∧ Accepted transport := by
  obtain ⟨hstate, houtput, hwritten⟩ : peeredAfterAnnounce.state = .announced ∧
      peeredAfterAnnounce.output = [] ∧
      ((peeredAfterSetup mixedTransport).output.any fun o => match o with
        | .request 0 _ => true
        | _ => false) = true := by decide +kernel
  have hneg : (negotiate (ChannelSet.opener peeredContext.binder peeredContext.config.localPorts
      peeredAfterAnnounce.localEnd.ip) peeredAfterAnnounce.client.ip mixedTransport
      peeredAfterAnnounce.channels).1.toOption.isSome = true := by decide +kernel
  obtain ⟨answer, channels, hanswer⟩ := exists_answer hneg
  obtain ⟨sent, new, -, hnew, haccepted, hgiven⟩ :=
    @forwarded_transport_accepted peeredContext default (setupWith mixedTransport)
      peeredAfterAnnounce mixedTransport answer channels rfl hstate rfl hanswer
  obtain ⟨o, ho, hrequest⟩ := List.any_eq_true.1 hwritten
  split at hrequest
  · next out =>
    have hmem : Output.request 0 out ∈ new := by
      rwa [peeredAfterSetup, hnew, houtput, List.nil_append] at ho
    obtain ⟨control, timing, htransport⟩ := hgiven 0 out hmem
    exact ⟨out, _, ho, htransport, haccepted control timing⟩
  · cases hrequest

end Proxy
end Raop
