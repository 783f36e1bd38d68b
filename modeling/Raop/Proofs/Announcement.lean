/-
# What is told of a stream that is announced

A player and a proxy tell that a stream is announced, and whether it is
encrypted. A player tells it when it answers. A proxy tells it at the end of the
turn, when its peers have answered or time is up; until then it tells nothing of
a stream, and afterwards nothing more (`Heralds`). A player has scanned the
description and a proxy has searched it, so what they tell differs just where
scan and search differ (`JointTurn.told_alike_iff`).

Key definitions: `announcements`, `Proxy.Heralds`.
Key theorems: `Player.output_handle`, `Proxy.Heralds.meet`, `Proxy.heralds_announce`,
`Proxy.announcements_turn`, `JointTurn.told_alike_iff`.
-/
import Raop.Proofs.Lockstep
import Raop.Proofs.Sdp.Key

namespace Raop

/-- Whether the stream is encrypted, if it is told that one is announced. -/
def Output.announcement? : Output → Option Bool
  | event (.streamAnnounced encrypted) => some encrypted
  | _ => none

/-- What is told of streams that are announced. -/
def announcements (out : List Output) : List Bool := out.filterMap Output.announcement?

@[simp] theorem announcements_nil : announcements [] = [] := rfl

@[simp] theorem announcements_append (out out' : List Output) :
    announcements (out ++ out') = announcements out ++ announcements out' := List.filterMap_append

theorem Traffic.announcements {out : List Output} (h : Traffic out) : announcements out = [] := by
  refine List.filterMap_eq_nil_iff.2 fun o ho => ?_
  have htraffic := h o ho
  cases o with
  | event e => cases htraffic
  | _ => rfl

/-- What is written to the peers tells nothing. -/
theorem Relay.announcements_forward (r : Relay) (request : Request) :
    announcements (r.forward request).2 = [] := by
  have hwritten (index : Nat) (result : Except Error Request) :
      announcements (written index result) = [] := by
    cases result <;> rfl
  rw [forward, announcements_append, r.traffic_prune.announcements, List.nil_append, announcements,
    List.filterMap_flatMap]
  exact List.flatMap_eq_nil_iff.2 fun sent _ => hwritten _ _

theorem announcements_connects (peers : List PeerAddress) :
    announcements (peers.mapIdx fun i a => .connect i a) = [] := by
  refine List.filterMap_eq_nil_iff.2 fun o ho => ?_
  obtain ⟨i, hi, rfl⟩ := List.mem_mapIdx.1 ho
  rfl

/-! ### The player -/

namespace Player

variable {ctx : PlayerContext} {now : Moment} {request : Request} {reply : Reply} {p : Player}

/-- A stream that is accepted is told of once, by the keys in its description. -/
theorem output_handle (hm : request.method = .announce) (h : (p.handle ctx now request).1 = .ok reply) :
    ∃ stream, StreamDescription.parse request.bodyText ctx.privateKey = .ok stream ∧
      (p.handle ctx now request).2.output =
        p.output ++ [.event (.streamAnnounced stream.isEncrypted)] := by
  simp only [handle, hm, announce] at h ⊢
  split at h
  · cases h
  · split at h
    · cases h
    · next stream hstream =>
      refine ⟨stream, hstream, ?_⟩
      split at h
      · cases h
      · rfl

end Player

/-! ### The proxy -/

namespace Proxy

variable {ctx : ProxyContext} {now : Moment} {request : Request} {reply : Reply} {p : Proxy}

/-- An ANNOUNCE on its way: it is waited for and nothing is told of its stream yet, or it was accepted
and its stream was told of once. -/
inductive Heralds (request : Request) (p : Proxy) : Prop where
  | connecting (pending : List Nat) (found : List Peer) (deadline : Nat)
      (hwait : p.wait = some (.connecting request pending found deadline)) (hanswer : p.answer = none)
      (htold : announcements p.output = [])
  | answering (reply : Reply) (members : List Nat) (barrier : Barrier) (deadline : Nat)
      (hwait : p.wait = some (.answering request reply members barrier deadline))
      (hanswer : p.answer = none) (htold : announcements p.output = [])
  | told (reply : Reply) (hwait : p.wait = none) (hanswer : p.answer = some (.ok reply))
      (htold : announcements p.output = [announcesKey request.bodyText])

theorem announcements_withRelay (p : Proxy) {result : Relay × List Output}
    (h : announcements result.2 = []) :
    announcements (p.withRelay result).output = announcements p.output := by
  simp [withRelay, put, h]

theorem Heralds.withRelay (h : Heralds request p) {result : Relay × List Output}
    (hr : announcements result.2 = []) : Heralds request (p.withRelay result) := by
  have hout := announcements_withRelay p hr
  cases h with
  | connecting pending found deadline hwait hanswer htold =>
    exact .connecting pending found deadline hwait hanswer (hout.trans htold)
  | answering reply members barrier deadline hwait hanswer htold =>
    exact .answering reply members barrier deadline hwait hanswer (hout.trans htold)
  | told reply hwait hanswer htold => exact .told reply hwait hanswer (hout.trans htold)

/-- A stream is told of when its ANNOUNCE is complete. -/
theorem heralds_complete (hm : request.method = .announce) (htold : announcements p.output = [])
    (reply : Reply) : Heralds request (p.complete request reply) := by
  refine .told reply rfl rfl ?_
  unfold complete
  simp only [hm, emit, put, announcements_append, htold]
  rfl

theorem heralds_await (hm : request.method = .announce) (hanswer : p.answer = none)
    (htold : announcements p.output = []) (ctx : ProxyContext) (now : Moment) (reply : Reply) :
    Heralds request (p.await ctx now request reply) := by
  unfold await
  split
  · exact heralds_complete hm htold reply
  · have hpruned := (announcements_withRelay p p.relay.traffic_prune.announcements).trans htold
    simp only
    split
    · exact heralds_complete hm hpruned reply
    · exact .answering reply _ _ _ rfl hanswer hpruned

theorem heralds_announceTo (hm : request.method = .announce) (hanswer : p.answer = none)
    (htold : announcements p.output = []) (ctx : ProxyContext) (now : Moment) (found : List Peer) :
    Heralds request (p.announceTo ctx now request found) := by
  let q : Proxy := { p with wait := none, relay := { p.relay with peers := found } }
  have hsent := (announcements_withRelay q (q.relay.announcements_forward request)).trans htold
  exact heralds_await (p := q.withRelay (q.relay.forward request)) hm hanswer hsent ctx now {}

/-! ### What is met -/

theorem Heralds.tick (h : Heralds request p) (hm : request.method = .announce) (ctx : ProxyContext)
    (now : Moment) : Heralds request (p.tick ctx now) := by
  cases h with
  | connecting pending found deadline hwait hanswer htold =>
    simp only [Proxy.tick, hwait]
    split
    · exact .connecting pending found deadline hwait hanswer htold
    · exact heralds_announceTo hm hanswer htold ctx now found
  | answering reply members barrier deadline hwait hanswer htold =>
    simp only [Proxy.tick, hwait]
    split
    · exact .answering reply members barrier deadline hwait hanswer htold
    · exact heralds_complete hm htold reply
  | told reply hwait hanswer htold =>
    simp only [Proxy.tick, hwait]
    exact .told reply hwait hanswer htold

theorem Heralds.decided (h : Heralds request p) (hm : request.method = .announce) (ctx : ProxyContext)
    (now : Moment) (index : Nat) (ip : Option IpAddress) :
    Heralds request (p.decided ctx now index ip) := by
  cases h with
  | connecting pending found deadline hwait hanswer htold =>
    simp only [Proxy.decided, hwait]
    split
    · split
      · exact heralds_announceTo hm hanswer htold ctx now _
      · exact .connecting _ _ deadline rfl hanswer htold
    · exact .connecting pending found deadline hwait hanswer htold
  | answering reply members barrier deadline hwait hanswer htold =>
    simp only [Proxy.decided, hwait]
    exact .answering reply members barrier deadline hwait hanswer htold
  | told reply hwait hanswer htold =>
    simp only [Proxy.decided, hwait]
    exact .told reply hwait hanswer htold

theorem Heralds.onPeer (h : Heralds request p) (hm : request.method = .announce) (index : Nat)
    (f : Peer → Peer) : Heralds request (p.onPeer index f) := by
  cases h with
  | connecting pending found deadline hwait hanswer htold =>
    simp only [Proxy.onPeer, hwait]
    exact .connecting pending _ deadline rfl hanswer htold
  | answering reply members barrier deadline hwait hanswer htold =>
    simp only [Proxy.onPeer, hwait]
    split
    · generalize barrier.note _ _ = noted
      split
      · refine heralds_complete hm ?_ reply
        exact htold
      · exact .answering reply members noted deadline rfl hanswer htold
    · exact .answering reply members barrier deadline rfl hanswer htold
  | told reply hwait hanswer htold =>
    simp only [Proxy.onPeer, hwait]
    exact .told reply rfl hanswer htold

/-- **Whatever is met, the stream is told of at the end and not before.** -/
theorem Heralds.meet (h : Heralds request p) (hm : request.method = .announce) (ctx : ProxyContext)
    (o : Occurrence) : Heralds request (p.meet ctx o) := by
  cases o with
  | tick now => exact h.tick hm ctx now
  | connected now index ip => exact h.decided hm ctx now index (some ip)
  | refused now index => exact h.decided hm ctx now index none
  | peerData peerBinder index data => exact h.onPeer hm index _
  | peerLost index => exact h.onPeer hm index _
  | peerBroken index => exact h.onPeer hm index _
  | datagram now role source data =>
    simp only [Proxy.meet, datagram_eq]
    split
    · exact h
    · exact h.withRelay (Relay.traffic_fromSender _ _ _ _ _).announcements
  | peerDatagram now index role source data =>
    simp only [Proxy.meet, peerDatagram_eq]
    split
    · exact h
    · exact h.withRelay (Relay.traffic_fromPeer _ _ _ _ _ _).announcements

theorem Heralds.meetAll (h : Heralds request p) (hm : request.method = .announce) (ctx : ProxyContext)
    (met : List Occurrence) : Heralds request (p.meetAll ctx met) := by
  induction met generalizing p with
  | nil => exact h
  | cons o met ih => exact ih (h.meet hm ctx o)

/-! ### Turns -/

/-- An ANNOUNCE is refused at once, or it is on its way. -/
theorem heralds_announce (hm : request.method = .announce) (hanswer : p.answer = none)
    (houtput : p.output = []) (ctx : ProxyContext) (now : Moment) :
    (∃ e, p.announce ctx now request = p.refuse e) ∨ Heralds request (p.announce ctx now request) := by
  unfold announce
  split
  · exact .inl ⟨_, rfl⟩
  · split
    · exact .inl ⟨_, rfl⟩
    · have hreset : announcements p.reset.output = [] := by
        refine (announcements_withRelay p p.relay.traffic_closePeers.announcements).trans ?_
        rw [houtput, announcements_nil]
      refine .inr ?_
      simp only
      split
      · exact heralds_announceTo (p := p.reset) hm hanswer hreset ctx now []
      · refine .connecting _ [] _ rfl hanswer ?_
        rw [put, announcements_append, announcements_connects, List.append_nil]
        exact hreset

/-- **What a proxy tells of a stream.** In the turn of an ANNOUNCE that is accepted the stream is told of
once, by what its description is searched for. -/
theorem announcements_turn {t : Turn} (hwait : p.wait = none) (hm : t.request.method = .announce)
    (h : (p.turn ctx t).answer = some (.ok reply)) :
    announcements (p.turn ctx t).output = [announcesKey t.request.bodyText] := by
  have hstart : p.ready.start (t.context ctx) t.now t.request =
      p.ready.announce (t.context ctx) t.now t.request := by
    simp only [start, hm]
  rw [turn, hstart] at h ⊢
  rcases heralds_announce (p := p.ready) hm rfl rfl (t.context ctx) t.now with ⟨e, he⟩ | hheralds
  · rw [he, (steady_meetAll ctx t.met (p := p.ready.refuse e) hwait).1.answer] at h
    cases h
  · generalize hend : (p.ready.announce (t.context ctx) t.now t.request).meetAll ctx t.met = q at h ⊢
    have hover := hheralds.meetAll hm ctx t.met
    rw [hend] at hover
    cases hover with
    | connecting _ _ _ _ hanswer => simp [hanswer] at h
    | answering _ _ _ _ _ hanswer => simp [hanswer] at h
    | told _ _ _ htold => exact htold

end Proxy

/-! ### Both -/

/-- **What a player and a proxy tell of a stream.** If both accept an ANNOUNCE, each tells of the stream
once, at its end; a player tells that it is encrypted if a line of the description gives a key, and a proxy
if a line holds the mark of one. They tell the same just in case the mark stands somewhere if a key is
given, and a key is given if the mark stands in the value of a line. -/
theorem JointTurn.told_alike_iff {pctx : PlayerContext} {xctx : ProxyContext} {s : PlayerSession}
    {q : Proxy} {t : JointTurn} {reply reply' : Reply} (hm : t.request.method = .announce)
    (hwait : q.wait = none) (hplayer : (t.player pctx s).1 = .ok reply)
    (hproxy : (q.turn xctx t.turn).answer = some (.ok reply')) :
    ∃ lines told told', Sdp.LinesOf t.request.bodyText.toList lines ∧
      (t.player pctx s).2.output = t.output ++ [.event (.streamAnnounced told)] ∧
      announcements (q.turn xctx t.turn).output = [told'] ∧
      (told = true ↔ ∃ line ∈ lines, Sdp.GivesKey line) ∧
      (told' = true ↔ ∃ line ∈ lines, Sdp.Marked line) ∧
      (told = told' ↔
        ((∃ line ∈ lines, Sdp.GivesKey line) → ∃ line ∈ lines, Sdp.Marked line) ∧
        ((∃ line ∈ lines, Sdp.Quoted line) → ∃ line ∈ lines, Sdp.GivesKey line)) := by
  obtain ⟨stream, hparse, houtput⟩ := Player.output_handle hm hplayer
  have hlines := SdpLine.rawLines_eq_iff.1 (rfl : SdpLine.rawLines t.request.bodyText.toList = _)
  exact ⟨_, stream.isEncrypted, Proxy.announcesKey t.request.bodyText, hlines, houtput,
    Proxy.announcements_turn hwait hm hproxy, StreamDescription.isEncrypted_iff hparse hlines,
    Proxy.announcesKey_iff hlines,
    StreamDescription.isEncrypted_eq_announcesKey_iff hparse hlines⟩

open PlayerSession (plainContext announceLossless)
open Proxy (peeredContext peeredTurn peeredAnnounce)

/-- An answer that is accepted, said of its reply. -/
theorem bind_toOption_eq_some_iff {answer : Option (Except Error Reply)} {reply : Reply} :
    answer.bind Except.toOption = some reply ↔ answer = some (.ok reply) := by
  rcases answer with _ | e | reply' <;> simp [Except.toOption]

/-- A player and a proxy that have heard nothing yet, and a stream that is not encrypted. -/
theorem told_alike_peeredAnnounce :
    let s : PlayerSession := { client := default, localEnd := default }
    let q := Proxy.ofClient peeredContext default default
    let t := peeredJoint peeredAnnounce
    t.request.method = .announce ∧ q.wait = none ∧ (t.player plainContext s).1 = .ok {} ∧
      ∃ reply', (q.turn peeredContext t.turn).answer = some (.ok reply') ∧
        ∃ lines told told', Sdp.LinesOf t.request.bodyText.toList lines ∧
          (t.player plainContext s).2.output = t.output ++ [.event (.streamAnnounced told)] ∧
          announcements (q.turn peeredContext t.turn).output = [told'] ∧
          (told = true ↔ ∃ line ∈ lines, Sdp.GivesKey line) ∧
          (told' = true ↔ ∃ line ∈ lines, Sdp.Marked line) ∧
          (told = told' ↔
            ((∃ line ∈ lines, Sdp.GivesKey line) → ∃ line ∈ lines, Sdp.Marked line) ∧
            ((∃ line ∈ lines, Sdp.Quoted line) → ∃ line ∈ lines, Sdp.GivesKey line)) := by
  intro s q t
  have hrun : (t.player plainContext s).1 = .ok {} ∧
      (q.turn peeredContext t.turn).answer.bind Except.toOption = some {} := by
    decide +kernel
  rw [bind_toOption_eq_some_iff] at hrun
  obtain ⟨hplayer, hproxy⟩ := hrun
  exact ⟨rfl, rfl, hplayer, {}, hproxy, JointTurn.told_alike_iff rfl rfl hplayer hproxy⟩

/-- A stream that is not encrypted, with the mark of a key for its name. -/
def quotingAnnounce : Proxy.Turn :=
  peeredTurn { announceLossless with
    body := Text.encode "s=a=rsaaeskey:\n" ++ announceLossless.body } [.connected default 0 default]

/-- A player tells that the stream is not encrypted, and a proxy that it is. -/
theorem told_differently_quotingAnnounce :
    ¬ ∀ (pctx : PlayerContext) (xctx : ProxyContext) (s : PlayerSession) (q : Proxy) (t : JointTurn)
      (told told' : Bool), t.request.method = .announce → t.output = [] → q.wait = none →
      (∃ reply, (t.player pctx s).1 = .ok reply) →
      (∃ reply, (q.turn xctx t.turn).answer = some (.ok reply)) →
      announcements (t.player pctx s).2.output = [told] →
      announcements (q.turn xctx t.turn).output = [told'] → told = told' := by
  intro h
  have hrun :
      ((peeredJoint quotingAnnounce).player plainContext { client := default, localEnd := default }).1 =
          .ok {} ∧
        announcements ((peeredJoint quotingAnnounce).player plainContext
          { client := default, localEnd := default }).2.output = [false] ∧
        ((Proxy.ofClient peeredContext default default).turn peeredContext
          quotingAnnounce).answer.bind Except.toOption = some {} ∧
        announcements ((Proxy.ofClient peeredContext default default).turn peeredContext
          quotingAnnounce).output = [true] := by
    decide +kernel
  rw [bind_toOption_eq_some_iff] at hrun
  obtain ⟨hplayer, htold, hproxy, htold'⟩ := hrun
  have hsame : false = true := h plainContext peeredContext { client := default, localEnd := default }
    (Proxy.ofClient peeredContext default default) (peeredJoint quotingAnnounce) false true rfl rfl rfl
    ⟨{}, hplayer⟩ ⟨{}, hproxy⟩ htold htold'
  cases hsame

end Raop
