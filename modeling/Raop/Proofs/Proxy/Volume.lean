/-
# The volume that a proxy answers with

A proxy answers GET_PARAMETER by itself, from the volume that it remembers, and the volume that it
remembers is the one that its sender told last: in a SET_PARAMETER that was accepted, since the last
ANNOUNCE or TEARDOWN that was (`Serves.volume`). So the answer is read as that volume, trimmed, or is
empty if none was told (`Serves.answers_volume`).

A TEARDOWN is accepted before its peers have answered it, and only then is the volume forgotten. What is
said of the session while it waits is therefore the volume that it is going to have (`volumeAhead`).
Whatever is met does not change it, and a request that begins changes it as the sender told.

Key definitions: `Request.volume?`, `Exchange.endsStream`, `lastTold`, `Proxy.volumeAhead`,
`Proxy.Serves`.
Key theorems: `Proxy.volumeAhead_meet`, `Proxy.volumeAhead_start`, `Proxy.volumeAhead_turn`,
`Proxy.Serves.volume`, `Proxy.Serves.answers_volume`.
-/
import Raop.Proofs.Parameters
import Raop.Proofs.Proxy.PeerRecord

namespace Raop

/-! ### What the sender told -/

/-- The stream of before is over with a request of this method. -/
def Method.endsStream : Method → Bool
  | .announce | .teardown => true
  | _ => false

/-- The volume that a request tells, on the last of its volume lines. -/
def Request.volume? (request : Request) : Option String :=
  if request.method = .setParameter ∧ Parameters.areIn request = true then
    (Parameters.volumeLines request.bodyText).getLast?
  else none

/-- The stream of before is over: an ANNOUNCE or a TEARDOWN was accepted. -/
def Exchange.endsStream (x : Exchange) : Bool := x.isAccepted && x.request.method.endsStream

/-- The volume that was told with a request that was accepted. -/
def Exchange.volume? (x : Exchange) : Option String := if x.isAccepted then x.request.volume? else none

/-- The volume that was told last, since the last ANNOUNCE or TEARDOWN that was accepted. -/
def lastTold (xs : List Exchange) : Option String :=
  ((xs.rtakeWhile fun x => !x.endsStream).filterMap Exchange.volume?).getLast?

theorem lastTold_append (xs : List Exchange) (x : Exchange) :
    lastTold (xs ++ [x]) = if x.endsStream then none else x.volume?.or (lastTold xs) := by
  unfold lastTold
  cases hends : x.endsStream with
  | true => simp [hends]
  | false =>
    rw [List.rtakeWhile_concat_pos _ _ _ (by simp [hends]), List.filterMap_append]
    cases hvolume : x.volume? <;> simp [hvolume]

/-- A volume that was told stood on a line of some request. -/
theorem exists_of_lastTold {xs : List Exchange} {value : String} (h : lastTold xs = some value) :
    ∃ request : Request, value ∈ Parameters.volumeLines request.bodyText := by
  obtain ⟨x, -, hx⟩ := List.mem_filterMap.1 (List.mem_of_getLast? h)
  refine ⟨x.request, List.mem_of_getLast? ?_⟩
  simp only [Exchange.volume?, Request.volume?] at hx
  split at hx
  · split at hx
    · exact hx
    · cases hx
  · cases hx

/-- A text that is replied is what the response says. -/
theorem Reply.bodyText_withText (reply : Reply) (text : String) :
    (reply.withText text).toResponse.bodyText = text := by
  change String.ofList (Text.decodeCharsLossy (Text.encodeChars text.toList)) = text
  rw [Text.decodeCharsLossy_encodeChars, String.ofList_toList]

/-- The request that is waited for. -/
def Wait.request : Wait → Request
  | connecting request .. => request
  | answering request .. => request

namespace Proxy

variable {ctx : ProxyContext} {now : Moment} {request : Request} {reply : Reply} {p q : Proxy} {t : Turn}
  {xs : List Exchange}

theorem lastVolume_of_parse {body : String} {ps : List (String × String)}
    (h : Parameters.parse body = .ok ps) :
    lastVolume ps = (Parameters.volumeLines body).getLast?.map Text.trim := by
  rw [lastVolume, ← List.getLast?_map, ← List.getLast?_map, Parameters.volumes_of_parse h]

/-! ### The volume ahead -/

/-- The volume once nothing is waited for any more. -/
def volumeAhead (p : Proxy) : Option String :=
  match p.wait with
  | some wait => if wait.request.method = .teardown then none else p.volume
  | none => p.volume

theorem volumeAhead_of_wait (h : p.wait = none) : p.volumeAhead = p.volume := by simp only [volumeAhead, h]

theorem volumeAhead_of_some {wait : Wait} (h : p.wait = some wait) :
    p.volumeAhead = if wait.request.method = .teardown then none else p.volume := by
  simp only [volumeAhead, h]

theorem volumeAhead_of_steady (h : p.Steady q)
    (hwait : q.wait.map Wait.request = p.wait.map Wait.request) : q.volumeAhead = p.volumeAhead := by
  cases hp : p.wait with
  | none =>
    rw [hp, Option.map_none, Option.map_eq_none_iff] at hwait
    rw [volumeAhead_of_wait hwait, volumeAhead_of_wait hp, h.volume]
  | some wait =>
    rw [hp, Option.map_some, Option.map_eq_some_iff] at hwait
    obtain ⟨wait', hq, hrequest⟩ := hwait
    rw [volumeAhead_of_some hq, volumeAhead_of_some hp, hrequest, h.volume]

/-- A TEARDOWN that is complete forgets the volume, and no other request changes it. -/
theorem volume_complete (request : Request) (reply : Reply) (p : Proxy) :
    (p.complete request reply).volume = if request.method = .teardown then none else p.volume := by
  by_cases hm : request.method = .teardown
  · rw [if_pos hm]
    unfold complete
    rw [hm]
    rfl
  · rw [if_neg hm, (holds_complete hm reply p).2]

theorem volumeAhead_complete (request : Request) (reply : Reply) (p : Proxy) :
    (p.complete request reply).volumeAhead = if request.method = .teardown then none else p.volume := by
  rw [volumeAhead_of_wait (wait_complete ..), volume_complete]

theorem volumeAhead_await (ctx : ProxyContext) (now : Moment) (request : Request) (reply : Reply)
    (p : Proxy) :
    (p.await ctx now request reply).volumeAhead =
      if request.method = .teardown then none else p.volume := by
  obtain ⟨q, hkeeps, hq | ⟨_, _, _, hq⟩⟩ := await_cases ctx now request reply p
  · rw [hq, volumeAhead_complete, hkeeps.volume]
  · rw [hq, volumeAhead_of_some rfl, ← hkeeps.volume]
    rfl

theorem volumeAhead_replicate (ctx : ProxyContext) (now : Moment) (request : Request) (p : Proxy) :
    (p.replicate ctx now request).volumeAhead =
      if request.method = .teardown then none else p.volume :=
  volumeAhead_await ctx now request {} (p.withRelay (p.relay.forward request))

theorem volumeAhead_announceTo (ctx : ProxyContext) (now : Moment) (request : Request)
    (found : List Peer) (p : Proxy) :
    (p.announceTo ctx now request found).volumeAhead =
      if request.method = .teardown then none else p.volume :=
  volumeAhead_replicate ctx now request _

/-- **Whatever is met, the volume ahead is the same.** -/
theorem volumeAhead_meet (ctx : ProxyContext) (p : Proxy) (o : Occurrence) :
    (p.meet ctx o).volumeAhead = p.volumeAhead := by
  have hmeets := meets_meet ctx p o
  generalize p.meet ctx o = q at hmeets ⊢
  cases hmeets with
  | aside _ hsteady hwait => exact volumeAhead_of_steady hsteady (by rw [hwait])
  | connecting _ _ _ _ _ _ _ hsteady hwait hwait' =>
    exact volumeAhead_of_steady hsteady (by rw [hwait, hwait']; rfl)
  | connected now request _ _ found' _ hwait =>
    rw [volumeAhead_announceTo, volumeAhead_of_some hwait]
    rfl
  | answering _ _ _ _ _ _ _ hsteady hwait hwait' =>
    exact volumeAhead_of_steady hsteady (by rw [hwait, hwait']; rfl)
  | answered _ request reply _ _ _ hsteady hwait =>
    rw [volumeAhead_complete, hsteady.volume, volumeAhead_of_some hwait]
    rfl

theorem volumeAhead_meetAll (ctx : ProxyContext) : ∀ (met : List Occurrence) (p : Proxy),
    (p.meetAll ctx met).volumeAhead = p.volumeAhead
  | [], _ => rfl
  | o :: met, p => (volumeAhead_meetAll ctx met (p.meet ctx o)).trans (volumeAhead_meet ctx p o)

/-! ### Requests -/

theorem volumeAhead_replicateIn {allowed : List SessionState} (hwait : p.wait = none)
    (hm : request.method ≠ .teardown) :
    (p.replicateIn ctx now allowed request).volumeAhead = p.volume := by
  unfold replicateIn
  split
  · exact volumeAhead_of_wait hwait
  · rw [volumeAhead_replicate, if_neg hm]

/-- A stream that is announced begins without a volume. -/
theorem volumeAhead_announce (hm : request.method = .announce)
    (hnoError : (p.announce ctx now request).NoError) :
    (p.announce ctx now request).volumeAhead = none := by
  have hnot : request.method ≠ .teardown := by simp [hm]
  unfold announce at hnoError ⊢
  split at hnoError
  · exact absurd rfl (hnoError _)
  · split at hnoError
    · exact absurd rfl (hnoError _)
    · simp only
      split
      · rw [volumeAhead_announceTo, if_neg hnot]
        rfl
      · rw [volumeAhead_of_some rfl]
        exact if_neg hnot

theorem volumeAhead_setup (hm : request.method = .setup) (hwait : p.wait = none) :
    (p.setup ctx now request).volumeAhead = p.volume := by
  rcases setup_cases ctx now request p with ⟨e, hp⟩ | ⟨e, channels, hp⟩ | ⟨_, t, channels, -, -, -, hp⟩
  · rw [hp]
    exact volumeAhead_of_wait hwait
  · rw [hp]
    exact volumeAhead_of_wait hwait
  · rw [hp, volumeAhead_await, if_neg (by simp [hm])]
    rfl

/-- Parameters that are accepted change the volume to the one that they tell, if they tell one. -/
theorem volumeAhead_setParameter (hm : request.method = .setParameter)
    (hnoError : (p.setParameter ctx now request).NoError) :
    (p.setParameter ctx now request).volumeAhead = (request.volume?.map Text.trim).or p.volume := by
  have hnot : request.method ≠ .teardown := by simp [hm]
  unfold setParameter at hnoError ⊢
  split at hnoError
  · exact absurd rfl (hnoError _)
  · by_cases hare : Parameters.areIn request = true
    · rw [if_pos hare] at hnoError ⊢
      have htold : request.volume? = (Parameters.volumeLines request.bodyText).getLast? := by
        rw [Request.volume?, if_pos ⟨hm, hare⟩]
      split at hnoError
      · exact absurd rfl (hnoError _)
      · next parameters hparse =>
        rw [volumeAhead_replicate, if_neg hnot, htold, ← lastVolume_of_parse hparse]
    · have htold : request.volume? = none := by rw [Request.volume?, if_neg fun h => hare h.2]
      rw [if_neg hare, volumeAhead_replicate, if_neg hnot, htold]
      rfl

/-- **What a request that is not refused does to the volume.** -/
theorem volumeAhead_start (hwait : p.wait = none) (hnoError : (p.start ctx now request).NoError) :
    (p.start ctx now request).volumeAhead =
      if request.method.endsStream then none else (request.volume?.map Text.trim).or p.volume := by
  -- no other request tells a volume
  have hother (hm : request.method ≠ .setParameter) :
      (request.volume?.map Text.trim).or p.volume = p.volume := by
    rw [Request.volume?, if_neg fun h => hm h.1]
    rfl
  unfold start at hnoError ⊢
  cases hm : request.method with
  | announce =>
    rw [hm] at hnoError
    exact volumeAhead_announce hm hnoError
  | setParameter =>
    rw [hm] at hnoError
    exact volumeAhead_setParameter hm hnoError
  | teardown => exact (volumeAhead_replicate ..).trans (if_pos hm)
  | other token =>
    rw [hm] at hnoError
    exact absurd rfl (hnoError _)
  | setup => exact (volumeAhead_setup hm hwait).trans (hother (by simp [hm])).symm
  | record | flush | pause =>
    exact (volumeAhead_replicateIn hwait (by simp [hm])).trans (hother (by simp [hm])).symm
  | options | getParameter => exact (volumeAhead_of_wait hwait).trans (hother (by simp [hm])).symm

/-- **What a turn does to the volume**: nothing if its request is refused. -/
theorem volumeAhead_turn (hwait : p.wait = none) (t : Turn) :
    (p.turn ctx t).volumeAhead =
      if (p.exchange ctx t).endsStream then none
      else ((p.exchange ctx t).volume?.map Text.trim).or p.volume := by
  have hturn : (p.turn ctx t).volumeAhead =
      (p.ready.start (t.context ctx) t.now t.request).volumeAhead := volumeAhead_meetAll ctx t.met _
  by_cases hnoError : (p.ready.start (t.context ctx) t.now t.request).NoError
  · rw [hturn, volumeAhead_start (p := p.ready) hwait hnoError, Exchange.endsStream, Exchange.volume?,
      isAccepted_of_noError hnoError, Bool.true_and, if_pos rfl]
    rfl
  · simp only [NoError, not_forall, not_not] at hnoError
    obtain ⟨e, he⟩ := hnoError
    rw [hturn, Exchange.endsStream, Exchange.volume?, isAccepted_of_error hwait he, Bool.false_and,
      if_neg (by simp), if_neg (by simp)]
    rcases start_of_error (p := p.ready) rfl he with hp | ⟨-, channels, hp⟩ <;> rw [hp] <;>
      exact volumeAhead_of_wait hwait

/-! ### Runs -/

/-- The runs of a session until it is shut down, which is the end of it, with their exchanges. A turn
begins when nothing is waited for; the last one may wait still. -/
inductive Serves (ctx : ProxyContext) : List Exchange → Proxy → Prop where
  | start (client localEnd : Endpoint) (met : List Occurrence) :
      Serves ctx [] ((ofClient ctx client localEnd).meetAll ctx met)
  | turn {xs : List Exchange} {p : Proxy} (h : Serves ctx xs p) (hwait : p.wait = none) (t : Turn) :
      Serves ctx (xs ++ [p.exchange ctx t]) (p.turn ctx t)

/-- **The volume that a session remembers is the one that was told last.** -/
theorem Serves.volume (h : Serves ctx xs p) : p.volumeAhead = (lastTold xs).map Text.trim := by
  induction h with
  | start client localEnd met =>
    rw [volumeAhead_meetAll]
    rfl
  | turn _ hwait t ih =>
    rw [volumeAhead_of_wait hwait] at ih
    rw [volumeAhead_turn hwait t, lastTold_append, ih]
    split
    · rfl
    · exact Option.map_or.symm

/-- Each exchange is that of a turn, after a run with the exchanges before it. -/
theorem Serves.exists_turn {before after : List Exchange} {x : Exchange}
    (h : Serves ctx (before ++ x :: after) p) :
    ∃ q t, Serves ctx before q ∧ q.wait = none ∧ x = q.exchange ctx t := by
  generalize hxs : before ++ x :: after = xs at h
  induction h generalizing after with
  | start => simp at hxs
  | @turn xs q h hwait t ih =>
    -- the exchange is that of the last turn, or it stands in the run before it
    rcases List.eq_nil_or_concat after with rfl | ⟨front, y, rfl⟩
    · obtain ⟨rfl, hx⟩ := List.append_inj' hxs rfl
      exact ⟨q, t, h, hwait, (List.cons.inj hx).1⟩
    · rw [List.concat_eq_append, ← List.cons_append, ← List.append_assoc] at hxs
      exact ih (List.append_inj' hxs rfl).1

theorem answer_getParameter (hwait : p.wait = none) (hm : t.request.method = .getParameter) :
    (p.turn ctx t).answer = some (.ok p.getParameter) := by
  have hstart : p.ready.start (t.context ctx) t.now t.request =
      { p.ready with answer := some (.ok p.getParameter) } := by
    unfold start
    rw [hm]
    rfl
  rw [turn, hstart]
  exact (steady_meetAll ctx t.met (p := { p.ready with answer := some (.ok p.getParameter) }) hwait).1.answer

/-- **What GET_PARAMETER is answered with.** In every run a GET_PARAMETER is accepted, and its answer is
read as one parameter, which is the volume that was told last in a SET_PARAMETER that was accepted since
the last ANNOUNCE or TEARDOWN that was, trimmed; if none was told its body is empty. -/
theorem Serves.answers_volume {before after : List Exchange} {x : Exchange}
    (h : Serves ctx (before ++ x :: after) p) (hm : x.request.method = .getParameter) :
    ∃ reply, x.answer = some (.ok reply) ∧
      match lastTold before with
      | none => reply.toResponse.body = []
      | some value =>
        Parameters.parse reply.toResponse.bodyText = .ok [(Parameters.volume, Text.trim value)] := by
  obtain ⟨q, t, hserves, hwait, rfl⟩ := h.exists_turn
  refine ⟨q.getParameter, answer_getParameter hwait hm, ?_⟩
  have hvolume : q.volume = (lastTold before).map Text.trim := by
    rw [← volumeAhead_of_wait hwait, hserves.volume]
  unfold getParameter
  rw [hvolume]
  cases hlast : lastTold before with
  | none => rfl
  | some value =>
    obtain ⟨request, hmem⟩ := exists_of_lastTold hlast
    simp only [Option.map_some]
    rw [Reply.bodyText_withText]
    exact Parameters.parse_volumeBody hmem

/-- Parameters are told. -/
def peeredTell (body : String) : Turn :=
  peeredTurn
    { method := .setParameter, uri := "*", headers := ⟨[("Content-Type", Parameters.mediaType)]⟩,
      body := Text.encode body } []

/-- Two volumes, of which the second one counts. -/
def tellTwoVolumes : Turn := peeredTell "volume: -30\r\nprogress: 1/2/3\r\nvolume:  -11.5 \r\n"

/-- A volume in front of a line that is no parameter. -/
def tellMalformed : Turn := peeredTell "volume: 0\r\nloud\r\n"

def askVolume : Turn := peeredTurn { method := .getParameter, uri := "*" } []

def peeredSetUp : Proxy := peeredAnnounced.turn peeredContext peeredSetup

/-- The session once it was told a volume. -/
def peeredTold : Proxy := peeredSetUp.turn peeredContext tellTwoVolumes

/-- The exchanges of a run with parameters that are accepted, and then some that are refused. -/
def tellingExchanges : List Exchange :=
  [(ofClient peeredContext default default).exchange peeredContext peeredAnnounce,
    peeredAnnounced.exchange peeredContext peeredSetup,
    peeredSetUp.exchange peeredContext tellTwoVolumes,
    peeredTold.exchange peeredContext tellMalformed]

/-- The exchange in which the volume is asked for after that. -/
def askingExchange : Exchange := (peeredTold.turn peeredContext tellMalformed).exchange peeredContext askVolume

/-- The volume of the refused parameters is not answered. -/
theorem answers_volume_tellingExchanges :
    (∃ p, Serves peeredContext (tellingExchanges ++ [askingExchange]) p) ∧
      tellingExchanges.map (·.isAccepted) = [true, true, true, false] ∧
      lastTold tellingExchanges = some "  -11.5 " ∧
      ∃ reply, askingExchange.answer = some (.ok reply) ∧
        Parameters.parse reply.toResponse.bodyText = .ok [("volume", "-11.5")] := by
  have hrun : peeredAnnounced.wait.isNone = true ∧ peeredSetUp.wait.isNone = true ∧
      peeredTold.wait.isNone = true ∧ (peeredTold.turn peeredContext tellMalformed).wait.isNone = true ∧
      tellingExchanges.map (·.isAccepted) = [true, true, true, false] ∧
      lastTold tellingExchanges = some "  -11.5 " := by decide +kernel
  obtain ⟨hannounced, hsetUp, htold, hrefused, haccepted, hlast⟩ := hrun
  have hserves : Serves peeredContext (tellingExchanges ++ [askingExchange])
      ((peeredTold.turn peeredContext tellMalformed).turn peeredContext askVolume) :=
    .turn (.turn (.turn (.turn (.turn (.start default default []) rfl peeredAnnounce)
      (Option.isNone_iff_eq_none.1 hannounced) peeredSetup) (Option.isNone_iff_eq_none.1 hsetUp)
      tellTwoVolumes) (Option.isNone_iff_eq_none.1 htold) tellMalformed)
      (Option.isNone_iff_eq_none.1 hrefused) askVolume
  obtain ⟨reply, hanswer, hbody⟩ := hserves.answers_volume rfl
  rw [hlast] at hbody
  have htrim : Text.trim "  -11.5 " = "-11.5" := by decide +kernel
  exact ⟨⟨_, hserves⟩, haccepted, hlast, reply, hanswer, htrim ▸ hbody⟩

end Proxy
end Raop
