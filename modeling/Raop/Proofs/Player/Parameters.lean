/-
# What SET_PARAMETER leaves behind

The body is read as a whole first, so a malformed line has no effect. The
volumes are read one by one, and each one that is a number takes effect before
the next one is looked at: the request is answered with the first bad volume,
but the sink has the gain of the last good one in front of it, and every good
one was told (`applyParameters_eq`). Nothing at all has happened just if the
first volume is the bad one (`allOrNothing_iff`).

Key definitions: `Parameters.volumes`, `Parameters.heard`, `Player.hear`, `Player.AllOrNothing`.
Key theorems: `Player.applyParameters_eq`, `Player.setParameter_heard`.
-/
import Raop.Proofs.Player.Invariant

namespace Raop

namespace Parameters

/-- The values of the volume among parameters. -/
def volumes (parameters : List (String × String)) : List String :=
  (parameters.filter fun e => e.1 = volume).map (·.2)

/-- The volumes in front of the first one that is bad. -/
def heard : List String → List Float32
  | [] => []
  | v :: vs =>
    match parseVolume v with
    | .ok db => db :: heard vs
    | .error _ => []

variable {v : String} {vs : List String} {dbs : List Float32} {e : Error}

theorem heard_of_mapM : ∀ {vs : List String} {dbs : List Float32}, vs.mapM parseVolume = .ok dbs →
    heard vs = dbs
  | [], dbs, h => by
    rw [List.mapM_nil] at h
    exact Except.ok.inj h
  | v :: vs, dbs, h => by
    rw [List.mapM_cons] at h
    cases hv : parseVolume v with
    | error e =>
      rw [hv] at h
      cases h
    | ok db =>
      rw [hv] at h
      cases hvs : vs.mapM parseVolume with
      | error e =>
        rw [hvs] at h
        cases h
      | ok rest =>
        rw [hvs] at h
        obtain rfl : db :: rest = dbs := Except.ok.inj h
        rw [heard, hv]
        simp only [heard_of_mapM hvs]

end Parameters

namespace Player

open Parameters

/-- Volumes take effect one after the other. -/
def hear (p : Player) (dbs : List Float32) : Player := dbs.foldl applyVolume p

/-- The gain is that of the last volume, and each one was told. -/
theorem hear_eq : ∀ (dbs : List Float32) (p : Player),
    p.hear dbs =
      { session := { p.session with volumeKnown := p.session.volumeKnown || !dbs.isEmpty }
        sink := p.sink.setGain ((dbs.getLast?.map p.gainMapping.toDevice).getD p.sink.gain)
        output := p.output ++ dbs.map fun db => .event (.volumeChanged db) }
  | [], p => by simp [hear, Sink.setGain]
  | db :: dbs, p => by
    have ih := hear_eq dbs (p.applyVolume db)
    have hgain : (dbs.getLast?.map p.gainMapping.toDevice).getD (p.gainMapping.toDevice db) =
        p.gainMapping.toDevice (dbs.getLast?.getD db) := Option.getD_map ..
    have hmapping : (p.applyVolume db).gainMapping = p.gainMapping := rfl
    have hset : (p.applyVolume db).sink.gain = p.gainMapping.toDevice db := rfl
    rw [hear, List.foldl_cons, ← hear, ih, hmapping, hset, hgain, List.getLast?_cons]
    simp [applyVolume, update, emit, Sink.setGain]

/-- **The volumes in front of the first bad one take effect**, and the answer is that of reading them
all. -/
theorem applyParameters_eq : ∀ (l : List (String × String)) (p : Player),
    p.applyParameters l =
      (((volumes l).mapM parseVolume).map fun _ => {}, p.hear (heard (volumes l)))
  | [], p => rfl
  | (name, value) :: l, p => by
    have ih := applyParameters_eq l
    unfold applyParameters
    by_cases hname : name = volume
    · have hvolumes : volumes ((name, value) :: l) = value :: volumes l := by simp [volumes, hname]
      rw [if_pos hname, hvolumes, List.mapM_cons, heard]
      cases hv : parseVolume value with
      | error e => rfl
      | ok db =>
        simp only [ih]
        cases (volumes l).mapM parseVolume <;> rfl
    · have hvolumes : volumes ((name, value) :: l) = volumes l := by simp [volumes, hname]
      rw [if_neg hname, hvolumes, ih]

/-! ### All or nothing -/

/-- A request for parameters was heeded as a whole: all that it says could be read, and the gain is that
of its last volume, if it has one; or it was refused, and neither the gain nor what is known of the
volume changed, and nothing was told. -/
def AllOrNothing (request : Request) (p : Player) (result : Except Error Reply × Player) : Prop :=
  (∃ l dbs, Parameters.parse request.bodyText = .ok l ∧ (volumes l).mapM parseVolume = .ok dbs ∧
    result.1 = .ok {} ∧
    result.2.sink.gain = (dbs.getLast?.map p.gainMapping.toDevice).getD p.sink.gain) ∨
  ((∃ e, result.1 = .error e) ∧ result.2.sink.gain = p.sink.gain ∧
    result.2.session.volumeKnown = p.session.volumeKnown ∧ result.2.output = p.output)

variable {ctx : PlayerContext} {now : Moment} {request : Request} {p : Player}

theorem allOrNothing_of_error {e : Error} : AllOrNothing request p (.error e, p) :=
  Or.inr ⟨⟨e, rfl⟩, rfl, rfl, rfl⟩

/-- Parameters are heeded as a whole if all volumes can be read, or none in front of a bad one. -/
theorem allOrNothing_iff {l : List (String × String)}
    (hl : Parameters.parse request.bodyText = .ok l) :
    AllOrNothing request p (p.applyParameters l) ↔
      heard (volumes l) = [] ∨ ∃ dbs, (volumes l).mapM parseVolume = .ok dbs := by
  rw [applyParameters_eq, hear_eq]
  cases hvs : (volumes l).mapM parseVolume with
  | ok dbs =>
    refine iff_of_true (Or.inl ⟨l, dbs, hl, hvs, rfl, ?_⟩) (Or.inr ⟨dbs, rfl⟩)
    rw [heard_of_mapM hvs]
    rfl
  | error e =>
    constructor
    · rintro (⟨_, _, _, _, hok, _⟩ | ⟨_, _, _, houtput⟩)
      · cases hok
      · -- each volume that took effect was told
        exact Or.inl (List.map_eq_nil_iff.1 (List.append_right_eq_self.1 houtput))
    · rintro (hnone | ⟨dbs, hdbs⟩)
      · refine Or.inr ⟨⟨e, rfl⟩, ?_⟩
        simp [hnone, Sink.setGain]
      · cases hdbs

/-- **What SET_PARAMETER does**, in a state that admits it and with a body of parameters. A malformed
line refuses it without effect. Else the answer is that of reading all volumes, and those in front of
the first bad one have taken effect and were told; so it is all or nothing just if there is no bad one
or none in front of it. -/
theorem setParameter_heard (hm : request.method = .setParameter)
    (hstate : p.session.state ∈ SessionState.active) (hare : Parameters.areIn request = true) :
    (∀ e, Parameters.parse request.bodyText = .error e → p.handle ctx now request = (.error e, p)) ∧
    (∀ l, Parameters.parse request.bodyText = .ok l →
      p.handle ctx now request = (((volumes l).mapM parseVolume).map fun _ => {},
        { session := { p.session with
            volumeKnown := p.session.volumeKnown || !(heard (volumes l)).isEmpty }
          sink := p.sink.setGain
            (((heard (volumes l)).getLast?.map p.gainMapping.toDevice).getD p.sink.gain)
          output := p.output ++ (heard (volumes l)).map fun db => .event (.volumeChanged db) })) ∧
    (AllOrNothing request p (p.handle ctx now request) ↔
      ∀ l, Parameters.parse request.bodyText = .ok l →
        heard (volumes l) = [] ∨ ∃ dbs, (volumes l).mapM parseVolume = .ok dbs) := by
  have hexpect : p.session.state.expect request.method SessionState.active = .ok () :=
    SessionState.expect_eq_ok_iff.2 hstate
  have hhandle : p.handle ctx now request = p.setParameter request := by
    unfold handle
    rw [hm]
  have hmalformed (e : Error) (he : Parameters.parse request.bodyText = .error e) :
      p.handle ctx now request = (.error e, p) := by
    rw [hhandle, setParameter, hexpect]
    simp only [hare, if_true, he]
  have happly (l : List (String × String)) (hl : Parameters.parse request.bodyText = .ok l) :
      p.handle ctx now request = p.applyParameters l := by
    rw [hhandle, setParameter, hexpect]
    simp only [hare, if_true, hl]
  refine ⟨hmalformed, fun l hl => ?_, ?_⟩
  · rw [happly l hl, applyParameters_eq, hear_eq]
  · cases hparse : Parameters.parse request.bodyText with
    | error e =>
      rw [hmalformed e hparse]
      refine iff_of_true allOrNothing_of_error fun l hl => ?_
      cases hl
    | ok l =>
      rw [happly l hparse, allOrNothing_iff hparse]
      constructor
      · rintro h l' hl'
        obtain rfl := Except.ok.inj hl'
        exact h
      · exact fun h => h l rfl

open PlayerSession (plainContext afterAnnounce)

/-- A player that is set up. -/
def afterSetup : Player :=
  (handle plainContext default (setupWith "RTP/AVP/UDP") ⟨afterAnnounce, {}, []⟩).2

/-- A SET_PARAMETER with a body of parameters. -/
def parametersWith (body : String) : Request where
  method := .setParameter
  uri := "*"
  headers := ⟨[("Content-Type", Parameters.mediaType)]⟩
  body := Text.encode body

/-- Two volumes, of which the second one counts. -/
def twoVolumes : Request := parametersWith "volume: -15\r\nprogress: 1/2/3\r\nvolume: -30\r\n"

theorem setParameter_heard_twoVolumes :
    afterSetup.session.state = .setUp ∧
      AllOrNothing twoVolumes afterSetup (afterSetup.handle plainContext default twoVolumes) ∧
      (afterSetup.handle plainContext default twoVolumes).2.sink.gain =
        afterSetup.gainMapping.toDevice (-30) ∧
      (afterSetup.handle plainContext default twoVolumes).2.session.volumeKnown = true := by
  have hstate : afterSetup.session.state = .setUp := by decide +kernel
  have hactive : afterSetup.session.state ∈ SessionState.active := by rw [hstate]; decide
  have hparse : Parameters.parse twoVolumes.bodyText =
      .ok [("volume", "-15"), ("progress", "1/2/3"), ("volume", "-30")] := by decide +kernel
  have hvolumes : volumes [("volume", "-15"), ("progress", "1/2/3"), ("volume", "-30")] =
      ["-15", "-30"] := rfl
  have hread : ["-15", "-30"].mapM parseVolume = .ok [-15, -30] := by decide +kernel
  obtain ⟨-, hok, hiff⟩ := @setParameter_heard plainContext default twoVolumes afterSetup rfl hactive
    (by decide +kernel)
  rw [hparse] at hok hiff
  rw [hok _ rfl, hvolumes, heard_of_mapM hread] at *
  refine ⟨hstate, hiff.2 fun l hl => ?_, rfl, by simp⟩
  obtain rfl := Except.ok.inj hl
  exact Or.inr ⟨_, hread⟩

/-- A good volume with a bad one behind it. -/
def goodThenBad : Request := parametersWith "volume: -15\r\nvolume: loud\r\n"

/-- The volume in front of the bad one was heard, and told. -/
theorem not_allOrNothing_goodThenBad :
    PlayerSession.Reachable plainContext afterSetup.session ∧
      afterSetup.session.state = .setUp ∧
      (∃ e, (afterSetup.handle plainContext default goodThenBad).1 = .error e) ∧
      afterSetup.sink.gain = 1 ∧
      (afterSetup.handle plainContext default goodThenBad).2.sink.gain = 0.5 ∧
      ¬ AllOrNothing goodThenBad afterSetup
        (afterSetup.handle plainContext default goodThenBad) := by
  have hreach : PlayerSession.Reachable plainContext afterAnnounce :=
    .request (.start _ _) plainContext.binder _ _ _ _
  have hrun : afterSetup.session.state = .setUp ∧
      (afterSetup.handle plainContext default goodThenBad).1.toOption = none ∧
      afterSetup.sink.gain = 1 ∧
      (afterSetup.handle plainContext default goodThenBad).2.sink.gain = 0.5 := by decide +kernel
  obtain ⟨hstate, hrefused, hbefore, hafter⟩ := hrun
  obtain ⟨e, he⟩ : ∃ e, (afterSetup.handle plainContext default goodThenBad).1 = .error e := by
    cases h : (afterSetup.handle plainContext default goodThenBad).1 with
    | error e => exact ⟨e, rfl⟩
    | ok reply => simp [h, Except.toOption] at hrefused
  refine ⟨.request hreach plainContext.binder _ _ _ _, hstate, ⟨e, he⟩, hbefore, hafter, ?_⟩
  rintro (⟨_, _, _, _, hok, _⟩ | ⟨_, hgain, _⟩)
  · rw [he] at hok
    cases hok
  · rw [hafter, hbefore] at hgain
    exact absurd hgain (by decide)

end Player
end Raop
