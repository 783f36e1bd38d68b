/-
# Two sessions and one sink

All sessions of a player play to one sink, and a session that gives up a stream
stops it, whoever started it. So a session that records can be silenced by
another one that never did, but by nothing except the other one's giving up a
stream.

That is shown for any interleaving of the two sessions in which the one that
records goes on to hold its stream and the other one never records with
success. The induction is over the steps of both; carried along are that the
first session is streaming and that both hold what their states say.

Key definitions: `SharedPlayer`, `SharedPlayer.run`, `SharedPlayer.Reachable`,
`SharedPlayer.Never`, `SharedPlayer.Playing`.
Key theorems: `SharedPlayer.Playing.sink_take`, `SharedPlayer.Playing.sink_run`,
`SharedPlayer.started_iff_never_gives_up`.
-/
import Raop.Proofs.Player.SinkSteps

namespace Raop

/-- Two sessions of a player and their sink. -/
structure SharedPlayer where
  first : PlayerSession
  second : PlayerSession
  sink : Sink

/-- One of two sessions. -/
inductive Side where
  | first
  | second
  deriving DecidableEq, Repr

namespace SharedPlayer

/-- A session at work. -/
def player (w : SharedPlayer) : Side → Player
  | .first => { session := w.first, sink := w.sink }
  | .second => { session := w.second, sink := w.sink }

/-- A session has worked. -/
def put (w : SharedPlayer) (p : Player) : Side → SharedPlayer
  | .first => { w with first := p.session, sink := p.sink }
  | .second => { w with second := p.session, sink := p.sink }

/-- Something happens to one of the sessions. -/
def take (ctx : PlayerContext) (w : SharedPlayer) (step : Side × Player.Occurrence) : SharedPlayer :=
  w.put ((w.player step.1).meet ctx step.2) step.1

/-- The sessions after steps of either, in any order. -/
def run (ctx : PlayerContext) (w : SharedPlayer) (steps : List (Side × Player.Occurrence)) :
    SharedPlayer :=
  steps.foldl (take ctx) w

/-- The sessions and the sink that can come about from two new sessions at a sink. -/
inductive Reachable (ctx : PlayerContext) : SharedPlayer → Prop where
  | start (client localEnd client' localEnd' : Endpoint) (sink : Sink) :
      Reachable ctx ⟨{ client, localEnd }, { client := client', localEnd := localEnd' }, sink⟩
  | take {w : SharedPlayer} (h : Reachable ctx w) (step : Side × Player.Occurrence) :
      Reachable ctx (w.take ctx step)

/-- No step of a side is of a kind. -/
def Never (ctx : PlayerContext) (side : Side)
    (kind : PlayerContext → Player → Player.Occurrence → Prop) :
    SharedPlayer → List (Side × Player.Occurrence) → Prop
  | _, [] => True
  | w, step :: steps =>
    (step.1 = side → ¬ kind ctx (w.player side) step.2) ∧ Never ctx side kind (w.take ctx step) steps

instance decidableNever (ctx : PlayerContext) (side : Side)
    (kind : PlayerContext → Player → Player.Occurrence → Prop)
    [∀ ctx p o, Decidable (kind ctx p o)] :
    (w : SharedPlayer) → (steps : List (Side × Player.Occurrence)) →
      Decidable (w.Never ctx side kind steps)
  | _, [] => isTrue trivial
  | w, step :: steps =>
    have := decidableNever ctx side kind (w.take ctx step) steps
    inferInstanceAs (Decidable ((_ → _) ∧ _))

variable {ctx : PlayerContext} {w : SharedPlayer} {step : Side × Player.Occurrence}

theorem Reachable.consistent (h : Reachable ctx w) : w.first.Consistent ∧ w.second.Consistent := by
  induction h with
  | start client localEnd client' localEnd' sink => exact ⟨.fresh _ _, .fresh _ _⟩
  | @take w h step ih =>
    obtain ⟨side, o⟩ := step
    cases side with
    | first => exact ⟨Player.consistent_meet (p := w.player .first) ih.1 o, ih.2⟩
    | second => exact ⟨ih.1, Player.consistent_meet (p := w.player .second) ih.2 o⟩

/-- The first session is at its stream, whatever the second one does. -/
structure Playing (w : SharedPlayer) : Prop where
  first_consistent : w.first.Consistent
  second_consistent : w.second.Consistent
  streaming : w.first.state ∈ SessionState.streaming

theorem Playing.take (h : w.Playing)
    (hfirst : step.1 = .first → ¬ (w.player .first).GivesUp ctx step.2) :
    (w.take ctx step).Playing := by
  obtain ⟨side, o⟩ := step
  cases side with
  | first =>
    exact ⟨Player.consistent_meet (p := w.player .first) h.first_consistent o, h.second_consistent,
      Player.streaming_meet (p := w.player .first) h.streaming (hfirst rfl)⟩
  | second =>
    exact ⟨h.first_consistent, Player.consistent_meet (p := w.player .second) h.second_consistent o,
      h.streaming⟩

/-- A step stops the sink just if the second session gives up a stream with it. -/
theorem Playing.sink_take (h : w.Playing)
    (hfirst : step.1 = .first → ¬ (w.player .first).GivesUp ctx step.2)
    (hsecond : step.1 = .second → ¬ (w.player .second).Records ctx step.2) :
    (¬ (step.1 = .second → ¬ (w.player .second).GivesUp ctx step.2) ∧
        (w.take ctx step).sink = w.sink.stop) ∨
      (step.1 = .second → ¬ (w.player .second).GivesUp ctx step.2) ∧
        w.sink.SameMode (w.take ctx step).sink := by
  obtain ⟨side, o⟩ := step
  cases side with
  | first =>
    have hstep : (w.player .first).SinkStep ctx o := Player.sinkStep h.first_consistent o
    cases hstep with
    | stops gives => exact absurd gives (hfirst rfl)
    | keeps _ sink => exact Or.inr ⟨by simp, sink⟩
    | starts _ state =>
      have hstreaming := h.streaming
      have hstate : w.first.state = .setUp := state
      rw [hstate] at hstreaming
      exact absurd hstreaming (by decide)
  | second =>
    have hstep : (w.player .second).SinkStep ctx o := Player.sinkStep h.second_consistent o
    cases hstep with
    | stops gives sink => exact Or.inl ⟨fun hnot => hnot rfl gives, sink⟩
    | keeps holds sink => exact Or.inr ⟨fun _ => holds, sink⟩
    | starts _ _ records => exact absurd records (hsecond rfl)

/-- **The sink at the end of an interleaving.** It is as started as it was, or it was stopped when the
second session gave up a stream, and not started again. -/
theorem Playing.sink_run : ∀ (steps : List (Side × Player.Occurrence)) {w : SharedPlayer}, w.Playing →
    w.Never ctx .first Player.GivesUp steps → w.Never ctx .second Player.Records steps →
    w.Never ctx .second Player.GivesUp steps ∧ w.sink.SameMode (w.run ctx steps).sink ∨
      ¬ w.Never ctx .second Player.GivesUp steps ∧ (w.run ctx steps).sink.format = none
  | [], w, _, _, _ => Or.inl ⟨trivial, .refl _⟩
  | step :: steps, w, h, hfirst, hsecond => by
    have ih := sink_run steps (h.take hfirst.1) hfirst.2 hsecond.2
    have hrun : w.run ctx (step :: steps) = (w.take ctx step).run ctx steps := rfl
    rw [hrun]
    rcases h.sink_take hfirst.1 hsecond.1 with ⟨hgives, hsink⟩ | ⟨hholds, hsame⟩
    · refine Or.inr ⟨fun hnever => hgives hnever.1, ?_⟩
      rcases ih with ⟨-, hsame⟩ | ⟨-, hnone⟩
      · rw [hsame.format, hsink]
        rfl
      · exact hnone
    · rcases ih with ⟨hnever, hsame'⟩ | ⟨hnot, hnone⟩
      · exact Or.inl ⟨⟨hholds, hnever⟩, hsame.trans hsame'⟩
      · exact Or.inr ⟨fun hnever => hnot hnever.2, hnone⟩

/-- **Only a stream given up stops the sink of another session.** While the first session records to a
sink that is started, and holds its stream, let the second one do anything but RECORD with success. Then
the sink is started in the end just if the second session never gave up a stream that it held; and if it
never did, each packet that the first session could deliver before is still taken. -/
theorem started_iff_never_gives_up {steps : List (Side × Player.Occurrence)} (h : w.Reachable ctx)
    (hstate : w.first.state = .recording) (hstarted : w.sink.format.isSome = true)
    (hfirst : w.Never ctx .first Player.GivesUp steps)
    (hsecond : w.Never ctx .second Player.Records steps) :
    ((w.run ctx steps).sink.format.isSome = true ↔ w.Never ctx .second Player.GivesUp steps) ∧
      (w.Never ctx .second Player.GivesUp steps →
        (w.run ctx steps).sink.format = w.sink.format ∧
        ∀ pipeline, w.first.pipeline = some pipeline → ∀ packet,
          (∃ sink, pipeline.deliver packet w.sink = .ok sink) →
          ∃ sink, pipeline.deliver packet (w.run ctx steps).sink = .ok sink) := by
  have hplaying : w.Playing :=
    ⟨h.consistent.1, h.consistent.2, by rw [hstate]; decide⟩
  rcases hplaying.sink_run steps hfirst hsecond with ⟨hnever, hsame⟩ | ⟨hnot, hnone⟩
  · refine ⟨iff_of_true (by rw [hsame.format, hstarted]) hnever, fun _ => ⟨hsame.format, ?_⟩⟩
    intro pipeline _ packet hdeliver
    rw [Pipeline.deliver_isOk_iff] at hdeliver ⊢
    rwa [hsame.keeps, hsame.format, hsame.enqueueFault]
  · exact ⟨iff_of_false (by simp [hnone]) hnot, fun hnever => absurd hnever hnot⟩

theorem Reachable.run (steps : List (Side × Player.Occurrence)) (h : Reachable ctx w) :
    Reachable ctx (w.run ctx steps) := by
  induction steps generalizing w with
  | nil => exact h
  | cons step steps ih => exact ih (h.take step)

open PlayerSession (plainContext announceLossless)

/-- A request of one of the sessions. -/
def ask (side : Side) (request : Request) : Side × Player.Occurrence :=
  (side, .request plainContext.binder default request)

/-- Two new sessions. -/
def atRest : SharedPlayer :=
  ⟨{ client := default, localEnd := default }, { client := default, localEnd := default }, {}⟩

/-- The first session records. -/
def firstRecords : SharedPlayer :=
  atRest.run plainContext [ask .first announceLossless, ask .first (setupWith "RTP/AVP/UDP"),
    ask .first { method := .record, uri := "*" }]

theorem reachable_firstRecords : Reachable plainContext firstRecords :=
  .run _ (.start default default default default {})

/-- The way of the first session's packets. -/
def firstPipeline : Pipeline := { decoder := ⟨.compactDisc⟩, decryptor := none }

def onePacket : AudioPacket := { sequence := 1, timestamp := 352, ssrc := 0, payload := [0, 1, 0, 2] }

/-- The second session comes to SetUp. -/
def secondSetsUp : List (Side × Player.Occurrence) :=
  [ask .second announceLossless, ask .first { method := .flush, uri := "*" },
    ask .second (setupWith "RTP/AVP/UDP"), ask .second { method := .getParameter, uri := "*" }]

theorem started_while_secondSetsUp :
    (firstRecords.run plainContext secondSetsUp).second.state = .setUp ∧
      (firstRecords.run plainContext secondSetsUp).sink.format = some .compactDisc ∧
      ∃ sink, firstPipeline.deliver onePacket (firstRecords.run plainContext secondSetsUp).sink =
        .ok sink := by
  have hrun : firstRecords.first.state = .recording ∧
      firstRecords.sink.format = some .compactDisc ∧
      firstRecords.first.pipeline = some firstPipeline ∧
      firstRecords.Never plainContext .first Player.GivesUp secondSetsUp ∧
      firstRecords.Never plainContext .second Player.Records secondSetsUp ∧
      firstRecords.Never plainContext .second Player.GivesUp secondSetsUp ∧
      (firstRecords.run plainContext secondSetsUp).second.state = .setUp := by decide +kernel
  obtain ⟨hstate, hformat, hpipeline, hfirst, hsecond, hholds, hsetUp⟩ := hrun
  obtain ⟨-, hkept⟩ := started_iff_never_gives_up reachable_firstRecords hstate
    (by rw [hformat]; rfl) hfirst hsecond
  obtain ⟨hsame, htaken⟩ := hkept hholds
  refine ⟨hsetUp, hsame.trans hformat, htaken firstPipeline hpipeline onePacket ?_⟩
  rw [Pipeline.deliver_isOk_iff, hformat]
  exact ⟨⟨_, rfl⟩, by decide +kernel, fun _ => rfl⟩

/-- The second session announces a stream and is gone. -/
def secondVisits : List (Side × Player.Occurrence) := [ask .second announceLossless, (.second, .shutdown)]

/-- The second session never recorded, and the packets of the first one are refused. -/
theorem stopped_when_secondVisits :
    Reachable plainContext firstRecords ∧ firstRecords.first.state = .recording ∧
      firstRecords.sink.format = some .compactDisc ∧
      (∀ step ∈ secondVisits, step.1 = .second) ∧
      firstRecords.Never plainContext .second Player.Records secondVisits ∧
      (firstRecords.run plainContext secondVisits).sink.format = none ∧
      firstRecords.first.pipeline = some firstPipeline ∧
      (∃ sink, firstPipeline.deliver onePacket firstRecords.sink = .ok sink) ∧
      ¬ ∃ sink, firstPipeline.deliver onePacket (firstRecords.run plainContext secondVisits).sink =
        .ok sink := by
  have hrun : firstRecords.first.state = .recording ∧
      firstRecords.sink.format = some .compactDisc ∧
      firstRecords.Never plainContext .second Player.Records secondVisits ∧
      (firstRecords.run plainContext secondVisits).sink.format = none ∧
      (firstRecords.run plainContext secondVisits).sink.keeps = true ∧
      firstRecords.first.pipeline = some firstPipeline ∧
      firstRecords.sink.enqueueFault = none := by decide +kernel
  obtain ⟨hstate, hformat, hsecond, hstopped, hkeeps, hpipeline, hfault⟩ := hrun
  refine ⟨reachable_firstRecords, hstate, hformat, by decide, hsecond, hstopped, hpipeline, ?_, ?_⟩
  · rw [Pipeline.deliver_isOk_iff, hformat]
    exact ⟨⟨_, rfl⟩, hfault, fun _ => rfl⟩
  · rw [Pipeline.deliver_isOk_iff, hstopped, hkeeps]
    rintro ⟨-, -, hstarted⟩
    exact absurd (hstarted rfl) (by decide)

end SharedPlayer
end Raop
