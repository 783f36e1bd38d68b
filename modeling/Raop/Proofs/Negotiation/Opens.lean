/-
# What a negotiation opens

An opener is a function of a state, so the channels it was asked for cannot be
read off its answers. An opener that keeps what it is asked for opens the same
channels (`Opener.logged`), and it tells for any opener what a negotiation did
with it.

An option opens one channel or none, and is answered or refused
(`Negotiation.OptionCourse`, a constructor for each way it can go). Options are
worked through in order: all of them (`Negotiation.Granted`), or those in front
of the first that is refused (`Negotiation.OptionsCourse`). A negotiation reads
the whole specification before it opens anything, and opens the audio channel
when every option was answered (`Negotiation.Course`).

Key definitions: `OpenCall`, `Opener.logged`, `Negotiation.Refuses`, `Negotiation.OptionCourse`,
`Negotiation.Granted`, `Negotiation.OptionsCourse`, `Negotiation.Course`.
Key theorems: `Negotiation.answerOption_logged`, `Negotiation.answerOptions_logged`,
`Negotiation.negotiate_logged`, `Negotiation.Course.audio`,
`Negotiation.course_of_negotiate`.
-/
import Raop.Proofs.Proxy.PeerAccepts

namespace Raop

open Text

/-- A channel that an opener was asked for, and the port it gave, or the error. -/
structure OpenCall where
  role : Role
  remote : Option Endpoint
  result : Except Error UInt16

/-- The opener that keeps what it is asked for, in order. -/
def Opener.logged {σ : Type} (opener : Opener σ) : Opener (σ × List OpenCall) := fun role remote s =>
  let (result, s') := opener role remote s.1
  (result, s', s.2 ++ [⟨role, remote, result⟩])

namespace Negotiation

variable {σ : Type} {opener : Opener σ} {client : IpAddress} {value : String}
  {o : TransportOption} {os : List TransportOption}

/-! ### What can become of options -/

/-- Why an option is refused for what it says. -/
inductive Refuses (o : TransportOption) : TransportError → Prop
  /-- It asks for a channel and names no port number. -/
  | port {role : Role} : roleOf? o.key = some role →
      (∀ text, o.value = some text → readU16? text.toList = none) →
      Refuses o (.invalidPort o.key (o.value.getD ""))
  /-- It must have one certain value, and has another or none. -/
  | value {required : String} : required? o.key = some required → o.value ≠ some required →
      Refuses o (.unsupportedValue o.key (o.value.getD ""))

/-- What can become of an option, with the channels that are opened for it. -/
inductive OptionCourse (client : IpAddress) (o : TransportOption) :
    List OpenCall → Except Error TransportOption → Prop
  /-- An option that asks for no channel is echoed, if it has the value it must have. -/
  | echoed : roleOf? o.key = none → (∀ text, required? o.key = some text → o.value = some text) →
      OptionCourse client o [] (.ok o)
  /-- A channel is opened, connected to the port of the client that the option names, and the option is
  answered with the port of the channel. -/
  | opened {role : Role} {text : String} {port localPort : UInt16} : roleOf? o.key = some role →
      o.value = some text → readU16? text.toList = some port →
      OptionCourse client o [⟨role, some ⟨client, port⟩, .ok localPort⟩]
        (.ok (o.withValue (natText localPort.toNat)))
  | refused {e : TransportError} : Refuses o e → OptionCourse client o [] (.error (.transport e))
  /-- The channel does not open. -/
  | failed {role : Role} {text : String} {port : UInt16} {e : Error} : roleOf? o.key = some role →
      o.value = some text → readU16? text.toList = some port →
      OptionCourse client o [⟨role, some ⟨client, port⟩, .error e⟩] (.error e)

/-- Options that are all answered, with the channels that are opened for them and their answers. -/
inductive Granted (client : IpAddress) :
    List TransportOption → List OpenCall → List TransportOption → Prop
  | nil : Granted client [] [] []
  | cons {o a : TransportOption} {os as : List TransportOption} {calls calls' : List OpenCall} :
      OptionCourse client o calls (.ok a) → Granted client os calls' as →
      Granted client (o :: os) (calls ++ calls') (a :: as)

/-- What can become of options in order. -/
inductive OptionsCourse (client : IpAddress) (os : List TransportOption) :
    List OpenCall → Except Error (List TransportOption) → Prop
  | granted {calls : List OpenCall} {as : List TransportOption} : Granted client os calls as →
      OptionsCourse client os calls (.ok as)
  /-- Those in front of one are answered, and that one is refused or its channel fails. -/
  | stopped {before after as : List TransportOption} {o : TransportOption}
      {calls calls' : List OpenCall} {e : Error} : os = before ++ o :: after →
      Granted client before calls as → OptionCourse client o calls' (.error e) →
      OptionsCourse client os (calls ++ calls') (.error e)

/-- What can become of a specification, with the channels that are opened for it. -/
inductive Course (client : IpAddress) (value : String) :
    List OpenCall → Except Error Transport → Prop
  /-- Nothing is opened for a specification that cannot be read. -/
  | unread {e : TransportError} : Transport.parse value = .error e →
      Course client value [] (.error (.transport e))
  | stopped {sent : Transport} {calls : List OpenCall} {e : Error} :
      Transport.parse value = .ok sent → OptionsCourse client sent.options calls (.error e) →
      Course client value calls (.error e)
  /-- All options are answered, and the audio channel does not open. -/
  | silent {sent : Transport} {calls : List OpenCall} {as : List TransportOption} {e : Error} :
      Transport.parse value = .ok sent → Granted client sent.options calls as →
      Course client value (calls ++ [⟨.audio, none, .error e⟩]) (.error e)
  /-- The answers are those to the options, in order, and the port of the audio channel. -/
  | answered {sent : Transport} {calls : List OpenCall} {as : List TransportOption} {port : UInt16} :
      Transport.parse value = .ok sent → Granted client sent.options calls as →
      Course client value (calls ++ [⟨.audio, none, .ok port⟩])
        (.ok ⟨as ++ [{ key := Transport.serverPort, value := some (natText port.toNat) }]⟩)

/-! ### What becomes of them -/

theorem refuses_of_portOf {role : Role} {e : Error} (hrole : roleOf? o.key = some role)
    (h : portOf o = .error e) : ∃ e', e = .transport e' ∧ Refuses o e' := by
  unfold portOf at h
  split at h
  · cases h
  · next hnone =>
    refine ⟨_, (Except.error.inj h).symm, .port hrole fun text htext => ?_⟩
    rw [htext] at hnone
    exact hnone

/-- One option, whatever was opened before. -/
theorem answerOption_logged (opener : Opener σ) (client : IpAddress) (o : TransportOption) (s : σ)
    (log : List OpenCall) : ∃ calls,
      answerOption opener.logged client o (s, log) =
        ((answerOption opener client o s).1, (answerOption opener client o s).2, log ++ calls) ∧
      OptionCourse client o calls (answerOption opener client o s).1 := by
  unfold answerOption
  cases hrole : roleOf? o.key with
  | none =>
    cases hrequired : required? o.key with
    | none => exact ⟨[], by simp, .echoed hrole (by simp [hrequired])⟩
    | some text =>
      by_cases hvalue : o.value = some text
      · have hall : ∀ other, required? o.key = some other → o.value = some other := by
          intro other hother
          rw [hvalue, ← hrequired, hother]
        exact ⟨[], by simp [hvalue], by simpa [hvalue] using OptionCourse.echoed hrole hall⟩
      · refine ⟨[], by simp [hvalue], ?_⟩
        simp only [if_neg hvalue]
        exact .refused (.value hrequired hvalue)
  | some role =>
    cases hport : portOf o with
    | error e =>
      obtain ⟨e', rfl, hrefuses⟩ := refuses_of_portOf hrole hport
      exact ⟨[], by simp, .refused hrefuses⟩
    | ok port =>
      obtain ⟨text, htext, hread⟩ := portOf_eq_ok_iff.1 hport
      rcases hopen : opener role (some ⟨client, port⟩) s with ⟨e | localPort, s'⟩
      · refine ⟨[⟨role, some ⟨client, port⟩, .error e⟩], ?_, ?_⟩
        · simp only [Opener.logged, hopen]
        · simpa only [hopen] using OptionCourse.failed hrole htext hread
      · refine ⟨[⟨role, some ⟨client, port⟩, .ok localPort⟩], ?_, ?_⟩
        · simp only [Opener.logged, hopen]
        · simpa only [hopen] using OptionCourse.opened hrole htext hread

/-- What becomes of an option that is answered goes in front of what becomes of the others. -/
theorem OptionsCourse.cons {a : TransportOption} {calls calls' : List OpenCall}
    {result : Except Error (List TransportOption)} (h : OptionCourse client o calls (.ok a))
    (h' : OptionsCourse client os calls' result) :
    OptionsCourse client (o :: os) (calls ++ calls') (result.map (a :: ·)) := by
  cases h' with
  | granted hall => exact .granted (.cons h hall)
  | stopped hsplit hbefore hstop =>
    rw [← List.append_assoc]
    exact .stopped (by rw [hsplit]; rfl) (.cons h hbefore) hstop

/-- Options in order, whatever was opened before. -/
theorem answerOptions_logged (opener : Opener σ) (client : IpAddress) :
    ∀ (os : List TransportOption) (s : σ) (log : List OpenCall), ∃ calls,
      answerOptions opener.logged client os (s, log) =
        ((answerOptions opener client os s).1, (answerOptions opener client os s).2, log ++ calls) ∧
      OptionsCourse client os calls (answerOptions opener client os s).1
  | [], s, log => ⟨[], by simp [answerOptions], .granted .nil⟩
  | o :: os, s, log => by
    obtain ⟨calls, hlogged, hcourse⟩ := answerOption_logged opener client o s log
    rcases ha : answerOption opener client o s with ⟨e | a, s₁⟩
    · rw [ha] at hlogged hcourse
      refine ⟨calls, by simp only [answerOptions, hlogged, ha], ?_⟩
      simp only [answerOptions, ha]
      exact .stopped (List.nil_append (o :: os)).symm .nil hcourse
    · rw [ha] at hlogged hcourse
      obtain ⟨calls', hlogged', hcourse'⟩ := answerOptions_logged opener client os s₁ (log ++ calls)
      have hall := hcourse'.cons hcourse
      rcases has : answerOptions opener client os s₁ with ⟨e | as, s₂⟩
      all_goals
        rw [has] at hlogged' hall
        refine ⟨calls ++ calls', ?_, ?_⟩
        · simp only [answerOptions, hlogged, hlogged', ha, has, List.append_assoc]
        · simpa only [answerOptions, ha, has, Except.map] using hall

/-- The whole specification. -/
theorem negotiate_logged (opener : Opener σ) (client : IpAddress) (value : String) (s : σ) :
    ∃ calls, negotiate opener.logged client value (s, []) =
        ((negotiate opener client value s).1, (negotiate opener client value s).2, calls) ∧
      Course client value calls (negotiate opener client value s).1 := by
  cases hsent : Transport.parse value with
  | error e =>
    refine ⟨[], by simp only [negotiate, hsent], ?_⟩
    simpa only [negotiate, hsent] using Course.unread hsent
  | ok sent =>
    obtain ⟨calls, hlogged, hcourse⟩ := answerOptions_logged opener client sent.options s []
    rw [List.nil_append] at hlogged
    rcases has : answerOptions opener client sent.options s with ⟨e | as, s₁⟩
    · rw [has] at hlogged hcourse
      refine ⟨calls, by simp only [negotiate, hsent, hlogged, has], ?_⟩
      simpa only [negotiate, hsent, has] using Course.stopped hsent hcourse
    · rw [has] at hlogged hcourse
      cases hcourse with
      | granted hall =>
        rcases haudio : opener .audio none s₁ with ⟨e | port, s₂⟩
        · refine ⟨calls ++ [⟨.audio, none, .error e⟩], ?_, ?_⟩
          · simp only [negotiate, hsent, hlogged, has, Opener.logged, haudio]
          · simpa only [negotiate, hsent, has, haudio] using Course.silent hsent hall
        · refine ⟨calls ++ [⟨.audio, none, .ok port⟩], ?_, ?_⟩
          · simp only [negotiate, hsent, hlogged, has, Opener.logged, haudio]
          · simpa only [negotiate, hsent, has, haudio] using Course.answered hsent hall

/-! ### The audio channel -/

/-- No option opens the audio channel. -/
theorem OptionCourse.role_ne_audio {calls : List OpenCall} {result : Except Error TransportOption}
    (h : OptionCourse client o calls result) : ∀ c ∈ calls, c.role ≠ .audio := by
  intro c hc haudio
  cases h with
  | echoed | refused => cases hc
  | opened hrole | failed hrole =>
    rw [List.mem_singleton.1 hc] at haudio
    exact roleOf?_ne_audio (hrole.trans (congrArg some haudio))

theorem Granted.role_ne_audio {calls : List OpenCall} {as : List TransportOption}
    (h : Granted client os calls as) : ∀ c ∈ calls, c.role ≠ .audio := by
  induction h with
  | nil => simp
  | cons hcourse _ ih =>
    intro c hc
    rcases List.mem_append.1 hc with hc | hc
    · exact hcourse.role_ne_audio c hc
    · exact ih c hc

/-- Where the audio channel was asked for, all options were answered, and it was the last. -/
theorem Course.audio {calls : List OpenCall} {result : Except Error Transport}
    (h : Course client value calls result) : ∀ c ∈ calls, c.role = .audio →
      ∃ sent before as, Transport.parse value = .ok sent ∧ Granted client sent.options before as ∧
        c.remote = none ∧ calls = before ++ [c] := by
  intro c hc haudio
  cases h with
  | unread => cases hc
  | stopped _ hstopped =>
    cases hstopped with
    | stopped _ hbefore hstop =>
      rcases List.mem_append.1 hc with hc | hc
      · exact absurd haudio (hbefore.role_ne_audio c hc)
      · exact absurd haudio (hstop.role_ne_audio c hc)
  | silent hsent hall | answered hsent hall =>
    rcases List.mem_append.1 hc with hc | hc
    · exact absurd haudio (hall.role_ne_audio c hc)
    · obtain rfl := List.mem_singleton.1 hc
      exact ⟨_, _, _, hsent, hall, rfl, rfl⟩

/-- **What a negotiation opens.** With any opener, for any client and any text, an opener that keeps
what it is asked for is asked for certain channels, and gives the same result and the same state. The
result and the channels go together in one of four ways (`Course`): the text cannot be read, and no
channel was asked for; an option is refused or its channel fails, and those asked for are the channels of
the options in front of it, each once and in order, and the one that failed; the audio channel fails, or
all is answered, and those asked for are the channels of all options and the audio channel. The audio
channel is asked for if all options were answered, and only then. -/
theorem course_of_negotiate (opener : Opener σ) (client : IpAddress) (value : String) (s : σ) :
    ∃ calls, negotiate opener.logged client value (s, []) =
        ((negotiate opener client value s).1, (negotiate opener client value s).2, calls) ∧
      Course client value calls (negotiate opener client value s).1 ∧
      ∀ c ∈ calls, c.role = .audio → ∃ sent before as, Transport.parse value = .ok sent ∧
        Granted client sent.options before as ∧ c.remote = none ∧ calls = before ++ [c] := by
  obtain ⟨calls, hlogged, hcourse⟩ := negotiate_logged opener client value s
  exact ⟨calls, hlogged, hcourse, hcourse.audio⟩

/-- Ports that are given out one after the other. -/
def successive : Opener UInt16 := fun _ _ port => (.ok port, port + 1)

/-- A control port, and an option without a key behind it. -/
def malformedTransport : String := "RTP/AVP/UDP;control_port=6001;=5"

/-- Nothing is opened for the control port, which by itself is answered: the specification cannot be
read, for the option behind it. -/
theorem unopened_in_front_of_malformed :
    split ';' malformedTransport.toList =
        [Transport.protocol.toList, "control_port=6001".toList, "=5".toList] ∧
      TransportOption.parse "=5".toList = .error (.malformedOption "=5") ∧
      negotiate successive.logged default malformedTransport (7000, []) =
        (.error (.transport (.malformedOption "=5")), 7000, []) ∧
      ∃ o a c, TransportOption.parse "control_port=6001".toList = .ok o ∧
        answerOptions successive.logged default [o] (7000, []) = (.ok [a], 7001, [c]) := by
  have hread : TransportOption.parse "control_port=6001".toList = .ok ⟨"control_port", some "6001"⟩ := rfl
  exact ⟨rfl, rfl, rfl, _, ⟨"control_port", some "7000"⟩, ⟨.control, some ⟨default, 6001⟩, .ok 7000⟩,
    hread, rfl⟩

end Negotiation
end Raop
