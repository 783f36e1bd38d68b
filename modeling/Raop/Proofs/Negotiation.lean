/-
# The ports that a negotiation answers with

Each control or timing port that is asked for opens a channel, and a channel
that is opened replaces the one of its role. So of several options of one key
the last one names the channel that the set has in the end, and those in front
of it name whatever was granted before. The server port is that of the audio
channel, which is opened after everything else; a server port that was asked
for is echoed in front of it.

The induction is over the options that are answered. Carried along is that the
set keeps to one channel for each role, and for every key either the last
option names the channel of its role, or there was none and the channel is the
one from before.

Key definitions: `Negotiation.portRole?`, `Negotiation.lastOf`, `ChannelSet.Names`,
`Negotiation.Served`, `Negotiation.Answered`, `Negotiation.OneValue`,
`setupWith`, `setupReply`.
Key theorems: `Negotiation.answerOption_eq_ok`, `Negotiation.served_of_answerOptions`,
`Negotiation.negotiate_eq_ok`, `Negotiation.Answered.forall_names_iff`,
`Negotiation.Answered.forall_names_of_nodup`.
-/
import Raop.Proofs.Message.Headers
import Raop.Proofs.Net.ChannelSet
import Raop.Proofs.Transport.RoundTrip
import Raop.SessionState

namespace Raop

open Text

namespace Negotiation

/-- The role of the channel whose local port an option of an answer names. -/
def portRole? (key : String) : Option Role :=
  if key = Transport.serverPort then some .audio else roleOf? key

theorem portRole?_serverPort : portRole? Transport.serverPort = some .audio := if_pos rfl

theorem portRole?_of_roleOf? {key : String} {role : Role} (h : roleOf? key = some role) :
    portRole? key = some role := by
  have hne : key ≠ Transport.serverPort := by
    rintro rfl
    have hnone : roleOf? Transport.serverPort = none := by decide
    rw [hnone] at h
    cases h
  rw [portRole?, if_neg hne, h]

theorem roleOf?_eq_some_iff {key : String} {role : Role} :
    roleOf? key = some role ↔
      key = Transport.controlPort ∧ role = .control ∨ key = Transport.timingPort ∧ role = .timing := by
  have hne : Transport.timingPort ≠ Transport.controlPort := by decide
  unfold roleOf?
  split
  · next hkey => simp [hkey, hne.symm, eq_comm]
  · next hkey =>
    split
    · next htiming => simp [htiming, hne, eq_comm]
    · next htiming => simp [hkey, htiming]

theorem roleOf?_ne_audio {key : String} : roleOf? key ≠ some .audio := by
  rw [Ne, roleOf?_eq_some_iff]
  simp

/-- Each role is asked for by one key. -/
theorem roleOf?_inj {key key' : String} {role : Role} (h : roleOf? key = some role)
    (h' : roleOf? key' = some role) : key = key' := by
  rcases roleOf?_eq_some_iff.1 h with ⟨rfl, rfl⟩ | ⟨rfl, rfl⟩
  · rcases roleOf?_eq_some_iff.1 h' with ⟨rfl, -⟩ | ⟨-, hr⟩
    · rfl
    · cases hr
  · rcases roleOf?_eq_some_iff.1 h' with ⟨-, hr⟩ | ⟨rfl, -⟩
    · cases hr
    · rfl

/-! ### The last option of a key -/

/-- The last option of a key. -/
def lastOf (key : String) (os : List TransportOption) : Option TransportOption :=
  (os.filter fun o => o.key = key).getLast?

variable {key : String} {o a : TransportOption} {os : List TransportOption}

theorem lastOf_append_singleton (key : String) (os : List TransportOption) (o : TransportOption) :
    lastOf key (os ++ [o]) = if o.key = key then some o else lastOf key os := by
  unfold lastOf
  by_cases h : o.key = key <;> simp [h]

theorem lastOf_cons (key : String) (o : TransportOption) (os : List TransportOption) :
    lastOf key (o :: os) = (lastOf key os).or (if o.key = key then some o else none) := by
  unfold lastOf
  by_cases h : o.key = key
  · rw [List.filter_cons_of_pos (by simpa using h), List.getLast?_cons, if_pos h]
    cases (os.filter fun o => o.key = key).getLast? <;> rfl
  · rw [List.filter_cons_of_neg (by simpa using h), if_neg h, Option.or_none]

theorem mem_of_lastOf (h : lastOf key os = some o) : o ∈ os ∧ o.key = key := by
  have hmem := List.mem_of_getLast? h
  simpa using hmem

theorem exists_lastOf (h : o ∈ os) : ∃ a, lastOf o.key os = some a := by
  refine ⟨_, List.getLast?_eq_some_getLast (List.ne_nil_of_mem (a := o) ?_)⟩
  simpa using h

end Negotiation

/-- A port that an option names is that of an open channel of the set, in the role that the option's
key stands for. -/
def ChannelSet.Names (s : ChannelSet) (o : TransportOption) : Prop :=
  ∀ role, Negotiation.portRole? o.key = some role →
    ∃ c, s.get? role = some c ∧ c.isOpen = true ∧ c.receiving = true ∧
      o.value = some (natText c.port.toNat)

/-- The channel of a role is open and has the port that an option names. -/
theorem ChannelSet.names_iff {s : ChannelSet} {o : TransportOption} {role : Role}
    (h : Negotiation.portRole? o.key = some role) :
    s.Names o ↔ ∃ c ∈ s.get? role, c.isOpen = true ∧ c.receiving = true ∧
      o.value = some (natText c.port.toNat) := by
  constructor
  · exact fun hn => hn role h
  · intro hc r hr
    obtain rfl : role = r := Option.some.inj (h.symm.trans hr)
    exact hc

instance (s : ChannelSet) (o : TransportOption) : Decidable (s.Names o) :=
  match h : Negotiation.portRole? o.key with
  | none => isTrue fun _ hrole => by simp [h] at hrole
  | some _ => decidable_of_iff _ (ChannelSet.names_iff h).symm

namespace Negotiation

variable {s s' : ChannelSet} {key : String} {o a : TransportOption} {os as : List TransportOption}

theorem names_congr {role : Role} (h : s.Names o) (hrole : portRole? o.key = some role)
    (hget : s'.get? role = s.get? role) : s'.Names o := by
  intro r hr
  obtain rfl : role = r := Option.some.inj (hrole.symm.trans hr)
  rw [hget]
  exact h role hrole

/-! ### Options one after the other -/

/-- An option is echoed and nothing is opened, or its channel is opened and it names the port. -/
theorem answerOption_eq_ok {σ : Type} {opener : Opener σ} {client : IpAddress} {s s' : σ}
    (h : answerOption opener client o s = (.ok a, s')) :
    roleOf? o.key = none ∧ a = o ∧ s' = s ∨
      ∃ role port localPort, roleOf? o.key = some role ∧ portOf o = .ok port ∧
        opener role (some ⟨client, port⟩) s = (.ok localPort, s') ∧
        a = o.withValue (natText localPort.toNat) := by
  unfold answerOption at h
  cases hrole : roleOf? o.key with
  | some role =>
    rw [hrole] at h
    simp only at h
    split at h
    · cases h
    · next port hport =>
      split at h
      · cases h
      · next localPort s₁ hopen =>
        obtain ⟨rfl, rfl⟩ : o.withValue (natText localPort.toNat) = a ∧ s₁ = s' := by simpa using h
        exact Or.inr ⟨role, port, localPort, rfl, hport, hopen, rfl⟩
  | none =>
    rw [hrole] at h
    simp only at h
    refine Or.inl ⟨rfl, ?_⟩
    split at h
    · split at h
      · simpa [eq_comm] using h
      · cases h
    · simpa [eq_comm] using h

/-- What answering options comes to: the set has one channel for each role at most; of the ports asked
for, the last one of each key names the channel of its role; a role that was not asked for has the
channel that it had. -/
structure Served (s s' : ChannelSet) (as : List TransportOption) : Prop where
  distinct : s'.Distinct
  names : ∀ key a, (roleOf? key).isSome → lastOf key as = some a → s'.Names a
  keeps : ∀ key role, roleOf? key = some role → lastOf key as = none → s'.get? role = s.get? role

variable {binder : Binder} {ports : RtpPorts} {ip client : IpAddress}

/-- One option is served. -/
theorem served_of_answerOption (h : s.Distinct)
    (ha : answerOption (ChannelSet.opener binder ports ip) client o s = (.ok a, s')) :
    Served s s' [a] ∧ a.key = o.key ∧ (o.Readable → a.Readable) := by
  have hlast (key : String) : lastOf key [a] = if a.key = key then some a else none :=
    lastOf_cons key a []
  rcases answerOption_eq_ok ha with ⟨hrole, rfl, rfl⟩ | ⟨role, port, localPort, hrole, -, hopen, rfl⟩
  · refine ⟨⟨h, fun key b hk hb => ?_, fun _ _ _ _ => rfl⟩, rfl, id⟩
    obtain ⟨hmem, rfl⟩ := mem_of_lastOf hb
    rw [List.mem_singleton.1 hmem, hrole] at hk
    cases hk
  · have hkeep := h.opener binder ports ip role (some ⟨client, port⟩)
    rw [hopen] at hkeep
    obtain ⟨c, hget, hisOpen, hreceiving, hport⟩ := ChannelSet.get?_of_opener h hopen
    refine ⟨⟨hkeep.1, fun key b _ hb => ?_, fun key r hr hb => ?_⟩, rfl, fun ho => ?_⟩
    · obtain rfl := List.mem_singleton.1 (mem_of_lastOf hb).1
      intro r hr
      obtain rfl : role = r := Option.some.inj ((portRole?_of_roleOf? hrole).symm.trans hr)
      exact ⟨c, hget, hisOpen, hreceiving, hport ▸ rfl⟩
    · refine hkeep.2 r ?_
      rintro rfl
      have hkey : (o.withValue (natText localPort.toNat)).key = key := roleOf?_inj hrole hr
      rw [hlast, if_pos hkey] at hb
      cases hb
    · exact TransportOption.readable_withNumber ho.isName_key _

/-- What comes after is served on top of it. -/
theorem Served.cons {s₁ : ChannelSet} (h : Served s s₁ [a]) (h' : Served s₁ s' as) :
    Served s s' (a :: as) where
  distinct := h'.distinct
  names key b hk hb := by
    obtain ⟨role, hrole⟩ := Option.isSome_iff_exists.1 hk
    rw [lastOf_cons] at hb
    cases hl : lastOf key as with
    | some c =>
      rw [hl, Option.some_or] at hb
      exact h'.names key b hk (hb ▸ hl)
    | none =>
      rw [hl, Option.none_or] at hb
      have hb' : lastOf key [a] = some b := by rw [lastOf_cons]; exact hb
      have hkey := (mem_of_lastOf hb').2
      exact names_congr (h.names key b hk hb') (portRole?_of_roleOf? (hkey ▸ hrole))
        (h'.keeps key role hrole hl)
  keeps key role hrole hnone := by
    rw [lastOf_cons, Option.or_eq_none_iff] at hnone
    have ha : lastOf key [a] = none := by rw [lastOf_cons]; exact hnone.2
    rw [h'.keeps key role hrole hnone.1, h.keeps key role hrole ha]

/-- **Options that are answered are served**, key by key. -/
theorem served_of_answerOptions : ∀ {os as : List TransportOption} {s s' : ChannelSet}, s.Distinct →
    answerOptions (ChannelSet.opener binder ports ip) client os s = (.ok as, s') →
    Served s s' as ∧ as.map (·.key) = os.map (·.key) ∧
      ((∀ o ∈ os, o.Readable) → ∀ a ∈ as, a.Readable)
  | [], as, s, s', hs, h => by
    obtain ⟨rfl, rfl⟩ : [] = as ∧ s = s' := by simpa [answerOptions] using h
    exact ⟨⟨hs, fun _ _ _ hl => (by cases hl), fun _ _ _ _ => rfl⟩, rfl, fun h => h⟩
  | o :: os, as, s, s', hs, h => by
    unfold answerOptions at h
    split at h
    · cases h
    · next a s₁ ha =>
      split at h
      · cases h
      · next rest s₂ hrest =>
        obtain ⟨rfl, rfl⟩ : a :: rest = as ∧ s₂ = s' := by simpa using h
        obtain ⟨hserved, hkey, hreadable⟩ := served_of_answerOption hs ha
        obtain ⟨hserved', hkeys, hreadable'⟩ := served_of_answerOptions hserved.distinct hrest
        refine ⟨hserved.cons hserved', by simp [hkey, hkeys], fun hall b hb => ?_⟩
        rcases List.mem_cons.1 hb with rfl | hb
        · exact hreadable (hall o List.mem_cons_self)
        · exact hreadable' (fun q hq => hall q (List.mem_cons_of_mem _ hq)) b hb

/-! ### The whole specification -/

/-- What a specification is answered with: the options that were sent, and the server port behind them.
Of several options that name a port under one key the last one names an open channel. -/
structure Answered (sent answer : Transport) (s : ChannelSet) : Prop where
  distinct : s.Distinct
  readable : answer.Readable
  keys : answer.options.map (·.key) = sent.options.map (·.key) ++ [Transport.serverPort]
  last : ∀ key a, lastOf key answer.options = some a → s.Names a

/-- The audio channel is opened behind what was served, and the server port is its port. -/
theorem Served.answered {s₁ : ChannelSet} {sent : Transport} {port : UInt16} (h : Served s s₁ as)
    (hkeys : as.map (·.key) = sent.options.map (·.key)) (hreadable : ∀ a ∈ as, a.Readable)
    (haudio : ChannelSet.opener binder ports ip .audio none s₁ = (.ok port, s')) :
    Answered sent
      ⟨as ++ [{ key := Transport.serverPort, value := some (natText port.toNat) }]⟩ s' := by
  have hkeep := h.distinct.opener binder ports ip .audio none
  rw [haudio] at hkeep
  obtain ⟨c, hget, hisOpen, hreceiving, hport⟩ := ChannelSet.get?_of_opener h.distinct haudio
  refine ⟨hkeep.1, fun o ho => ?_, by simp [hkeys], fun key a ha => ?_⟩
  · rcases List.mem_append.1 ho with ho | ho
    · exact hreadable o ho
    · obtain rfl := List.mem_singleton.1 ho
      exact TransportOption.readable_withNumber (o := { key := Transport.serverPort })
        (by decide) port.toNat
  · rw [lastOf_append_singleton] at ha
    split at ha
    · obtain rfl := Option.some.inj ha
      intro role hrole
      obtain rfl : .audio = role := Option.some.inj (portRole?_serverPort.symm.trans hrole)
      exact ⟨c, hget, hisOpen, hreceiving, hport ▸ rfl⟩
    · next hkey =>
      obtain ⟨-, rfl⟩ := mem_of_lastOf ha
      intro role hrole
      -- the audio channel replaces none that an option in front names
      have hrole' : roleOf? a.key = some role := by
        rwa [portRole?, if_neg fun he => hkey he.symm] at hrole
      have hne : role ≠ .audio := fun he => roleOf?_ne_audio (he ▸ hrole')
      exact names_congr (h.names a.key a (by simp [hrole']) ha) hrole (hkeep.2 role hne) role hrole

theorem parse_of_negotiate {σ : Type} {opener : Opener σ} {client : IpAddress} {value : String}
    {t : Transport} {s s' : σ} (h : negotiate opener client value s = (.ok t, s')) :
    ∃ sent, Transport.parse value = .ok sent := by
  unfold negotiate at h
  split at h
  · cases h
  · next sent hsent => exact ⟨sent, hsent⟩

/-- **A negotiation that succeeds answers each port key with an open channel, in its last option.** -/
theorem negotiate_eq_ok {value : String} {t : Transport} (hs : s.Distinct)
    (h : negotiate (ChannelSet.opener binder ports ip) client value s = (.ok t, s')) :
    ∃ sent, Transport.parse value = .ok sent ∧ Answered sent t s' := by
  unfold negotiate at h
  split at h
  · cases h
  · next sent hsent =>
    split at h
    · cases h
    · next as s₁ has =>
      split at h
      · cases h
      · next port s₂ haudio =>
        obtain ⟨rfl, rfl⟩ : _ = t ∧ s₂ = s' := by simpa using h
        obtain ⟨hserved, hkeys, hreadable⟩ := served_of_answerOptions hs has
        have hsentReadable := Transport.readable_of_parse hsent
        exact ⟨sent, hsent, hserved.answered hkeys (hreadable hsentReadable) haudio⟩

/-- The options of one key that names a port have one value. -/
def OneValue (t : Transport) : Prop :=
  ∀ a ∈ t.options, ∀ b ∈ t.options, (portRole? a.key).isSome → b.key = a.key → b.value = a.value

/-- The options that name a port all name open channels just if those of one key have one value. -/
theorem Answered.forall_names_iff {sent answer : Transport} (h : Answered sent answer s) :
    (∀ a ∈ answer.options, s.Names a) ↔ OneValue answer := by
  constructor
  · intro hall a ha b hb hport hkey
    obtain ⟨role, hrole⟩ := Option.isSome_iff_exists.1 hport
    obtain ⟨c, hget, -, -, hvalue⟩ := hall a ha role hrole
    obtain ⟨d, hget', -, -, hvalue'⟩ := hall b hb role (hkey ▸ hrole)
    obtain rfl : c = d := Option.some.inj (hget.symm.trans hget')
    rw [hvalue, hvalue']
  · intro hsame a ha role hrole
    obtain ⟨b, hb⟩ := exists_lastOf ha
    obtain ⟨hmem, hkey⟩ := mem_of_lastOf hb
    obtain ⟨c, hget, hisOpen, hreceiving, hvalue⟩ := h.last a.key b hb role (hkey.symm ▸ hrole)
    refine ⟨c, hget, hisOpen, hreceiving, ?_⟩
    rw [← hvalue]
    exact hsame b hmem a ha (by simp [hkey, hrole]) hkey.symm

/-- Asked for each port once, and not for a server port, it names open channels throughout. -/
theorem Answered.forall_names_of_nodup {sent answer : Transport} (h : Answered sent answer s)
    (hnodup : ((sent.options.map (·.key) ++ [Transport.serverPort]).filter
      fun key => (portRole? key).isSome).Nodup) :
    ∀ a ∈ answer.options, s.Names a := by
  rw [h.forall_names_iff]
  intro a ha b hb hport hkey
  rw [← h.keys, List.filter_map] at hnodup
  have hmem : ∀ o ∈ answer.options, o.key = a.key →
      o ∈ answer.options.filter ((fun key => (portRole? key).isSome) ∘ (·.key)) :=
    fun o ho he => List.mem_filter.2 ⟨ho, by simpa [he] using hport⟩
  rw [List.inj_on_of_nodup_map hnodup (hmem b hb hkey) (hmem a ha rfl) hkey]

end Negotiation

/-- A SETUP with a transport. -/
def setupWith (transport : String) : Request where
  method := .setup
  uri := "*"
  headers := ⟨[("Transport", transport)]⟩

/-- The reply of a session of either kind to a SETUP. -/
def setupReply (t : Transport) : Reply :=
  ({} : Reply).withHeader "Transport" t.render |>.withSession sessionId

theorem transport?_setupReply (t : Transport) : (setupReply t).headers.transport? = some t.render := by
  have hne : foldCase "Session" ≠ foldCase "Transport" := by decide
  unfold setupReply Reply.withSession Reply.withHeader Headers.transport?
  rw [Headers.get?_insert_of_ne hne, Headers.get?_insert_self]

end Raop
