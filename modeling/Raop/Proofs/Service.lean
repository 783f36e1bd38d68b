/-
# A service starts whole or not at all

A service starts up to two servers, and each takes three things that can fail:
a key, a port, a daemon that announces it. What runs and what is announced is
read off all that the service did; that this is what the service keeps, a port
and an announcement for each server, is the invariant (`Accounted`). It holds
wherever a start breaks off (`Accounted.launchAll`), and a service for which it
holds leaves nothing behind when it stops (`Accounted.idle_stop`), provided
that the daemons withdraw what they are told to.

So a start that fails has left nothing, and one that succeeds runs what the
configuration names and nothing else (`start_allOrNothing`).

Key definitions: `ServiceAction.ports`, `ServiceAction.announced`, `Host.Admits`,
`Service.Idle`, `Service.Serves`, `Service.Accounted`, `Service.Launched`.
Key theorems: `Service.launched`, `Service.Accounted.launchAll`,
`Service.Accounted.idle_stop`, `Service.start_allOrNothing`.
-/
import Raop.Service

namespace Raop

open Discovery (fullName)

/-! ### Daemons -/

namespace Discovery

variable {calls : List DaemonCall} {d : Daemon} {c : DaemonCall}

@[simp] theorem announced_register (full : String) (port : UInt16) :
    announced (calls ++ [.register full port]) = announced calls ++ [(full, port)] := by
  simp [announced]

@[simp] theorem announced_unregister (full : String) :
    announced (calls ++ [.unregister full]) = (announced calls).filter (·.1 ≠ full) := by
  simp [announced]

@[simp] theorem announced_shutdown : announced (calls ++ [.shutdown]) = announced calls := by
  simp [announced]

theorem Daemon.call_of_none (h : d.fault? c.function = none) : d.call c = (.ok (), [c]) := by
  simp only [call, attempt, h]

theorem Daemon.call_of_some {detail : String} (h : d.fault? c.function = some detail) :
    d.call c = (.error (.mdns detail), []) := by
  simp only [call, attempt, h]

/-- A call is made or not. -/
theorem Daemon.call_cases (d : Daemon) (c : DaemonCall) : (d.call c).2 = [] ∨ (d.call c).2 = [c] := by
  cases h : d.fault? c.function with
  | none => exact .inr (by rw [call_of_none h])
  | some detail => exact .inl (by rw [call_of_some h])

/-- One that is announced is withdrawn when it is given up. -/
theorem Advertiser.giveUp_of_registered {a : Advertiser} {full : String} (h : a.registered = some full)
    (hd : d.fault? .unregister = none) :
    a.giveUp d = .unregister full :: (d.call .shutdown).2 := by
  have hcall : d.call (.unregister full) = (.ok (), [.unregister full]) := Daemon.call_of_none hd
  simp only [giveUp, unregister, h, hcall, List.cons_append, List.nil_append]

/-- An advertiser is launched and announced; where that fails its daemon is at most shut down. -/
theorem Advertiser.launch_cases (d : Daemon) (name : String) (port : UInt16) (mac : MacAddress) :
    (d.fault? .new = none ∧ d.fault? .register = none ∧ launch d name port mac =
      (.ok { name, port, mac, registered := some (fullName (instanceName mac name)) },
        [.register (fullName (instanceName mac name)) port])) ∨
    (¬ (d.fault? .new = none ∧ d.fault? .register = none) ∧ ∃ e calls,
      (calls = [] ∨ calls = [.shutdown]) ∧ launch d name port mac = (.error e, calls)) := by
  cases hnew : d.fault? .new with
  | some detail =>
    refine .inr ⟨by simp, .mdns detail, [], .inl rfl, ?_⟩
    simp only [launch, create, Daemon.attempt, hnew]
    rfl
  | none =>
    cases hregister : d.fault? .register with
    | some detail =>
      have hcall : d.call (.register (fullName (instanceName mac name)) port) =
          (.error (.mdns detail), []) := Daemon.call_of_some hregister
      refine .inr ⟨by simp, .mdns detail, (d.call .shutdown).2, d.call_cases _, ?_⟩
      simp only [launch, create, Daemon.attempt, hnew, Except.map, register, serviceName, hcall,
        giveUp, unregister, List.nil_append]
    | none =>
      have hcall : d.call (.register (fullName (instanceName mac name)) port) =
          (.ok (), [.register (fullName (instanceName mac name)) port]) :=
        Daemon.call_of_none hregister
      refine .inl ⟨rfl, rfl, ?_⟩
      simp only [launch, create, Daemon.attempt, hnew, Except.map, register, serviceName, hcall]

end Discovery

/-! ### What the actions say -/

namespace ServiceAction

variable {actions : List ServiceAction} {kind k : ServerKind}

/-- The ports of the servers of a kind that run after some actions. -/
def ports (kind : ServerKind) (actions : List ServiceAction) : List UInt16 :=
  ((running actions).filter (·.1 = kind)).map (·.2)

/-- What the daemons of a kind announce after some actions. -/
def announced (kind : ServerKind) (actions : List ServiceAction) : List (String × UInt16) :=
  Discovery.announced (((actions.filterMap call?).filter (·.1 = kind)).map (·.2))

@[simp] theorem ports_started (port : UInt16) : ports kind (actions ++ [.started k port]) =
    if k = kind then ports kind actions ++ [port] else ports kind actions := by
  by_cases h : k = kind <;> simp [ports, running, List.foldl_append, h]

@[simp] theorem ports_stopped : ports kind (actions ++ [.stopped k]) =
    if k = kind then [] else ports kind actions := by
  by_cases h : k = kind
  · simp [ports, running, List.foldl_append, List.filter_filter, h]
  · simp only [ports, running, List.foldl_append, List.foldl_cons, List.foldl_nil,
      List.filter_filter, if_neg h]
    congr 1
    refine List.filter_congr fun s _ => ?_
    by_cases hs : s.1 = kind <;> simp [hs, Ne.symm h]

@[simp] theorem ports_daemon (c : Discovery.DaemonCall) :
    ports kind (actions ++ [.daemon k c]) = ports kind actions := by
  simp [ports, running, List.foldl_append]

/-- No server runs if none of either kind does. -/
theorem running_eq_nil (h : ∀ kind, ports kind actions = []) : running actions = [] := by
  refine List.eq_nil_iff_forall_not_mem.2 fun s hs => ?_
  have hport : s.2 ∈ ports s.1 actions := List.mem_map_of_mem (List.mem_filter.2 ⟨hs, by simp⟩)
  rw [h] at hport
  exact List.not_mem_nil hport

@[simp] theorem announced_started (port : UInt16) :
    announced kind (actions ++ [.started k port]) = announced kind actions := by
  simp [announced, List.filterMap_cons, call?]

@[simp] theorem announced_stopped :
    announced kind (actions ++ [.stopped k]) = announced kind actions := by
  simp [announced, List.filterMap_cons, call?]

/-- What a daemon announces follows from its own calls. -/
theorem announced_daemon (c : Discovery.DaemonCall) : announced kind (actions ++ [.daemon k c]) =
    if k = kind then
      Discovery.announced (((actions.filterMap call?).filter (·.1 = kind)).map (·.2) ++ [c])
    else announced kind actions := by
  by_cases h : k = kind <;> simp [announced, call?, h]

@[simp] theorem announced_register (full : String) (port : UInt16) :
    announced kind (actions ++ [.daemon k (.register full port)]) =
      if k = kind then announced kind actions ++ [(full, port)] else announced kind actions := by
  rw [announced_daemon, Discovery.announced_register]
  rfl

@[simp] theorem announced_unregister (full : String) :
    announced kind (actions ++ [.daemon k (.unregister full)]) =
      if k = kind then (announced kind actions).filter (·.1 ≠ full) else announced kind actions := by
  rw [announced_daemon, Discovery.announced_unregister]
  rfl

@[simp] theorem announced_shutdown :
    announced kind (actions ++ [.daemon k .shutdown]) = announced kind actions := by
  rw [announced_daemon, Discovery.announced_shutdown]
  exact ite_self _

end ServiceAction

/-- All that a server needs is there: its key, a port, and a daemon if it is to be announced. -/
structure Host.Admits (host : Host) (wanted : Bool) (kind : ServerKind) (l : Listener) : Prop where
  key : ∃ key, loadKey (host.files kind) l.keyPath = .ok key
  port : ∃ port, host.bind kind l.bind = some port
  daemon : wanted = true →
    (host.daemon kind).fault? .new = none ∧ (host.daemon kind).fault? .register = none

/-- The daemons withdraw what they are told to. -/
def Host.Withdraws (host : Host) : Prop := ∀ kind, (host.daemon kind).fault? .unregister = none

namespace Service

variable {host : Host} {config : ServiceConfig} {wanted : Bool} {kind k : ServerKind} {l : Listener}
  {s : Service}

/-- No server runs and nothing is announced. -/
def Idle (s : Service) : Prop :=
  ServiceAction.running s.actions = [] ∧ ∀ kind, ServiceAction.announced kind s.actions = []

/-- The ports and the announcements of a kind are those of the server that a configuration names: the
port that it got, and one announcement with that port if servers are to be announced. -/
def Matches (host : Host) (config : ServiceConfig) (mac : MacAddress) (kind : ServerKind)
    (ports : List UInt16) (announcements : List (String × UInt16)) : Prop :=
  match config.listener? kind with
  | none => ports = [] ∧ announcements = []
  | some l => ∃ port, host.bind kind l.bind = some port ∧ ports = [port] ∧ announcements =
      if config.advertise then [(fullName (Discovery.instanceName mac l.name), port)] else []

/-- Exactly the servers that a configuration names run, and exactly these are announced, if servers are
to be announced. -/
def Serves (host : Host) (config : ServiceConfig) (s : Service) : Prop :=
  ∀ kind, Matches host config s.mac kind (ServiceAction.ports kind s.actions)
    (ServiceAction.announced kind s.actions)

/-! ### What a service keeps -/

@[simp] theorem port?_withPort (k kind : ServerKind) (port : Option UInt16) (s : Service) :
    (s.withPort k port).port? kind = if k = kind then port else s.port? kind := by
  cases k <;> cases kind <;> rfl

@[simp] theorem actions_withPort (k : ServerKind) (port : Option UInt16) (s : Service) :
    (s.withPort k port).actions = s.actions := by
  cases k <;> rfl

@[simp] theorem advertisers_withPort (k : ServerKind) (port : Option UInt16) (s : Service) :
    (s.withPort k port).advertisers = s.advertisers := by
  cases k <;> rfl

@[simp] theorem mac_withPort (k : ServerKind) (port : Option UInt16) (s : Service) :
    (s.withPort k port).mac = s.mac := by
  cases k <;> rfl

@[simp] theorem port?_did (s : Service) (actions : List ServiceAction) (kind : ServerKind) :
    (s.did actions).port? kind = s.port? kind := by
  cases kind <;> rfl

@[simp] theorem actions_did (s : Service) (actions : List ServiceAction) :
    (s.did actions).actions = s.actions ++ actions := rfl

@[simp] theorem advertisers_did (s : Service) (actions : List ServiceAction) :
    (s.did actions).advertisers = s.advertisers := rfl

@[simp] theorem mac_did (s : Service) (actions : List ServiceAction) : (s.did actions).mac = s.mac := rfl

/-- The announcements of a kind that a service keeps, each as a full name and a port. -/
def kept (kind : ServerKind) (s : Service) : List (String × UInt16) :=
  (s.advertisers.filter (·.1 = kind)).map fun p => (fullName p.2.serviceName, p.2.port)

theorem kept_congr {s' : Service} (h : s'.advertisers = s.advertisers) (kind : ServerKind) :
    s'.kept kind = s.kept kind := by
  rw [kept, kept, h]

/-- What runs and what is announced is what the service keeps. -/
structure Accounted (s : Service) : Prop where
  ports : ∀ kind, ServiceAction.ports kind s.actions = (s.port? kind).toList
  announced : ∀ kind, ServiceAction.announced kind s.actions = s.kept kind
  registered : ∀ p ∈ s.advertisers, p.2.registered = some (fullName p.2.serviceName)

theorem Accounted.fresh (mac : MacAddress) : Accounted { mac } where
  ports kind := by cases kind <;> rfl
  announced _ := rfl
  registered _ h := absurd h List.not_mem_nil

/-! ### A launch -/

/-- A server is started on a port. -/
def started (kind : ServerKind) (port : UInt16) (s : Service) : Service :=
  (s.withPort kind (some port)).did [.started kind port]

/-- An announcement is made, and kept. -/
def announcing (kind : ServerKind) (a : Discovery.Advertiser) (s : Service) : Service :=
  { s with advertisers := s.advertisers ++ [(kind, a)] }.did
    [.daemon kind (.register (fullName a.serviceName) a.port)]

@[simp] theorem mac_started (port : UInt16) : (s.started kind port).mac = s.mac := by
  simp [started]

@[simp] theorem port?_started (port : UInt16) :
    (s.started kind port).port? k = if kind = k then some port else s.port? k := by
  simp [started]

@[simp] theorem kept_started (port : UInt16) : (s.started kind port).kept k = s.kept k := by
  simp [started, kept]

theorem kept_announcing (a : Discovery.Advertiser) : (s.announcing kind a).kept k =
    if kind = k then s.kept k ++ [(fullName a.serviceName, a.port)] else s.kept k := by
  by_cases h : kind = k <;> simp [announcing, kept, h]

theorem port?_announcing (a : Discovery.Advertiser) : (s.announcing kind a).port? k = s.port? k := by
  cases k <;> rfl

/-- How the launch of a server ends: before it runs, or running but with a daemon that fails, or as
it should, without an announcement or with one. -/
inductive Launched (host : Host) (wanted : Bool) (kind : ServerKind) (l : Listener) (s : Service) :
    Except ServiceError Unit × Service → Prop
  | refused (e : ServiceError) : ¬ host.Admits wanted kind l → Launched host wanted kind l s (.error e, s)
  | unannounced (e : ServiceError) (port : UInt16) (calls : List Discovery.DaemonCall) :
      ¬ host.Admits wanted kind l → calls = [] ∨ calls = [.shutdown] →
      Launched host wanted kind l s (.error e, (s.started kind port).did (calls.map (.daemon kind)))
  | quiet (port : UInt16) : host.Admits wanted kind l → host.bind kind l.bind = some port →
      wanted = false → Launched host wanted kind l s (.ok (), s.started kind port)
  | announced (port : UInt16) : host.Admits wanted kind l → host.bind kind l.bind = some port →
      wanted = true → Launched host wanted kind l s (.ok (), (s.started kind port).announcing kind
        { name := l.name, port, mac := (s.started kind port).mac,
          registered := some (fullName (Discovery.instanceName (s.started kind port).mac l.name)) })

theorem launched (host : Host) (wanted : Bool) (kind : ServerKind) (l : Listener) (s : Service) :
    Launched host wanted kind l s (s.launch host wanted kind l) := by
  unfold launch
  cases hkey : loadKey (host.files kind) l.keyPath with
  | error e =>
    refine .refused _ fun h => ?_
    obtain ⟨key, h⟩ := h.key
    simp [hkey] at h
  | ok key =>
    cases hport : host.bind kind l.bind with
    | none =>
      refine .refused _ fun h => ?_
      obtain ⟨port, h⟩ := h.port
      simp [hport] at h
    | some port =>
      -- the server runs by now, and only its daemon can still fail
      cases wanted with
      | false => exact .quiet port ⟨⟨key, hkey⟩, ⟨port, hport⟩, nofun⟩ hport rfl
      | true =>
        show Launched host true kind l s ((s.started kind port).advertise host true kind l.name port)
        rw [advertise, if_pos rfl]
        rcases Discovery.Advertiser.launch_cases (host.daemon kind) l.name port
            (s.started kind port).mac with
          ⟨hnew, hregister, h⟩ | ⟨hfault, e, calls, hcalls, h⟩
        · rw [h]
          exact .announced port ⟨⟨key, hkey⟩, ⟨port, hport⟩, fun _ => ⟨hnew, hregister⟩⟩ hport rfl
        · rw [h]
          exact .unannounced _ port calls (fun h => hfault (h.daemon rfl)) hcalls

theorem Accounted.started (h : Accounted s) (hp : s.port? kind = none) (port : UInt16) :
    Accounted (s.started kind port) where
  ports k := by
    rw [port?_started]
    by_cases hk : kind = k
    · subst hk
      simp [Service.started, h.ports kind, hp]
    · simp [Service.started, h.ports k, hk]
  announced k := by
    rw [kept_started, ← h.announced k]
    simp [Service.started]
  registered p hp := h.registered p (by simpa [Service.started] using hp)

theorem Accounted.shutdown (h : Accounted s) {calls : List Discovery.DaemonCall}
    (hc : calls = [] ∨ calls = [.shutdown]) : Accounted (s.did (calls.map (.daemon kind))) where
  ports k := by
    rcases hc with rfl | rfl <;> simp [h.ports k]
  announced k := by
    rcases hc with rfl | rfl <;> simp [h.announced k, kept]
  registered := h.registered

theorem Accounted.announcing (h : Accounted s) {a : Discovery.Advertiser}
    (ha : a.registered = some (fullName a.serviceName)) : Accounted (s.announcing kind a) where
  ports k := by
    rw [port?_announcing]
    simp [Service.announcing, h.ports k]
  announced k := by
    rw [kept_announcing]
    simp [Service.announcing, h.announced k]
  registered p hp := by
    rcases List.mem_append.1 hp with hp | hp
    · exact h.registered p hp
    · rw [List.mem_singleton.1 hp]
      exact ha

/-- The invariant holds however the launch ends. -/
theorem Accounted.launched (h : Accounted s) (hp : s.port? kind = none)
    {r : Except ServiceError Unit × Service} (hr : Launched host wanted kind l s r) : Accounted r.2 := by
  cases hr with
  | refused => exact h
  | unannounced e port calls _ hcalls => exact (h.started hp port).shutdown hcalls
  | quiet port => exact h.started hp port
  | announced port => exact (h.started hp port).announcing rfl

theorem Launched.mac {r : Except ServiceError Unit × Service} (h : Launched host wanted kind l s r) :
    r.2.mac = s.mac := by
  cases h with
  | refused => rfl
  | unannounced e port | quiet port | announced port => exact mac_started port

/-- A launch has to do with one kind of server only. -/
theorem Launched.other {r : Except ServiceError Unit × Service} (h : Launched host wanted kind l s r)
    (hk : kind ≠ k) : r.2.port? k = s.port? k ∧ r.2.kept k = s.kept k := by
  cases h with
  | refused => exact ⟨rfl, rfl⟩
  | unannounced e port =>
    exact ⟨by rw [port?_did, port?_started, if_neg hk], kept_started port⟩
  | quiet port => exact ⟨by rw [port?_started, if_neg hk], kept_started port⟩
  | announced port =>
    refine ⟨by rw [port?_announcing, port?_started, if_neg hk], ?_⟩
    rw [kept_announcing, if_neg hk, kept_started]

theorem Launched.ok_iff {r : Except ServiceError Unit × Service} (h : Launched host wanted kind l s r) :
    r.1 = .ok () ↔ host.Admits wanted kind l := by
  cases h with
  | refused e hn => exact ⟨nofun, fun h => absurd h hn⟩
  | unannounced e port calls hn => exact ⟨nofun, fun h => absurd h hn⟩
  | quiet port ha => exact ⟨fun _ => ha, fun _ => rfl⟩
  | announced port ha => exact ⟨fun _ => ha, fun _ => rfl⟩

/-- A launch that succeeds leaves a port, and an announcement if one is wanted. -/
theorem Launched.own {r : Except ServiceError Unit × Service} (h : Launched host wanted kind l s r)
    (hok : r.1 = .ok ()) (hkept : s.kept kind = []) :
    ∃ port, host.bind kind l.bind = some port ∧ r.2.port? kind = some port ∧ r.2.kept kind =
      if wanted then [(fullName (Discovery.instanceName s.mac l.name), port)] else [] := by
  cases h with
  | refused | unannounced => exact nomatch hok
  | quiet port _ hbind hwanted =>
    refine ⟨port, hbind, by rw [port?_started, if_pos rfl], ?_⟩
    rw [kept_started, hkept, hwanted]
    rfl
  | announced port _ hbind hwanted =>
    refine ⟨port, hbind, by rw [port?_announcing, port?_started, if_pos rfl], ?_⟩
    rw [kept_announcing, if_pos rfl, kept_started, hkept, hwanted, mac_started]
    rfl

/-! ### Both launches -/

variable (host config s) in
theorem mac_launchNamed (kind : ServerKind) : (s.launchNamed host config kind).2.mac = s.mac := by
  unfold launchNamed
  split
  · rfl
  · exact (launched host config.advertise kind _ s).mac

variable (host config s) in
theorem launchNamed_other (hk : kind ≠ k) : (s.launchNamed host config kind).2.port? k = s.port? k ∧
    (s.launchNamed host config kind).2.kept k = s.kept k := by
  unfold launchNamed
  split
  · exact ⟨rfl, rfl⟩
  · exact (launched host config.advertise kind _ s).other hk

variable (host config s) in
theorem launchNamed_ok_iff (kind : ServerKind) : (s.launchNamed host config kind).1 = .ok () ↔
    ∀ l, config.listener? kind = some l → host.Admits config.advertise kind l := by
  unfold launchNamed
  cases hl : config.listener? kind with
  | none => simp
  | some l => simpa using (launched host config.advertise kind l s).ok_iff

theorem matches_launchNamed (hok : (s.launchNamed host config kind).1 = .ok ())
    (hport : s.port? kind = none) (hkept : s.kept kind = []) :
    Matches host config s.mac kind ((s.launchNamed host config kind).2.port? kind).toList
      ((s.launchNamed host config kind).2.kept kind) := by
  unfold launchNamed at hok ⊢
  unfold Matches
  cases hl : config.listener? kind with
  | none => exact ⟨by simp [hport], by simp [hkept]⟩
  | some l =>
    simp only [hl] at hok ⊢
    obtain ⟨port, hbind, hrun, hkept⟩ := (launched host config.advertise kind l s).own hok hkept
    exact ⟨port, hbind, by rw [hrun]; rfl, hkept⟩

theorem Accounted.launchNamed (h : Accounted s) (hp : s.port? kind = none) :
    Accounted (s.launchNamed host config kind).2 := by
  unfold Service.launchNamed
  split
  · exact h
  · exact h.launched hp (Service.launched host config.advertise kind _ s)

/-- The proxy is launched if the player's launch succeeded. -/
theorem launchAll_cases (host : Host) (config : ServiceConfig) (s : Service) :
    ((s.launchNamed host config .player).1 = .ok () ∧
      s.launchAll host config = (s.launchNamed host config .player).2.launchNamed host config .proxy) ∨
    ∃ e, (s.launchNamed host config .player).1 = .error e ∧
      s.launchAll host config = (.error e, (s.launchNamed host config .player).2) := by
  unfold launchAll
  rcases s.launchNamed host config .player with ⟨e | ⟨⟨⟩⟩, t⟩
  · exact .inr ⟨e, rfl, rfl⟩
  · exact .inl ⟨rfl, rfl⟩

/-- The invariant holds wherever the launches end. -/
theorem Accounted.launchAll (h : Accounted s) (hp : ∀ kind, s.port? kind = none) :
    Accounted (s.launchAll host config).2 := by
  have hplayer : Accounted (s.launchNamed host config .player).2 := h.launchNamed (hp _)
  rcases launchAll_cases host config s with ⟨-, hall⟩ | ⟨e, -, hall⟩
  · have hother := launchNamed_other host config s (show ServerKind.player ≠ .proxy by decide)
    rw [hall]
    exact hplayer.launchNamed (hother.1.trans (hp _))
  · rw [hall]
    exact hplayer

theorem mac_launchAll (host : Host) (config : ServiceConfig) (s : Service) :
    (s.launchAll host config).2.mac = s.mac := by
  rcases launchAll_cases host config s with ⟨-, hall⟩ | ⟨e, -, hall⟩
  · rw [hall, mac_launchNamed, mac_launchNamed]
  · rw [hall, mac_launchNamed]

theorem launchAll_ok_iff (host : Host) (config : ServiceConfig) (s : Service) :
    (s.launchAll host config).1 = .ok () ↔
      ∀ kind l, config.listener? kind = some l → host.Admits config.advertise kind l := by
  have hplayer := launchNamed_ok_iff host config s .player
  rcases launchAll_cases host config s with ⟨hok, hall⟩ | ⟨e, herror, hall⟩
  · rw [hall, launchNamed_ok_iff]
    exact ⟨fun hproxy kind => kind.rec (hplayer.1 hok) hproxy, fun h => h .proxy⟩
  · rw [hall]
    rw [herror] at hplayer
    exact ⟨nofun, fun h => absurd (hplayer.2 (h .player)) nofun⟩

/-- Where both launches succeed, what is kept is what is named. -/
theorem matches_launchAll (hok : (s.launchAll host config).1 = .ok ())
    (hp : ∀ kind, s.port? kind = none) (hk : ∀ kind, s.kept kind = []) (kind : ServerKind) :
    Matches host config s.mac kind ((s.launchAll host config).2.port? kind).toList
      ((s.launchAll host config).2.kept kind) := by
  rcases launchAll_cases host config s with ⟨hfirst, hall⟩ | ⟨e, -, hall⟩
  · have hmac := mac_launchNamed host config s .player
    rw [hall] at hok ⊢
    cases kind with
    | player =>
      have hother := launchNamed_other host config (s.launchNamed host config .player).2
        (show ServerKind.proxy ≠ .player by decide)
      rw [hother.1, hother.2]
      exact matches_launchNamed hfirst (hp _) (hk _)
    | proxy =>
      have hother := launchNamed_other host config s (show ServerKind.player ≠ .proxy by decide)
      rw [← hmac]
      exact matches_launchNamed hok (hother.1.trans (hp _)) (hother.2.trans (hk _))
  · rw [hall] at hok
    exact nomatch hok

/-! ### A stop -/

theorem ports_calls (calls : List Discovery.DaemonCall) (actions : List ServiceAction) :
    ServiceAction.ports kind (actions ++ calls.map (.daemon k)) = ServiceAction.ports kind actions := by
  induction calls generalizing actions with
  | nil => simp
  | cons c calls ih => rw [List.map_cons, List.append_cons, ih, ServiceAction.ports_daemon]

theorem ports_flatMap_giveUp (advertisers : List (ServerKind × Discovery.Advertiser))
    (actions : List ServiceAction) :
    ServiceAction.ports kind (actions ++ advertisers.flatMap (giveUp host)) =
      ServiceAction.ports kind actions := by
  induction advertisers generalizing actions with
  | nil => simp
  | cons p advertisers ih =>
    rw [List.flatMap_cons, ← List.append_assoc, ih]
    exact ports_calls _ actions

/-- One announcement given up: its service is not announced any more. -/
theorem mem_announced_giveUp {actions : List ServiceAction} {p : ServerKind × Discovery.Advertiser}
    {x : String × UInt16} (hw : host.Withdraws) {full : String} (hp : p.2.registered = some full) :
    x ∈ ServiceAction.announced kind (actions ++ giveUp host p) ↔
      x ∈ ServiceAction.announced kind actions ∧ (p.1 = kind → x.1 ≠ full) := by
  have hgiveUp : giveUp host p = .daemon p.1 (.unregister full) ::
      ((host.daemon p.1).call .shutdown).2.map (.daemon p.1) := by
    rw [giveUp, Discovery.Advertiser.giveUp_of_registered hp (hw p.1), List.map_cons]
  have hannounced : ServiceAction.announced kind (actions ++ giveUp host p) =
      ServiceAction.announced kind (actions ++ [.daemon p.1 (.unregister full)]) := by
    rw [hgiveUp, List.append_cons]
    rcases (host.daemon p.1).call_cases .shutdown with h | h
    · rw [h, List.map_nil, List.append_nil]
    · rw [h, List.map_singleton, ServiceAction.announced_shutdown]
  rw [hannounced, ServiceAction.announced_unregister]
  by_cases hkind : p.1 = kind <;> simp [hkind]

/-- What is still announced when announcements were given up is none of theirs; two of a kind may have
the same name. -/
theorem mem_announced_flatMap_giveUp (hw : host.Withdraws) {x : String × UInt16}
    (advertisers : List (ServerKind × Discovery.Advertiser))
    (h : ∀ p ∈ advertisers, p.2.registered = some (fullName p.2.serviceName))
    (actions : List ServiceAction) :
    x ∈ ServiceAction.announced kind (actions ++ advertisers.flatMap (giveUp host)) ↔
      x ∈ ServiceAction.announced kind actions ∧
        ∀ p ∈ advertisers, p.1 = kind → x.1 ≠ fullName p.2.serviceName := by
  induction advertisers generalizing actions with
  | nil => simp
  | cons p advertisers ih =>
    rw [List.flatMap_cons, ← List.append_assoc, ih fun q hq => h q (List.mem_cons_of_mem p hq),
      mem_announced_giveUp hw (h p List.mem_cons_self)]
    simp [and_assoc]

theorem Accounted.stopAdvertisers (h : Accounted s) (hw : host.Withdraws) :
    Accounted (s.stopAdvertisers host) where
  ports k := by
    have hport : (s.stopAdvertisers host).port? k = s.port? k := by cases k <;> rfl
    rw [hport, ← h.ports k]
    exact ports_flatMap_giveUp s.advertisers s.actions
  announced k := by
    -- what is announced is kept, so that the one that keeps it withdraws it
    refine List.eq_nil_iff_forall_not_mem.2 fun x hx => ?_
    have hx := (mem_announced_flatMap_giveUp hw s.advertisers h.registered s.actions).1 hx
    rw [h.announced, kept, List.mem_map] at hx
    obtain ⟨⟨p, hp, rfl⟩, hnone⟩ := hx
    rw [List.mem_filter, decide_eq_true_eq] at hp
    exact hnone p hp.1 hp.2 rfl
  registered _ hp := absurd hp List.not_mem_nil

@[simp] theorem port?_stopServer : (s.stopServer kind).port? k = if kind = k then none else s.port? k := by
  unfold stopServer
  split
  · next h =>
    by_cases hk : kind = k
    · rw [if_pos hk, ← hk, h]
    · rw [if_neg hk]
  · simp

@[simp] theorem advertisers_stopServer : (s.stopServer kind).advertisers = s.advertisers := by
  unfold stopServer
  split <;> simp

theorem Accounted.stopServer (h : Accounted s) : Accounted (s.stopServer kind) where
  ports k := by
    rw [port?_stopServer]
    unfold Service.stopServer
    split
    · next hport =>
      rw [h.ports k]
      by_cases hk : kind = k
      · rw [if_pos hk, ← hk, hport]
      · rw [if_neg hk]
    · by_cases hk : kind = k <;> simp [hk, h.ports k]
  announced k := by
    rw [kept_congr advertisers_stopServer, ← h.announced k]
    unfold Service.stopServer
    split <;> simp
  registered p hp := h.registered p (by simpa using hp)

/-- A service that stops leaves nothing behind. -/
theorem Accounted.idle_stop (h : Accounted s) (hw : host.Withdraws) : Idle (s.stop host) := by
  have hstop : Accounted (s.stop host) := ((h.stopAdvertisers hw).stopServer).stopServer
  have hport (kind : ServerKind) : (s.stop host).port? kind = none := by
    cases kind <;> simp [stop]
  have hkept (kind : ServerKind) : (s.stop host).kept kind = [] := by
    rw [kept, stop, advertisers_stopServer, advertisers_stopServer]
    rfl
  refine ⟨ServiceAction.running_eq_nil fun kind => ?_, fun kind => ?_⟩
  · rw [hstop.ports, hport]
    rfl
  · rw [hstop.announced, hkept]

/-- **A service starts whole or not at all.** It starts iff all that the named servers need is there.
If it does not start then nothing runs and nothing is announced; if it does then what runs and what is
announced is what the configuration names, and nothing is left of it once it stops. -/
theorem start_allOrNothing (host : Host) (config : ServiceConfig) (hw : host.Withdraws) :
    ((start host config).1 = .ok () ↔
      ∀ kind l, config.listener? kind = some l → host.Admits config.advertise kind l) ∧
    match start host config with
    | (.error _, s) => Idle s
    | (.ok (), s) => Serves host config s ∧ ∀ later : Host, later.Withdraws → Idle (s.stop later) := by
  have hport (kind : ServerKind) : port? { mac := config.macAddress.getD host.mac } kind = none := by
    cases kind <;> rfl
  have haccounted : Accounted (launchAll host config { mac := config.macAddress.getD host.mac }).2 :=
    (Accounted.fresh _).launchAll hport
  have hadmits := launchAll_ok_iff host config { mac := config.macAddress.getD host.mac }
  have hmatches (hok : (launchAll host config { mac := config.macAddress.getD host.mac }).1 = .ok ()) :=
    matches_launchAll hok hport fun _ => rfl
  have hmac := mac_launchAll host config { mac := config.macAddress.getD host.mac }
  dsimp only [start]
  generalize launchAll host config { mac := config.macAddress.getD host.mac } = r at *
  obtain ⟨⟨e⟩ | ⟨⟨⟩⟩, s⟩ := r
  · exact ⟨hadmits, haccounted.idle_stop hw⟩
  · refine ⟨hadmits, fun kind => ?_, fun later hlater => haccounted.idle_stop hlater⟩
    rw [haccounted.ports, haccounted.announced, hmac]
    exact hmatches rfl kind

/-- A player and a proxy of the same name. -/
def pair : ServiceConfig := { player := some { name := "Kitchen" }, proxy := some { name := "Kitchen" } }

/-- A host with a port for the player, and perhaps one for the proxy. -/
def pairHost (proxy : Option UInt16) : Host where
  files _ _ := none
  bind kind _ := match kind with
    | .player => some 5000
    | .proxy => proxy
  mac := Vector.replicate 6 0

/-- A pair that gets both ports runs until it is stopped; where the proxy gets none, the player is
stopped and withdrawn with it. -/
theorem start_allOrNothing_pair : (∀ proxy, (pairHost proxy).Withdraws) ∧
    (start (pairHost (some 5001)) pair).1 = .ok () ∧
    Serves (pairHost (some 5001)) pair (start (pairHost (some 5001)) pair).2 ∧
    Idle ((start (pairHost (some 5001)) pair).2.stop (pairHost (some 5001))) ∧
    (start (pairHost none) pair).1 ≠ .ok () ∧ Idle (start (pairHost none) pair).2 := by
  have hw (proxy : Option UInt16) : (pairHost proxy).Withdraws := fun _ => rfl
  obtain ⟨hiff, hserves⟩ := start_allOrNothing (pairHost (some 5001)) pair (hw _)
  obtain ⟨hiff', hidle⟩ := start_allOrNothing (pairHost none) pair (hw _)
  have hok : (start (pairHost (some 5001)) pair).1 = .ok () := by
    refine hiff.2 fun kind l hl => ?_
    cases kind <;> cases hl <;> exact ⟨⟨none, rfl⟩, ⟨_, rfl⟩, fun _ => ⟨rfl, rfl⟩⟩
  have hfails : (start (pairHost none) pair).1 ≠ .ok () := fun h => by
    obtain ⟨port, hport⟩ := (hiff'.1 h .proxy _ rfl).port
    exact nomatch hport
  refine ⟨hw, hok, ?_⟩
  generalize start (pairHost (some 5001)) pair = r at hok hserves
  generalize start (pairHost none) pair = r' at hfails hidle
  obtain ⟨e | ⟨⟨⟩⟩, s⟩ := r
  · exact nomatch hok
  obtain ⟨e | ⟨⟨⟩⟩, s'⟩ := r'
  · exact ⟨hserves.1, hserves.2 _ (hw _), nofun, hidle⟩
  · exact absurd rfl hfails

end Service
end Raop
