/-
# The life of a server

Clients come and go at any time, also while the server stops and between the
restarts. Three things are true of it throughout, each shown for every item of
the list of what can happen: the handler of a client was told as often that the
client is gone as its connection has ended, once or not at all (`Sound`); a
server runs, stops or does neither, and with the last of these its clients have
ended and the events told of a start and a stop are even in number (`Phased`);
what was remembered since the last start says whether the server runs, and what
clients it has (`Logged`).

So when a stop is complete every client that was accepted since the start has
been accounted for, exactly once (`life`).

Key definitions: `Server.sinceStart`, `Server.alternating`, `Server.Sound`, `Server.Phased`,
`Server.Logged`, `Server.Consistent`.
Key theorems: `Server.Sound.step`, `Server.Phased.step`, `Server.Logged.step`,
`Server.Consistent.run`, `Server.life`.
-/
import Mathlib.Data.List.Permutation
import Mathlib.Data.Prod.Basic
import Raop.Proofs.Server.Steps

namespace Raop
namespace Server

variable {ρ σ : Type} {ctx : ServerContext ρ σ} {v w : Server ρ σ} {log entries : List Entry}

/-! ### The clients -/

/-- The handler of each client was told once that the client is gone if the connection has ended, and
not at all before. -/
structure Sound (v : Server ρ σ) : Prop where
  idle : ∀ c ∈ v.connections, c.Idle
  told : ∀ i, v.deeds.count (i, .shutdown) = (v.connections[i]?).elim 0 Connection.ended

theorem Sound.congr (h : Sound v) (hconnections : w.connections = v.connections)
    (hdeeds : w.deeds = v.deeds) : Sound w where
  idle := by rw [hconnections]; exact h.idle
  told := by rw [hconnections, hdeeds]; exact h.told

theorem count_map_pair (i j : Nat) (d : Deed) (done : List Deed) :
    (done.map (i, ·)).count (j, d) = if i = j then done.count d else 0 := by
  by_cases h : i = j
  · subst h
    rw [if_pos rfl]
    exact List.count_map_of_injective _ _ (Prod.mk_right_injective i) _
  · rw [if_neg h, List.count_eq_zero]
    simp [h]

theorem Sound.turned (h : Sound v) {i : Nat} {c : Connection} (hc : v.connections[i]? = some c)
    {x : Connection × List Deed × (σ × ρ)} (hx : Connection.Ends c x) (hw : Turned v i x w) : Sound w where
  idle c' hc' := by
    rw [hw.connections] at hc'
    rcases List.mem_or_eq_of_mem_set hc' with hc' | rfl
    · exact h.idle c' hc'
    · exact hx.idle
  told j := by
    rw [hw.deeds, hw.connections, List.count_append, h.told, count_map_pair]
    by_cases hij : i = j
    · subst hij
      rw [if_pos rfl, List.getElem?_set_self (List.getElem?_eq_some_iff.1 hc).1, hc]
      exact hx.told
    · rw [if_neg hij, List.getElem?_set_ne hij, Nat.add_zero]

/-- A new client has not ended, so that nothing is to be told of it. -/
theorem ended_append_new (connections : List Connection) (i : Nat) :
    ((connections ++ [({} : Connection)])[i]?).elim 0 Connection.ended =
      (connections[i]?).elim 0 Connection.ended := by
  rcases Nat.lt_trichotomy i connections.length with hi | rfl | hi
  · rw [List.getElem?_append_left hi]
  · rw [List.getElem?_concat_length, List.getElem?_eq_none (Nat.le_refl _)]
    rfl
  · rw [List.getElem?_eq_none (by simp; omega), List.getElem?_eq_none (Nat.le_of_lt hi)]

theorem Sound.accepted (h : Sound v) (hconnections : w.connections = v.connections ++ [({} : Connection)])
    (hdeeds : w.deeds = v.deeds) : Sound w where
  idle c hc := by
    rw [hconnections] at hc
    rcases List.mem_append.1 hc with hc | hc
    · exact h.idle c hc
    · rw [List.mem_singleton.1 hc]
      exact nofun
  told i := by
    rw [hconnections, hdeeds, ended_append_new]
    exact h.told i

theorem Sound.step (h : Sound v) (hstep : Step ctx v w entries) : Sound w := by
  cases hstep with
  | unchanged => exact h
  | started port => exact ⟨fun _ hc => absurd hc List.not_mem_nil, fun _ => rfl⟩
  | halted => exact h.congr rfl rfl
  | unmoved => exact h
  | closed => exact h.congr (connections_settle ctx _) (deeds_settle ctx _)
  | accepted ip session => exact h.accepted List.map_append rfl
  | turned i c x w hc hends hw =>
    have hidle : c.Idle := h.idle c (List.mem_of_getElem? hc)
    exact (h.turned hc (hends hidle) hw).congr (connections_settle ctx w) (deeds_settle ctx w)
  | changed w _ _ _ _ hconnections hdeeds => exact h.congr hconnections hdeeds

/-! ### Started and stopped -/

/-- The first events of a server's own life: it starts and stops by turns. -/
def alternating (name : String) (n : Nat) : List Event :=
  (List.range n).map fun k => if k % 2 = 0 then .started name else .stopped name

theorem alternating_succ (name : String) (n : Nat) : alternating name (n + 1) =
    alternating name n ++ [if n % 2 = 0 then .started name else .stopped name] := by
  simp [alternating, List.range_succ]

/-- A server runs, stops or does neither. With the last of these its clients have ended and it has told
of as many stops as starts, and of one less otherwise. -/
structure Phased (ctx : ServerContext ρ σ) (v : Server ρ σ) : Prop where
  running : v.isRunning = true → v.listening = true ∧ v.stopping = false
  listening : v.listening = true → v.isRunning = true ∨ v.stopping = true
  gone : v.isRunning = false → v.stopping = false → ∀ c ∈ v.connections, c.ended = 1
  told : ∃ m, v.events.filter Event.isLifecycle =
    alternating ctx.name (2 * m + if v.isRunning || v.stopping then 1 else 0)

theorem Phased.isRunning_of_stopping (h : Phased ctx v) (hstopping : v.stopping = true) :
    v.isRunning = false := by
  cases hrunning : v.isRunning with
  | false => rfl
  | true => exact absurd (h.running hrunning).2 (by simp [hstopping])

theorem Phased.congr (h : Phased ctx v) (hrunning : w.isRunning = v.isRunning)
    (hstopping : w.stopping = v.stopping) (hlistening : w.listening = v.listening)
    (hevents : w.events.filter Event.isLifecycle = v.events.filter Event.isLifecycle)
    (hover : v.isRunning = false → v.stopping = false → ∀ c ∈ w.connections, c.ended = 1) :
    Phased ctx w where
  running := by rw [hrunning, hlistening, hstopping]; exact h.running
  listening := by rw [hrunning, hlistening, hstopping]; exact h.listening
  gone := by rw [hrunning, hstopping]; exact hover
  told := by rw [hevents, hrunning, hstopping]; exact h.told

/-- A start is told of after an even number of events. -/
theorem Phased.started (h : Phased ctx v) (hrunning : v.isRunning = false) (hstopping : v.stopping = false)
    (port : UInt16) : Phased ctx
      ({ v with port := some port, listening := true, clients := [], deeds := [] }.emit
        (.started ctx.name)) where
  running _ := ⟨rfl, hstopping⟩
  listening _ := .inl rfl
  gone := nofun
  told := by
    obtain ⟨m, hm⟩ := h.told
    rw [hrunning, hstopping] at hm
    refine ⟨m, ?_⟩
    show (v.events ++ [Event.started ctx.name]).filter Event.isLifecycle = alternating ctx.name (2 * m + 1)
    have heven : 2 * m % 2 = 0 := by omega
    rw [alternating_succ, if_pos heven, List.filter_append, hm]
    rfl

/-- And a stop after an odd one, once all connections have ended. -/
theorem Phased.settle (h : Phased ctx v) : Phased ctx (v.settle ctx) := by
  unfold Server.settle
  by_cases hover : (v.stopping && !v.listening && v.clients.all (·.connection.ending.isSome)) = true
  · rw [if_pos hover]
    simp only [Bool.and_eq_true, Bool.not_eq_true', List.all_eq_true] at hover
    obtain ⟨⟨hstopping, hlistening⟩, hended⟩ := hover
    have hrunning : v.isRunning = false := h.isRunning_of_stopping hstopping
    constructor
    · exact fun hr => absurd hr (by simpa [isRunning, emit] using hrunning)
    · exact fun hl => absurd hl (by simpa [emit] using hlistening)
    · intro _ _ c hc
      obtain ⟨client, hclient, rfl⟩ := List.mem_map.1 hc
      exact Connection.ended_of_isSome (hended client hclient)
    · obtain ⟨m, hm⟩ := h.told
      rw [hstopping, Bool.or_true, if_pos rfl] at hm
      refine ⟨m + 1, ?_⟩
      show (v.events ++ [Event.stopped ctx.name]).filter Event.isLifecycle =
        alternating ctx.name (2 * m + 1 + 1 + if (v.isRunning || false) = true then 1 else 0)
      have hodd : ¬ (2 * m + 1) % 2 = 0 := by omega
      rw [hrunning, Bool.or_self, if_neg Bool.false_ne_true, Nat.add_zero, alternating_succ, if_neg hodd,
        List.filter_append, hm]
      rfl
  · rw [if_neg hover]
    exact h

theorem Phased.halted (h : Phased ctx v) (hrunning : v.isRunning = true) :
    Phased ctx ({ v with port := none, stopping := true } : Server ρ σ) where
  running := nofun
  listening _ := .inr rfl
  gone := nofun
  told := by
    obtain ⟨m, hm⟩ := h.told
    rw [hrunning] at hm
    exact ⟨m, hm⟩

theorem Phased.closed (h : Phased ctx v) (hstopping : v.stopping = true) :
    Phased ctx ({ v with listening := false } : Server ρ σ) where
  running hrunning := by
    have hnot : v.isRunning = false := h.isRunning_of_stopping hstopping
    rw [show v.isRunning = true from hrunning] at hnot
    exact nomatch hnot
  listening := nofun
  gone := h.gone
  told := h.told

theorem Phased.step (h : Phased ctx v) (hsound : Sound v) (hstep : Step ctx v w entries) :
    Phased ctx w := by
  cases hstep with
  | unchanged => exact h
  | started port hrunning hstopping => exact h.started hrunning hstopping port
  | halted hrunning => exact h.halted hrunning
  | unmoved => exact h
  | closed hstopping => exact (h.closed hstopping).settle
  | accepted ip session hlistening =>
    refine h.congr rfl rfl rfl ?_ fun hrunning hstopping => ?_
    · rw [emit, List.filter_append]
      exact List.append_nil _
    · rcases h.listening hlistening with h | h
      · simp [h] at hrunning
      · simp [h] at hstopping
  | turned i c x w hc hends hw =>
    have hmem : c ∈ v.connections := List.mem_of_getElem? hc
    refine (h.congr hw.isRunning hw.stopping hw.listening hw.events
      fun hrunning hstopping c' hc' => ?_).settle
    rw [hw.connections] at hc'
    rcases List.mem_or_eq_of_mem_set hc' with hc' | rfl
    · exact h.gone hrunning hstopping c' hc'
    · exact (hends (hsound.idle c hmem)).ended_eq_one (h.gone hrunning hstopping c hmem)
  | changed w hport hstopping hlistening _ hconnections _ hevents =>
    refine h.congr ?_ hstopping hlistening (by rw [hevents]) (by rw [hconnections]; exact h.gone)
    rw [isRunning, isRunning, hport]

/-! ### What is remembered -/

/-- What is remembered since the last start that succeeded. -/
def sinceStart (log : List Entry) : Option (List Entry) :=
  log.foldl (fun since e => match e with
    | .started => some []
    | e => since.map (· ++ [e])) none

theorem sinceStart_started : sinceStart (log ++ [.started]) = some [] := by
  simp [sinceStart]

theorem sinceStart_append {e : Entry} (he : e ≠ .started) :
    sinceStart (log ++ [e]) = (sinceStart log).map (· ++ [e]) := by
  cases e with
  | started => exact absurd rfl he
  | halted | accepted => simp [sinceStart]

/-- What is remembered since the last start is what stands behind its entry. -/
theorem sinceStart_eq_some_iff {after : List Entry} : sinceStart log = some after ↔
    (∃ before, log = before ++ .started :: after) ∧ .started ∉ after := by
  induction log using List.reverseRecOn generalizing after with
  | nil => simp [sinceStart]
  | append_singleton log e ih =>
    -- the last entry is the start itself, or it is the last one behind the start
    have hsplit : (∃ before, log ++ [e] = before ++ .started :: after) ↔
        e = .started ∧ after = [] ∨
          ∃ rest, after = rest ++ [e] ∧ ∃ before, log = before ++ .started :: rest := by
      constructor
      · rintro ⟨before, hlog⟩
        rcases List.eq_nil_or_concat after with rfl | ⟨rest, e', hafter⟩
        · exact .inl ⟨by simpa using congrArg List.getLast? hlog, rfl⟩
        · rw [List.concat_eq_append] at hafter
          subst hafter
          rw [← List.cons_append, ← List.append_assoc] at hlog
          obtain ⟨hbefore, he⟩ := List.append_inj' hlog rfl
          cases he
          exact .inr ⟨rest, rfl, before, hbefore⟩
      · rintro (⟨rfl, rfl⟩ | ⟨rest, rfl, before, rfl⟩)
        · exact ⟨log, rfl⟩
        · exact ⟨before, by simp⟩
    rw [hsplit]
    by_cases he : e = .started
    · subst he
      rw [sinceStart_started]
      constructor
      · intro h
        cases h
        exact ⟨.inl ⟨rfl, rfl⟩, List.not_mem_nil⟩
      · rintro ⟨⟨-, rfl⟩ | ⟨rest, rfl, -⟩, hafter⟩
        · rfl
        · simp at hafter
    · rw [sinceStart_append he, Option.map_eq_some_iff]
      constructor
      · rintro ⟨rest, hrest, rfl⟩
        obtain ⟨hbefore, hnot⟩ := ih.1 hrest
        exact ⟨.inr ⟨rest, rfl, hbefore⟩, by simp [hnot, Ne.symm he]⟩
      · rintro ⟨⟨h, -⟩ | ⟨rest, rfl, hbefore⟩, hafter⟩
        · exact absurd h he
        · exact ⟨rest, ih.2 ⟨hbefore, fun hmem => hafter (List.mem_append_left _ hmem)⟩, rfl⟩

/-- What is remembered says whether the server runs, and what clients it has. -/
structure Logged (v : Server ρ σ) (log : List Entry) : Prop where
  running : v.isRunning = true ↔ ∃ after, sinceStart log = some after ∧ .halted ∉ after
  begun : v.isRunning = true ∨ v.stopping = true → (sinceStart log).isSome = true
  accepted : v.clients.map Client.ip = ((sinceStart log).getD []).filterMap Entry.accepted?

theorem Logged.congr (h : Logged v log) (hrunning : w.isRunning = v.isRunning)
    (hstopping : w.stopping = true → v.stopping = true)
    (hips : w.clients.map Client.ip = v.clients.map Client.ip) : Logged w log where
  running := by rw [hrunning]; exact h.running
  begun hbusy := by
    rw [hrunning] at hbusy
    exact h.begun (hbusy.imp_right hstopping)
  accepted := by rw [hips]; exact h.accepted

theorem Logged.started (hrunning : w.isRunning = true) (hclients : w.clients = []) :
    Logged w (log ++ [.started]) where
  running := ⟨fun _ => ⟨[], sinceStart_started, List.not_mem_nil⟩, fun _ => hrunning⟩
  begun _ := by rw [sinceStart_started]; rfl
  accepted := by rw [sinceStart_started, hclients]; rfl

/-- A server that was told to stop does not run, whether it did before or not. -/
theorem Logged.halted (h : Logged v log) (hrunning : w.isRunning = false)
    (hbusy : w.stopping = true → v.isRunning = true ∨ v.stopping = true)
    (hips : w.clients.map Client.ip = v.clients.map Client.ip) : Logged w (log ++ [.halted]) := by
  have hsince : sinceStart (log ++ [.halted]) = (sinceStart log).map (· ++ [.halted]) :=
    sinceStart_append nofun
  constructor
  · constructor
    · intro hr
      rw [hrunning] at hr
      exact nomatch hr
    · rintro ⟨after, hafter, hnot⟩
      rw [hsince] at hafter
      obtain ⟨rest, -, rfl⟩ := Option.map_eq_some_iff.1 hafter
      exact absurd (List.mem_append_right rest List.mem_cons_self) hnot
  · intro hw
    rw [hrunning] at hw
    rw [hsince, Option.isSome_map]
    exact h.begun (hbusy (hw.resolve_left nofun))
  · rw [hsince, hips, h.accepted]
    cases sinceStart log <;> simp [Entry.accepted?]

theorem Logged.accept (h : Logged v log) (hbusy : v.isRunning = true ∨ v.stopping = true) {ip : IpAddress}
    (hrunning : w.isRunning = v.isRunning)
    (hips : w.clients.map Client.ip = v.clients.map Client.ip ++ [ip]) :
    Logged w (log ++ [.accepted ip]) := by
  obtain ⟨rest, hrest⟩ := Option.isSome_iff_exists.1 (h.begun hbusy)
  have hsince : sinceStart (log ++ [.accepted ip]) = some (rest ++ [.accepted ip]) := by
    rw [sinceStart_append (show Entry.accepted ip ≠ .started from nofun), hrest]
    rfl
  constructor
  · have hbefore := h.running
    rw [hrest] at hbefore
    rw [hsince, hrunning, hbefore]
    simp
  · intro _
    rw [hsince]
    rfl
  · rw [hips, h.accepted, hrest, hsince]
    simp [Entry.accepted?]

theorem Logged.step (h : Logged v log) (hphased : Phased ctx v) (hstep : Step ctx v w entries) :
    Logged w (log ++ entries) := by
  cases hstep with
  | unchanged =>
    rw [List.append_nil]
    exact h
  | started port => exact Logged.started rfl rfl
  | halted hrunning => exact h.halted rfl (fun _ => .inl hrunning) rfl
  | unmoved hrunning => exact h.halted hrunning .inr rfl
  | closed =>
    rw [List.append_nil]
    exact h.congr (isRunning_settle ctx _) stopping_of_settle (by rw [clients_settle])
  | accepted ip session hlistening =>
    exact h.accept (hphased.listening hlistening) rfl List.map_append
  | turned i c x w hc hends hw =>
    rw [List.append_nil]
    refine h.congr ?_ (fun hs => ?_) ?_
    · rw [isRunning_settle, hw.isRunning]
    · rw [← hw.stopping]
      exact stopping_of_settle hs
    · rw [clients_settle, hw.ips]
  | changed w hport hstopping _ hips =>
    rw [List.append_nil]
    refine h.congr ?_ (fun hs => by rwa [← hstopping]) hips
    rw [isRunning, isRunning, hport]

/-! ### A whole life -/

/-- What one happening hands to the next. -/
structure Consistent (ctx : ServerContext ρ σ) (v : Server ρ σ) (log : List Entry) : Prop where
  sound : Sound v
  phased : Phased ctx v
  logged : Logged v log

theorem Consistent.fresh (ctx : ServerContext ρ σ) (shared : ρ) :
    Consistent ctx ({ shared } : Server ρ σ) [] where
  sound := ⟨fun _ hc => absurd hc List.not_mem_nil, fun _ => rfl⟩
  phased :=
    { running := nofun
      listening := nofun
      gone := fun _ _ _ hc => absurd hc List.not_mem_nil
      told := ⟨0, rfl⟩ }
  logged :=
    { running := ⟨nofun, fun ⟨_, h, _⟩ => nomatch h⟩
      begun := fun h => h.elim nofun nofun
      accepted := rfl }

theorem Consistent.step (h : Consistent ctx v log) (hstep : Step ctx v w entries) :
    Consistent ctx w (log ++ entries) where
  sound := h.sound.step hstep
  phased := h.phased.step h.sound hstep
  logged := h.logged.step h.phased hstep

theorem Consistent.run (hs : List (Happening ρ σ)) (h : Consistent ctx v log) :
    Consistent ctx (v.run ctx hs) (log ++ history ctx hs v) := by
  induction hs generalizing v log with
  | nil =>
    rw [history, List.append_nil]
    exact h
  | cons x hs ih =>
    rw [history, ← List.append_assoc]
    exact ih (h.step (step_take ctx v x))

/-- **A server's life.** Whatever happens to a server, it tells that it started and stopped by turns, a
start first; it runs from a start that succeeds until it is told to stop; a start that fails, which is
one without a port or one before the server has stopped, changes nothing; and once the server has
stopped, the handler of every client that was accepted since its last start was told exactly once that
the client is gone. -/
theorem life (ctx : ServerContext ρ σ) (shared : ρ) (hs : List (Happening ρ σ)) :
    let v : Server ρ σ := run ctx hs { shared }
    let log := history ctx hs { shared }
    (∃ n, v.events.filter Event.isLifecycle = alternating ctx.name n ∧
      (n % 2 = 1 ↔ v.isRunning = true ∨ v.stopping = true)) ∧
    (v.isRunning = true ↔ ∃ before after,
      log = before ++ .started :: after ∧ .started ∉ after ∧ .halted ∉ after) ∧
    (∀ granted, ((∃ e, (v.start ctx granted).1 = .error e) ↔
        v.isRunning = true ∨ v.stopping = true ∨ granted = none) ∧
      ∀ e, (v.start ctx granted).1 = .error e → (v.start ctx granted).2 = v) ∧
    (v.isRunning = false → v.stopping = false →
      ∀ before after, log = before ++ .started :: after → .started ∉ after →
        v.clients.map Client.ip = after.filterMap Entry.accepted? ∧
        ∀ i < v.clients.length, v.deeds.count (i, .shutdown) = 1) := by
  intro v log
  have hv : Consistent ctx v log := (Consistent.fresh ctx shared).run hs
  refine ⟨?_, ?_, fun granted => ?_, fun hrunning hstopping before after hlog hafter => ?_⟩
  · obtain ⟨m, hm⟩ := hv.phased.told
    refine ⟨_, hm, ?_⟩
    cases v.isRunning <;> cases v.stopping <;> simp
  · rw [hv.logged.running]
    constructor
    · rintro ⟨after, hsince, hnot⟩
      obtain ⟨⟨before, hlog⟩, hafter⟩ := sinceStart_eq_some_iff.1 hsince
      exact ⟨before, after, hlog, hafter, hnot⟩
    · rintro ⟨before, after, hlog, hafter, hnot⟩
      exact ⟨after, sinceStart_eq_some_iff.2 ⟨⟨before, hlog⟩, hafter⟩, hnot⟩
  · rcases start_cases ctx granted v with ⟨e, hstart, hwhy⟩ | ⟨port, rfl, hrunning, hstopping, hstart⟩
    · rw [hstart]
      exact ⟨⟨fun _ => hwhy, fun _ => ⟨e, rfl⟩⟩, fun _ _ => rfl⟩
    · rw [hstart]
      refine ⟨⟨?_, ?_⟩, nofun⟩
      · rintro ⟨e, h⟩
        cases h
      · simp [hrunning, hstopping]
  · have hsince : sinceStart log = some after := sinceStart_eq_some_iff.2 ⟨⟨before, hlog⟩, hafter⟩
    constructor
    · rw [hv.logged.accepted, hsince]
      rfl
    · intro i hi
      have hget : v.connections[i]? = some v.clients[i].connection :=
        getElem?_connections (List.getElem?_eq_some_iff.2 ⟨hi, rfl⟩)
      rw [hv.sound.told, hget]
      exact hv.phased.gone hrunning hstopping _ (List.mem_of_getElem? hget)

/-- A server whose handler says yes to everything, and counts how often it was told of the end. -/
def yes : ServerContext Unit Nat where
  name := "Kitchen"
  connection := { mac := Vector.replicate 6 0 }
  handler := (Handler.prompt (fun _ s => (.ok {}, s)) (· + 1)).alone

/-- A server that gets its port with the second start. Two clients come to it, of which one leaves, and
a third one when it was told to stop. -/
def evening : List (Happening Unit Nat) :=
  [.start none, .start (some 5000), .start (some 5001), .accept .unspecified4 0, .accept .unspecified4 0,
    .client 0 .vanish, .halt, .accept .unspecified4 0, .close, .client 2 .stop, .client 1 .stop]

/-- When it has stopped, all three handlers were told, and have counted once. -/
theorem life_evening :
    (run yes evening { shared := () }).isRunning = false ∧
    (run yes evening { shared := () }).stopping = false ∧
    (run yes evening { shared := () }).clients.map Client.session = [1, 1, 1] ∧
    (run yes evening { shared := () }).clients.map Client.ip = List.replicate 3 .unspecified4 ∧
    ∀ i < (run yes evening { shared := () }).clients.length,
      (run yes evening { shared := () }).deeds.count (i, .shutdown) = 1 := by
  have hrunning : (run yes evening { shared := () }).isRunning = false := by cbv
  have hstopping : (run yes evening { shared := () }).stopping = false := by cbv
  have hsessions : (run yes evening { shared := () }).clients.map Client.session = [1, 1, 1] := by cbv
  have hlog : history yes evening { shared := () } = [] ++ .started :: [.accepted .unspecified4,
      .accepted .unspecified4, .halted, .accepted .unspecified4] := by cbv
  obtain ⟨-, -, -, hgone⟩ := life yes () evening
  obtain ⟨hips, htold⟩ := hgone hrunning hstopping [] _ hlog (by simp)
  exact ⟨hrunning, hstopping, hsessions, hips, htold⟩

end Server
end Raop
