/-
# What happens to a server

A server is started and told to stop, clients come to it and go, and answers
that they wait for are given; between its turns its sessions change on their
own. What each of these can do to a server is listed once (`Step`), with what
is remembered of it, and everything that is true of a server at all times is
shown for the items of this list.

The list has the two halves of a stop apart, for clients may still come between
them: the server is told to stop, and its listener is closed.

Key definitions: `ClientEvent`, `Server.Happening`, `Server.run`, `Server.Entry`,
`Server.history`, `Server.Turned`, `Server.Step`.
Key theorems: `Server.turnAt_cases`, `Server.step_take`.
-/
import Raop.Proofs.Ending
import Raop.Server

namespace Raop

variable {ρ σ : Type}

/-- What a client does, or its connection is told. -/
inductive ClientEvent where
  | data (octets : Bytes)
  | close
  | vanish
  | stop

/-- The event happens to a connection. -/
def ClientEvent.apply : ClientEvent → Connection → Connection
  | data octets => fun c => c.feed octets
  | close => Connection.close
  | vanish => Connection.vanish
  | stop => Connection.stop

theorem ClientEvent.ending_apply (e : ClientEvent) (c : Connection) : (e.apply c).ending = c.ending := by
  cases e <;> rfl

theorem ClientEvent.waiting_apply (e : ClientEvent) (c : Connection) : (e.apply c).waiting = c.waiting := by
  cases e <;> rfl

/-- What is told of a server's own life. -/
def Event.isLifecycle : Event → Bool
  | .started _ => true
  | .stopped _ => true
  | _ => false

namespace Server

/-- Something that happens to a server. -/
inductive Happening (ρ σ : Type) where
  | start (granted : Option UInt16)
  /-- It is told to stop. -/
  | halt
  /-- Its listener is closed. -/
  | close
  | accept (ip : IpAddress) (session : σ)
  | client (i : Nat) (event : ClientEvent)
  /-- The answer that a client may wait for is there. -/
  | answer (i : Nat) (result : Except Error Reply)
  /-- Sessions change, and what they share, without a turn of their clients. -/
  | between (sessions : Nat → σ → σ) (shared : ρ → ρ)

variable {ctx : ServerContext ρ σ} {v : Server ρ σ}

/-- It happens. -/
def take (ctx : ServerContext ρ σ) (v : Server ρ σ) : Happening ρ σ → Server ρ σ
  | .start granted => (v.start ctx granted).2
  | .halt => v.halt
  | .close => v.close ctx
  | .accept ip session => v.accept ip session
  | .client i event => (v.serve ctx i event.apply).2
  | .answer i result => (v.resume ctx i result).2
  | .between sessions shared =>
    { v with
      clients := v.clients.mapIdx fun i c => { c with session := sessions i c.session }
      shared := shared v.shared }

/-- One happens after the other. -/
def run (ctx : ServerContext ρ σ) (hs : List (Happening ρ σ)) (v : Server ρ σ) : Server ρ σ :=
  hs.foldl (take ctx) v

/-- What is remembered of a server's life. -/
inductive Entry where
  /-- A start succeeded. -/
  | started
  /-- The server was told to stop. -/
  | halted
  | accepted (ip : IpAddress)
  deriving DecidableEq

/-- The local address to which a client came. -/
def Entry.accepted? : Entry → Option IpAddress
  | accepted ip => some ip
  | _ => none

/-- What is remembered of a happening. -/
def entries (ctx : ServerContext ρ σ) (v : Server ρ σ) : Happening ρ σ → List Entry
  | .start granted =>
    match (v.start ctx granted).1 with
    | .ok _ => [.started]
    | .error _ => []
  | .halt => [.halted]
  | .accept ip _ => if v.listening then [.accepted ip] else []
  | _ => []

/-- What is remembered of all that happens. -/
def history (ctx : ServerContext ρ σ) : List (Happening ρ σ) → Server ρ σ → List Entry
  | [], _ => []
  | x :: hs, v => entries ctx v x ++ history ctx hs (v.take ctx x)

/-- The connections of the clients. -/
def connections (v : Server ρ σ) : List Connection := v.clients.map Client.connection

/-! ### A stop that is complete -/

@[simp] theorem clients_settle (ctx : ServerContext ρ σ) (v : Server ρ σ) :
    (v.settle ctx).clients = v.clients := by
  unfold settle
  split <;> rfl

@[simp] theorem connections_settle (ctx : ServerContext ρ σ) (v : Server ρ σ) :
    (v.settle ctx).connections = v.connections := by
  rw [connections, clients_settle, connections]

@[simp] theorem deeds_settle (ctx : ServerContext ρ σ) (v : Server ρ σ) :
    (v.settle ctx).deeds = v.deeds := by
  unfold settle
  split <;> rfl

@[simp] theorem isRunning_settle (ctx : ServerContext ρ σ) (v : Server ρ σ) :
    (v.settle ctx).isRunning = v.isRunning := by
  unfold settle
  split <;> rfl

@[simp] theorem listening_settle (ctx : ServerContext ρ σ) (v : Server ρ σ) :
    (v.settle ctx).listening = v.listening := by
  unfold settle
  split <;> rfl

theorem stopping_of_settle (hstopping : (v.settle ctx).stopping = true) : v.stopping = true := by
  unfold settle at hstopping
  split at hstopping
  · cases hstopping
  · exact hstopping

/-! ### A turn -/

/-- What a turn of the client at a position changes, before the server has stopped with it if it does. -/
structure Turned (v : Server ρ σ) (i : Nat) (x : Connection × List Deed × (σ × ρ)) (w : Server ρ σ) :
    Prop where
  port : w.port = v.port
  stopping : w.stopping = v.stopping
  listening : w.listening = v.listening
  ips : w.clients.map Client.ip = v.clients.map Client.ip
  connections : w.connections = v.connections.set i x.1
  deeds : w.deeds = v.deeds ++ x.2.1.map (i, ·)
  events : w.events.filter Event.isLifecycle = v.events.filter Event.isLifecycle

theorem Turned.isRunning {w : Server ρ σ} {i : Nat} {x : Connection × List Deed × (σ × ρ)}
    (h : Turned v i x w) : w.isRunning = v.isRunning := by
  rw [Server.isRunning, Server.isRunning, h.port]

/-- A turn is told of only if the connection ends with it. -/
theorem turn_eq (f : IpAddress → Connection → σ × ρ → Connection × List Deed × (σ × ρ)) (c : Client σ)
    (v : Server ρ σ) : ∃ events : List Event, events.filter Event.isLifecycle = [] ∧
      turn f c v =
        ({ c with
            connection := (f c.ip c.connection (c.session, v.shared)).1
            session := (f c.ip c.connection (c.session, v.shared)).2.2.1 },
          (f c.ip c.connection (c.session, v.shared)).2.1,
          { v with
            shared := (f c.ip c.connection (c.session, v.shared)).2.2.2
            events := v.events ++ events }) := by
  unfold turn
  rcases f c.ip c.connection (c.session, v.shared) with ⟨c', done, session, shared⟩
  cases hbefore : c.connection.ending with
  | some e => exact ⟨[], rfl, by simp⟩
  | none =>
    cases hafter : c'.ending with
    | none => exact ⟨[], rfl, by simp [hafter]⟩
    | some e => exact ⟨[e.event], rfl, by simp [hafter, emit]⟩

theorem turnAt_cases (ctx : ServerContext ρ σ)
    (f : IpAddress → Connection → σ × ρ → Connection × List Deed × (σ × ρ)) (i : Nat) (v : Server ρ σ) :
    v.clients[i]? = none ∧ (v.turnAt ctx f i).2 = v ∨ ∃ (c : Client σ) (w : Server ρ σ),
      v.clients[i]? = some c ∧ Turned v i (f c.ip c.connection (c.session, v.shared)) w ∧
        (v.turnAt ctx f i).2 = w.settle ctx := by
  unfold turnAt
  cases hc : v.clients[i]? with
  | none => exact .inl ⟨rfl, rfl⟩
  | some c =>
    obtain ⟨events, hevents, hturn⟩ := turn_eq f c v
    have hip : (v.clients.map Client.ip).set i c.ip = v.clients.map Client.ip := by
      obtain ⟨hi, hip⟩ := List.getElem?_eq_some_iff.1
        (show (v.clients.map Client.ip)[i]? = some c.ip by rw [List.getElem?_map, hc]; rfl)
      rw [← hip, List.set_getElem_self]
    simp only [hturn]
    refine .inr ⟨c, _, rfl, ?_, rfl⟩
    exact
      { port := rfl
        stopping := rfl
        listening := rfl
        ips := List.map_set.trans hip
        connections := List.map_set
        deeds := rfl
        events := by rw [List.filter_append, hevents, List.append_nil] }

theorem getElem?_connections {i : Nat} {c : Client σ} (hc : v.clients[i]? = some c) :
    v.connections[i]? = some c.connection := by
  rw [connections, List.getElem?_map, hc]
  rfl

/-- Something that a client does, and its turn after that. -/
theorem ends_served (ctx : ServerContext ρ σ) (event : ClientEvent) (ip : IpAddress) (c : Connection)
    (s : σ × ρ) (hc : c.Idle) :
    Connection.Ends c ((event.apply c).run ctx.connection ip ctx.handler s) := by
  have hidle : (event.apply c).Idle := by
    intro hsome
    rw [event.ending_apply] at hsome
    rw [event.waiting_apply]
    exact hc hsome
  have hends := Connection.ends_run ctx.connection ip ctx.handler hidle s
  refine ⟨hends.idle, ?_⟩
  rw [← hends.told, Connection.ended, Connection.ended, event.ending_apply]

/-! ### Every step -/

/-- What a happening does to a server, and what is remembered of it. -/
inductive Step (ctx : ServerContext ρ σ) (v : Server ρ σ) : Server ρ σ → List Entry → Prop
  | unchanged : Step ctx v v []
  | started (port : UInt16) : v.isRunning = false → v.stopping = false → Step ctx v
      ({ v with port := some port, listening := true, clients := [], deeds := [] }.emit (.started ctx.name))
      [.started]
  | halted : v.isRunning = true → Step ctx v { v with port := none, stopping := true } [.halted]
  /-- A server that does not run is told to stop. -/
  | unmoved : v.isRunning = false → Step ctx v v [.halted]
  | closed : v.stopping = true → Step ctx v ({ v with listening := false }.settle ctx) []
  | accepted (ip : IpAddress) (session : σ) : v.listening = true → Step ctx v
      ({ v with clients := v.clients ++ [({ ip, session } : Client σ)] }.emit .clientConnected)
      [.accepted ip]
  | turned (i : Nat) (c : Connection) (x : Connection × List Deed × (σ × ρ)) (w : Server ρ σ) :
      v.connections[i]? = some c → (c.Idle → Connection.Ends c x) → Turned v i x w →
      Step ctx v (w.settle ctx) []
  | changed (w : Server ρ σ) : w.port = v.port → w.stopping = v.stopping → w.listening = v.listening →
      w.clients.map Client.ip = v.clients.map Client.ip → w.connections = v.connections →
      w.deeds = v.deeds → w.events = v.events → Step ctx v w []

/-- A start fails, and nothing changes, or it succeeds. -/
theorem start_cases (ctx : ServerContext ρ σ) (granted : Option UInt16) (v : Server ρ σ) :
    (∃ e, v.start ctx granted = (.error e, v) ∧
      (v.isRunning = true ∨ v.stopping = true ∨ granted = none)) ∨
    ∃ port, granted = some port ∧ v.isRunning = false ∧ v.stopping = false ∧ v.start ctx granted =
      (.ok port, { v with port := some port, listening := true, clients := [], deeds := [] }.emit
        (.started ctx.name)) := by
  unfold start
  by_cases hbusy : (v.isRunning || v.stopping) = true
  · rw [if_pos hbusy]
    exact .inl ⟨_, rfl, by rw [Bool.or_eq_true] at hbusy; exact or_assoc.1 (.inl hbusy)⟩
  · rw [if_neg hbusy]
    have hfree : v.isRunning = false ∧ v.stopping = false := by simpa using hbusy
    cases granted with
    | none => exact .inl ⟨_, rfl, .inr (.inr rfl)⟩
    | some port => exact .inr ⟨port, rfl, hfree.1, hfree.2, rfl⟩

theorem step_turnAt {f : IpAddress → Connection → σ × ρ → Connection × List Deed × (σ × ρ)}
    (hf : ∀ ip c s, c.Idle → Connection.Ends c (f ip c s)) (i : Nat) :
    Step ctx v (v.turnAt ctx f i).2 [] := by
  rcases turnAt_cases ctx f i v with ⟨-, hsame⟩ | ⟨c, w, hc, hw, hsettle⟩
  · rw [hsame]
    exact .unchanged
  · rw [hsettle]
    exact .turned i c.connection _ w (getElem?_connections hc) (hf c.ip c.connection _) hw

/-- Between the turns of clients only sessions change. -/
theorem map_between {α : Type} (f : Client σ → α) (hf : ∀ c session, f { c with session } = f c)
    (sessions : Nat → σ → σ) (shared : ρ → ρ) :
    (v.take ctx (.between sessions shared)).clients.map f = v.clients.map f := by
  refine List.ext_getElem? fun i => ?_
  simp [take, List.getElem?_mapIdx, Function.comp_def, hf]

/-- There is nothing else that can happen. -/
theorem step_take (ctx : ServerContext ρ σ) (v : Server ρ σ) (x : Happening ρ σ) :
    Step ctx v (v.take ctx x) (entries ctx v x) := by
  cases x with
  | start granted =>
    rcases start_cases ctx granted v with ⟨e, hstart, -⟩ | ⟨port, -, hrunning, hstopping, hstart⟩
    · rw [take, entries, hstart]
      exact .unchanged
    · rw [take, entries, hstart]
      exact .started port hrunning hstopping
  | halt =>
    show Step ctx v v.halt [.halted]
    unfold halt
    split
    · next hrunning => exact .halted hrunning
    · next hrunning => exact .unmoved (by simpa using hrunning)
  | close =>
    show Step ctx v (v.close ctx) []
    unfold close
    split
    · next hstopping => exact .closed hstopping
    · exact .unchanged
  | accept ip session =>
    show Step ctx v (v.accept ip session) (if v.listening then [.accepted ip] else [])
    unfold accept
    by_cases hlistening : v.listening = true
    · rw [if_pos hlistening, if_pos hlistening]
      exact .accepted ip session hlistening
    · rw [if_neg hlistening, if_neg hlistening]
      exact .unchanged
  | client i event => exact step_turnAt (ends_served ctx event) i
  | answer i result =>
    exact step_turnAt (fun ip _ s hc =>
      Connection.ends_resume ctx.connection ip ctx.handler hc result s) i
  | between sessions shared =>
    exact .changed _ rfl rfl rfl (map_between Client.ip (fun _ _ => rfl) sessions shared)
      (map_between Client.connection (fun _ _ => rfl) sessions shared) rfl rfl

end Server
end Raop
