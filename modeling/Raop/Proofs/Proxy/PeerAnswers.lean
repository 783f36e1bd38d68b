/-
# What the peers have answered

What happens on the connection to a peer is kept in a log: the sequence number
of each response that arrives, and the end of the connection. The cell of a
peer says what its log comes to: its number is that of the last response, or
zero when there is none.

Key definitions: `Cell.of`, `Peer.changes`, `Peer.SamePlace`, `Peer.Same`, `Peer.OnlyChannels`,
`heardBy`, `Listens`.
Key theorems: `Cell.answered_of_seen`, `Peer.cell_read`, `Peer.same_of_setup`, `Listens.modify`,
`Listens.place`.
-/
import Raop.Proofs.Message.Headers
import Raop.Proofs.Proxy.PeerSetup

namespace Raop

/-! ### Cells -/

/-- The cell of a connection on which this happened. -/
def Cell.of (log : List CellChange) : Cell := log.foldl Cell.after {}

theorem Cell.of_append (log more : List CellChange) :
    Cell.of (log ++ more) = more.foldl Cell.after (Cell.of log) := List.foldl_append

/-- A connection that is closed was lost. -/
theorem Cell.closed_of_not_isOpen {log : List CellChange} (h : (Cell.of log).isOpen = false) :
    .closed ∈ log := by
  induction log using List.reverseRecOn with
  | nil => cases h
  | append_singleton log change ih =>
    rw [of_append] at h
    cases change with
    | closed => simp
    | answered cseq =>
      refine List.mem_append_left _ (ih ?_)
      cases hopen : (Cell.of log).isOpen with
      | false => rfl
      | true => simp [after, hopen] at h

/-- **What the number in a cell says**: there was a response of this number, or the connection was lost,
or the number is zero and there was no response at all. -/
theorem Cell.answered_of_seen {log : List CellChange} {n : UInt32} (h : (Cell.of log).seen = n) :
    .answered n ∈ log ∨ .closed ∈ log ∨ n = 0 ∧ ∀ m, .answered m ∉ log := by
  induction log using List.reverseRecOn with
  | nil => exact Or.inr (Or.inr ⟨h.symm, by simp⟩)
  | append_singleton log change ih =>
    rw [of_append] at h
    cases change with
    | closed => simp
    | answered cseq =>
      cases hopen : (Cell.of log).isOpen with
      | false => exact Or.inr (Or.inl (List.mem_append_left _ (closed_of_not_isOpen hopen)))
      | true =>
        have hseen : cseq = n := by simpa [after, hopen] using h
        simp [hseen]

/-! ### Peers -/

namespace Peer

variable {binder : Binder} {p q : Peer} {request : Request}

/-- What octets on the connection come to: the responses that they complete, and its end if they are no
response. -/
def changes (data : Bytes) (p : Peer) : List CellChange :=
  if !p.cell.isOpen then []
  else
    match p.reader.feed data with
    | .error _ => [.closed]
    | .ok reader =>
      (reader.drain.1.filterMap fun response => response.headers.cseq?.map .answered) ++
        if reader.drain.2.1.isSome then [.closed] else []

/-- A peer is at the same position, and its channels have the same ports. -/
structure SamePlace (p q : Peer) : Prop where
  index : q.index = p.index
  ports : q.ports = p.ports

theorem SamePlace.refl (p : Peer) : p.SamePlace p := ⟨rfl, rfl⟩

theorem SamePlace.trans {r : Peer} (h : p.SamePlace q) (h' : q.SamePlace r) : p.SamePlace r :=
  ⟨h'.index.trans h.index, h'.ports.trans h.ports⟩

/-- The connection of a peer is as it was. -/
structure Same (p q : Peer) : Prop extends p.SamePlace q where
  cell : q.cell = p.cell
  alive : q.alive = p.alive

theorem Same.refl (p : Peer) : p.Same p := ⟨.refl p, rfl, rfl⟩

/-- Only the channels are others, and which of them are in use. -/
def OnlyChannels (p q : Peer) : Prop := ∃ channels handles, q = { p with channels, handles }

theorem OnlyChannels.refl (p : Peer) : p.OnlyChannels p := ⟨_, _, rfl⟩

theorem OnlyChannels.trans {r : Peer} (h : p.OnlyChannels q) (h' : q.OnlyChannels r) :
    p.OnlyChannels r := by
  obtain ⟨_, _, rfl⟩ := h
  obtain ⟨channels, handles, rfl⟩ := h'
  exact ⟨channels, handles, rfl⟩

theorem OnlyChannels.same (h : p.OnlyChannels q) : p.Same q := by
  obtain ⟨_, _, rfl⟩ := h
  exact ⟨⟨rfl, rfl⟩, rfl, rfl⟩

theorem onlyChannels_of_point {t : Transport} {key : String} {role : Role}
    (h : p.point t key role = some q) : p.OnlyChannels q := by
  unfold point at h
  split at h
  · cases h
  · exact Option.some.inj h ▸ .refl p
  · split at h
    · exact Option.some.inj h ▸ .refl p
    · split at h
      · cases h
      · exact Option.some.inj h ▸ ⟨_, _, rfl⟩

theorem onlyChannels_wire (binder : Binder) (t : Transport) (p : Peer) :
    p.OnlyChannels (p.wire binder t) := by
  unfold wire
  split
  · exact .refl p
  · next q hq =>
    refine (onlyChannels_of_point hq).trans ?_
    split
    · exact .refl q
    · next r hr =>
      refine (onlyChannels_of_point hr).trans ?_
      split
      · unfold openAudio
        simp only
        split <;> exact ⟨_, _, rfl⟩
      · exact .refl r

theorem onlyChannels_openChannels (binder : Binder) (p : Peer) :
    p.OnlyChannels (p.openChannels binder).2 := by
  unfold openChannels
  simp only
  split
  · exact ⟨_, _, rfl⟩
  · split <;> exact ⟨_, _, rfl⟩

/-- What a response says of ports is nothing to the connection; its number is noted, if it has one. -/
theorem onlyChannels_respond (binder : Binder) (p : Peer) (response : Response) :
    ∃ q, p.OnlyChannels q ∧ p.respond binder response =
      response.headers.cseq?.elim q fun cseq => { q with cell := q.cell.after (.answered cseq) } := by
  unfold respond
  cases response.headers.cseq? with
  | none =>
    simp only [Option.elim_none]
    split
    · exact ⟨_, onlyChannels_wire binder _ p, rfl⟩
    · exact ⟨p, .refl p, rfl⟩
  | some cseq =>
    simp only [Option.elim_some]
    split
    · exact ⟨_, onlyChannels_wire binder _ p, rfl⟩
    · exact ⟨p, .refl p, rfl⟩

/-- A response leaves its number in the cell, if it has one. -/
theorem respond_eq (binder : Binder) (p : Peer) (response : Response) :
    p.SamePlace (p.respond binder response) ∧ (p.respond binder response).alive = p.alive ∧
      (p.respond binder response).cell =
        (response.headers.cseq?.map CellChange.answered).toList.foldl Cell.after p.cell := by
  obtain ⟨q, hchannels, hq⟩ := onlyChannels_respond binder p response
  obtain ⟨⟨hindex, hports⟩, hcell, halive⟩ := hchannels.same
  rw [hq]
  cases response.headers.cseq? with
  | none => exact ⟨⟨hindex, hports⟩, halive, hcell⟩
  | some cseq => exact ⟨⟨hindex, hports⟩, halive, congrArg (Cell.after · (.answered cseq)) hcell⟩

theorem respond_all (binder : Binder) : ∀ (responses : List Response) (p : Peer),
    p.SamePlace (responses.foldl (respond binder) p) ∧
      (responses.foldl (respond binder) p).alive = p.alive ∧
      (responses.foldl (respond binder) p).cell =
        (responses.filterMap fun response => response.headers.cseq?.map CellChange.answered).foldl
          Cell.after p.cell
  | [], p => ⟨.refl p, rfl, rfl⟩
  | response :: responses, p => by
    obtain ⟨hplace, halive, hcell⟩ := respond_eq binder p response
    obtain ⟨hplace', halive', hcell'⟩ := respond_all binder responses (p.respond binder response)
    refine ⟨hplace.trans hplace', halive'.trans halive, ?_⟩
    rw [List.foldl_cons, hcell', hcell, List.filterMap_cons]
    cases response.headers.cseq? <;> rfl

theorem samePlace_read (binder : Binder) (data : Bytes) (p : Peer) :
    p.SamePlace (p.read binder data) := by
  unfold read
  split
  · exact .refl p
  · split
    · exact ⟨rfl, rfl⟩
    · next reader _ =>
      obtain ⟨⟨hindex, hports⟩, -⟩ := respond_all binder reader.drain.1 { p with reader := reader.drain.2.2 }
      simp only
      split <;> exact ⟨hindex, hports⟩

theorem alive_of_read {data : Bytes} (h : (p.read binder data).alive = true) : p.alive = true := by
  unfold read at h
  split at h
  · exact h
  · split at h
    · cases h
    · simp only at h
      split at h
      · cases h
      · rwa [(respond_all binder _ _).2.1] at h

/-- **What is read of a peer is what happens to its cell.** -/
theorem cell_read (binder : Binder) (data : Bytes) (p : Peer) :
    (p.read binder data).cell = (p.changes data).foldl Cell.after p.cell := by
  unfold read changes
  split
  · rfl
  · cases p.reader.feed data with
    | error e => rfl
    | ok reader =>
      simp only
      split
      · rw [List.foldl_append, ← (respond_all binder _ { p with reader := reader.drain.2.2 }).2.2]
        rfl
      · rw [List.append_nil]
        exact (respond_all binder _ _).2.2

/-- A request is written to a peer, and nothing else happens; or the peer is not usable any more. -/
theorem send_cases (request : Request) (p : Peer) :
    p.send request = (.ok request, p) ∨
      ∃ e, p.send request = (.error e, { p with alive := false }) := by
  unfold send
  split
  · exact Or.inr ⟨_, rfl⟩
  · exact Or.inl rfl

/-- A SETUP is written with a Transport of the peer's own. -/
theorem same_of_setup {out : Request} (h : p.setup binder request = (.ok out, q)) :
    p.Same q ∧ ∃ value, out = request.withHeader "Transport" value := by
  unfold setup at h
  split at h
  · cases h
  · split at h
    · cases h
    · split at h
      · cases h
      · next control timing r hopen =>
        have hchannels := onlyChannels_openChannels binder p
        rw [hopen] at hchannels
        rcases send_cases (request.withHeader "Transport" (facing _ control.port timing.port).render) r
          with hsend | ⟨e, hsend⟩
        · rw [hsend] at h
          obtain ⟨rfl, rfl⟩ : _ = out ∧ r = q := by simpa using h
          exact ⟨hchannels.same, _, rfl⟩
        · rw [hsend] at h
          cases h

theorem samePlace_send (request : Request) (p : Peer) : p.SamePlace (p.send request).2 := by
  unfold send
  split <;> exact ⟨rfl, rfl⟩

theorem samePlace_setup (binder : Binder) (request : Request) (p : Peer) :
    p.SamePlace (p.setup binder request).2 := by
  unfold setup
  split
  · exact .refl p
  · split
    · exact .refl p
    · have hchannels := onlyChannels_openChannels binder p
      split
      · next hopen =>
        rw [hopen] at hchannels
        exact hchannels.same.toSamePlace
      · next hopen =>
        rw [hopen] at hchannels
        exact hchannels.same.toSamePlace.trans (samePlace_send _ _)

end Peer

/-- What happened on the connections: the log of the one to the first of the peers at a position goes
on. -/
def heardBy (peers : List Peer) (index : Nat) (changes : Peer → List CellChange)
    (log : Nat → List CellChange) : Nat → List CellChange :=
  match peers.find? fun p => p.index == index with
  | none => log
  | some p => Function.update log index (log index ++ changes p)

theorem heardBy_self {peers : List Peer} {p : Peer} {changes : Peer → List CellChange}
    {log : Nat → List CellChange} {index : Nat}
    (h : peers.find? (fun p => p.index == index) = some p) :
    heardBy peers index changes log index = log index ++ changes p := by
  simp [heardBy, h]

theorem heardBy_of_ne {peers : List Peer} {changes : Peer → List CellChange}
    {log : Nat → List CellChange} {index other : Nat} (h : other ≠ index) :
    heardBy peers index changes log other = log other := by
  unfold heardBy
  cases peers.find? fun p => p.index == index with
  | none => rfl
  | some p => exact Function.update_of_ne h _ _

/-- A log only grows while the connection is the same. -/
theorem heardBy_grows (peers : List Peer) (index : Nat) (changes : Peer → List CellChange)
    (log : Nat → List CellChange) (other : Nat) :
    ∃ more, heardBy peers index changes log other = log other ++ more := by
  by_cases h : other = index
  · subst h
    cases hfind : peers.find? fun p => p.index == other with
    | none => exact ⟨[], by simp [heardBy, hfind]⟩
    | some p => exact ⟨changes p, heardBy_self hfind⟩
  · exact ⟨[], by rw [heardBy_of_ne h, List.append_nil]⟩

/-- Where nothing happens the logs are as they were. -/
theorem heardBy_nil (peers : List Peer) (index : Nat) (log : Nat → List CellChange) :
    heardBy peers index (fun _ => []) log = log := by
  unfold heardBy
  cases peers.find? fun p => p.index == index with
  | none => rfl
  | some p => simp

/-- What happens to a peer leaves it at its position. -/
theorem map_index_modify {f : Peer → Peer} (hindex : ∀ p, (f p).index = p.index) (index : Nat)
    (peers : List Peer) : (peers.map fun p => if p.index = index then f p else p).map (·.index) =
      peers.map (·.index) := by
  rw [List.map_map]
  refine List.map_congr_left fun p _ => ?_
  simp only [Function.comp_apply]
  split
  · exact hindex p
  · rfl

/-- The peers are at different positions, and the cell of each usable one says what its log comes to. -/
structure Listens (log : Nat → List CellChange) (peers : List Peer) : Prop where
  nodup : (peers.map (·.index)).Nodup
  cell_eq : ∀ p ∈ peers, p.alive = true → p.cell = Cell.of (log p.index)

namespace Listens

variable {log : Nat → List CellChange} {peers : List Peer} {index : Nat} {p : Peer}

theorem nil (log : Nat → List CellChange) : Listens log [] := ⟨List.nodup_nil, by simp⟩

theorem sublist {peers' : List Peer} (h : Listens log peers) (hsub : peers'.Sublist peers) :
    Listens log peers' :=
  ⟨h.nodup.sublist (hsub.map _), fun p hp => h.cell_eq p (hsub.subset hp)⟩

/-- Peers may become unusable. -/
theorem map (h : Listens log peers) (f : Peer → Peer) (hindex : ∀ p, (f p).index = p.index)
    (hf : ∀ p, (f p).alive = true → p.alive = true ∧ (f p).cell = p.cell) :
    Listens log (peers.map f) where
  nodup := by
    rw [List.map_map]
    exact (List.map_congr_left fun p _ => hindex p) ▸ h.nodup
  cell_eq q hq halive := by
    obtain ⟨p, hp, rfl⟩ := List.mem_map.1 hq
    obtain ⟨halive', hcell⟩ := hf p halive
    rw [hcell, hindex, h.cell_eq p hp halive']

/-- What happens on a connection happens to the cell of its peer. -/
theorem modify (h : Listens log peers) {f : Peer → Peer} {changes : Peer → List CellChange}
    (hindex : ∀ p, (f p).index = p.index) (halive : ∀ p, (f p).alive = true → p.alive = true)
    (hcell : ∀ p, (f p).cell = (changes p).foldl Cell.after p.cell) (index : Nat) :
    Listens (heardBy peers index changes log)
      (peers.map fun p => if p.index = index then f p else p) where
  nodup := by
    rw [map_index_modify hindex]
    exact h.nodup
  cell_eq q hq ha := by
    obtain ⟨p, hp, rfl⟩ := List.mem_map.1 hq
    by_cases hat : p.index = index
    · subst hat
      simp only [if_true] at ha ⊢
      rw [hcell, hindex, heardBy_self (find?_of_nodup h.nodup hp fun q => beq_iff_eq), Cell.of_append,
        h.cell_eq p hp (halive p ha)]
    · simp only [if_neg hat] at ha ⊢
      rw [h.cell_eq p hp ha, heardBy_of_ne hat]

/-- A log that is none of theirs may be forgotten. -/
theorem forget (h : Listens log peers) (hnew : index ∉ peers.map (·.index)) :
    Listens (Function.update log index []) peers where
  nodup := h.nodup
  cell_eq p hp halive := by
    have hne : p.index ≠ index := fun heq => hnew (heq ▸ List.mem_map_of_mem hp)
    rw [Function.update_of_ne hne, h.cell_eq p hp halive]

theorem place_perm (p : Peer) : ∀ peers : List Peer, (Proxy.place p peers).Perm (p :: peers)
  | [] => .refl _
  | q :: qs => by
    unfold Proxy.place
    split
    · exact ((place_perm p qs).cons q).trans (.swap p q qs)
    · exact .refl _

/-- A peer that is new starts a log. -/
theorem place (h : Listens log peers) (hnew : p.index ∉ peers.map (·.index)) (hcell : p.cell = {}) :
    Listens (Function.update log p.index []) (Proxy.place p peers) where
  nodup := by
    rw [((place_perm p peers).map _).nodup_iff, List.map_cons, List.nodup_cons]
    exact ⟨hnew, h.nodup⟩
  cell_eq q hq halive := by
    rcases List.mem_cons.1 ((place_perm p peers).mem_iff.1 hq) with rfl | hq
    · rw [Function.update_self, hcell]
      rfl
    · exact (h.forget hnew).cell_eq q hq halive

end Listens
end Raop
