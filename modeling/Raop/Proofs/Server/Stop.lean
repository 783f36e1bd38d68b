/-
# A stop that is not disturbed

Where nothing happens between the halves of a stop, the server is told to stop,
its listener is closed, and each client is told to end (`stop_eq_run`). A client
that awaits no answer ends at once; so the stop is complete unless a client
still awaits one (`exists_waiting_of_stop`).

Key definitions: `Server.ToldUpTo`.
Key theorems: `Server.stop_eq_run`, `Server.toldUpTo_foldl`, `Server.exists_waiting_of_stop`.
-/
import Raop.Proofs.Server.Steps

namespace Raop
namespace Server

variable {ρ σ : Type} {ctx : ServerContext ρ σ} {v w : Server ρ σ}

/-- A stop is what happens one by one. -/
theorem stop_eq_run (hrunning : v.isRunning = true) : v.stop ctx = v.run ctx
    (.halt :: .close :: (List.range v.clients.length).map fun i => .client i .stop) := by
  rw [stop, if_pos hrunning, run, List.foldl_cons, List.foldl_cons, List.foldl_map]
  rfl

/-- A server that accepts no more clients and has not stopped has a client that has not ended. -/
theorem open_of_settle (hlistening : w.listening = false) (hstopping : (w.settle ctx).stopping = true) :
    ∃ c ∈ w.connections, c.ending = none := by
  have hstops : w.stopping = true := stopping_of_settle hstopping
  unfold settle at hstopping
  split at hstopping
  · cases hstopping
  · next hopen =>
    simp only [hstops, hlistening, Bool.not_false, Bool.and_self, Bool.true_and, List.all_eq_true,
      Classical.not_forall] at hopen
    obtain ⟨c, hc, hending⟩ := hopen
    exact ⟨c.connection, List.mem_map_of_mem hc, by simpa using hending⟩

/-- Of `n` clients those up to a position were told to end, and have ended or await an answer. -/
structure ToldUpTo (n k : Nat) (v : Server ρ σ) : Prop where
  length : v.connections.length = n
  listening : v.listening = false
  stopping : v.stopping = true → ∃ c ∈ v.connections, c.ending = none
  rests : ∀ i < k, ∀ c, v.connections[i]? = some c → c.ending.isSome = true ∨ c.waiting.isSome = true

theorem ToldUpTo.turned {n k : Nat} (h : ToldUpTo n k v) {x : Connection × List Deed × (σ × ρ)}
    (hx : x.1.ending.isSome = true ∨ x.1.waiting.isSome = true) (hw : Turned v k x w) :
    ToldUpTo n (k + 1) (w.settle ctx) where
  length := by rw [connections_settle, hw.connections, List.length_set, h.length]
  listening := by rw [listening_settle, hw.listening, h.listening]
  stopping hstopping := by
    rw [connections_settle]
    exact open_of_settle (hw.listening.trans h.listening) hstopping
  rests i hi c hc := by
    rw [connections_settle, hw.connections] at hc
    by_cases hik : k = i
    · subst hik
      have hlt : k < v.connections.length := by
        have hlt := (List.getElem?_eq_some_iff.1 hc).1
        rwa [List.length_set] at hlt
      rw [List.getElem?_set_self hlt] at hc
      cases hc
      exact hx
    · rw [List.getElem?_set_ne hik] at hc
      exact h.rests i (by omega) c hc

variable (ctx) in
theorem ToldUpTo.succ {n k : Nat} (h : ToldUpTo n k v) :
    ToldUpTo n (k + 1) (v.serve ctx k Connection.stop).2 := by
  rcases turnAt_cases ctx (fun ip c s => c.stop.run ctx.connection ip ctx.handler s) k v with
    ⟨hnone, hsame⟩ | ⟨client, w, -, hw, hsettle⟩
  · show ToldUpTo n (k + 1) (v.turnAt ctx _ k).2
    rw [hsame]
    refine ⟨h.length, h.listening, h.stopping, fun i hi c hc => ?_⟩
    rcases Nat.lt_succ_iff_lt_or_eq.1 hi with hi | rfl
    · exact h.rests i hi c hc
    · simp [connections, hnone] at hc
  · show ToldUpTo n (k + 1) (v.turnAt ctx _ k).2
    rw [hsettle]
    refine h.turned ?_ hw
    exact Connection.run_stopping ctx.connection client.ip ctx.handler (c := client.connection.stop) rfl _

variable (ctx) in
theorem toldUpTo_foldl {n : Nat} (h : ToldUpTo n 0 v) (k : Nat) :
    ToldUpTo n k ((List.range k).foldl (fun v i => (v.serve ctx i Connection.stop).2) v) := by
  induction k with
  | zero => exact h
  | succ k ih =>
    rw [List.range_succ, List.foldl_append]
    exact ih.succ ctx

/-- **A stop is complete as soon as no answer is awaited.** -/
theorem exists_waiting_of_stop (hrunning : v.isRunning = true)
    (hstopping : (v.stop ctx).stopping = true) :
    ∃ c ∈ (v.stop ctx).connections, c.waiting.isSome = true := by
  have hclosed : v.halt.close ctx =
      ({ v with port := none, stopping := true, listening := false } : Server ρ σ).settle ctx := by
    rw [halt, if_pos hrunning]
    rfl
  have hzero : ToldUpTo v.clients.length 0 (v.halt.close ctx) := by
    rw [hclosed]
    refine ⟨?_, by rw [listening_settle], fun hstops => ?_, fun i hi => absurd hi (Nat.not_lt_zero i)⟩
    · rw [connections_settle]
      exact List.length_map Client.connection
    · rw [connections_settle]
      exact open_of_settle rfl hstops
  have htold := toldUpTo_foldl ctx hzero v.clients.length
  rw [stop, if_pos hrunning] at hstopping ⊢
  obtain ⟨c, hc, hopen⟩ := htold.stopping hstopping
  obtain ⟨i, hi, hget⟩ := List.mem_iff_getElem.1 hc
  have hrests : c.ending.isSome = true ∨ c.waiting.isSome = true :=
    htold.rests i (by rwa [← htold.length]) c (List.getElem?_eq_some_iff.2 ⟨hi, hget⟩)
  rcases hrests with hends | hwaits
  · simp [hopen] at hends
  · exact ⟨c, hc, hwaits⟩

end Server
end Raop
