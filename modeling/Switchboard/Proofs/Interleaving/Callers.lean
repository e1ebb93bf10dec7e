import Switchboard.Proofs.Interleaving.Classes
import Switchboard.Simulation.Operation
import Switchboard.Simulation.Pump

/-!
# Callers on many connections

A caller names a connection, or has a pool or the manager pick one, and then sends its request
there.  Whatever the servers and the streams do, its result is of one of three kinds, so that
whoever decides on another attempt sees faults of the network and errors of the server, and nothing
else.

## Main definitions

- `Interleaving.Picks` — what picking a connection may come to
- `Interleaving.Callers` — connections with their streams, and callers
- `Interleaving.Callers.Returns` — the result of a call

## Main statements

- `Interleaving.picks_pick` — connections are picked in one of the ways of `Interleaving.Picks`
- `Interleaving.Callers.results_classified` — how every call ends
-/

namespace Switchboard.Interleaving

open Wire

/-! ### Picking a connection -/

/-- What picking a connection for a call may come to, in whatever state pools and manager are. -/
inductive Picks : Simulation.Route → Except Fault ℕ → Prop
  | connection (c : ℕ) : Picks (.connection c) (.ok c)
  | pool (p : ℕ) (pool : Pool) (stage : ℕ → Stage) (shard draw : ℕ) :
    Picks (.pool p) (pool.acquire stage shard draw).1
  | nowhere {manager : Manager} {hasReady : ℕ → Bool} {shard draw : ℕ} {fault : Fault}
    (selected : (manager.select hasReady shard draw).1 = .error fault) :
    Picks .cluster (.error fault)
  | cluster {manager : Manager} {hasReady : ℕ → Bool} {shard draw p : ℕ} (pool : Pool)
    (stage : ℕ → Stage) (selected : (manager.select hasReady shard draw).1 = .ok p) :
    Picks .cluster (pool.acquire stage shard draw).1

theorem isNetwork_of_acquire {pool : Pool} {stage : ℕ → Stage} {shard draw : ℕ} {fault : Fault}
    (h : (pool.acquire stage shard draw).1 = .error fault) : fault.isNetwork = true := by
  rcases pool.acquire_cases stage shard draw with ⟨c, -, hpicked⟩ | ⟨-, hnone⟩
  · cases h.symm.trans hpicked
  · cases h.symm.trans hnone
    rfl

theorem isNetwork_of_select {manager : Manager} {hasReady : ℕ → Bool} {shard draw : ℕ}
    {fault : Fault} (h : (manager.select hasReady shard draw).1 = .error fault) :
    fault.isNetwork = true := by
  unfold Manager.select at h
  dsimp only at h
  split at h <;> cases h
  rfl

theorem Picks.isNetwork {route : Simulation.Route} {fault : Fault}
    (h : Picks route (.error fault)) : fault.isNetwork = true := by
  generalize hr : (Except.error fault : Except Fault ℕ) = r at h
  cases h with
  | connection => cases hr
  | pool => exact isNetwork_of_acquire hr.symm
  | nowhere selected =>
    cases hr
    exact isNetwork_of_select selected
  | cluster => exact isNetwork_of_acquire hr.symm

/-- The connections are picked in one of these ways. -/
theorem picks_pick (route : Simulation.Route) (w : Simulation.World)
    (hcluster : route = .cluster → w.cluster.isSome) :
    Picks route (((Simulation.pick route).run w).1.map Prod.fst) := by
  have hfst : ∀ (picked : Except Fault ℕ) (pool : Option ℕ),
      (picked.map fun c => (c, pool)).map Prod.fst = picked := by
    intro picked pool
    cases picked <;> rfl
  cases route with
  | connection c => exact .connection c
  | pool p =>
    have hpool : ((Simulation.pick (.pool p)).run w).1 = ((w.depots.getD p default).core.acquire
        w.stage Simulation.shard Simulation.draw).1.map fun c => (c, none) := rfl
    rw [hpool, hfst]
    exact .pool p ..
  | cluster =>
    obtain ⟨cluster, hsome⟩ := Option.isSome_iff_exists.mp (hcluster rfl)
    have hselect : (Simulation.selectPool.run w).1 =
        (cluster.core.select w.hasReady Simulation.shard Simulation.draw).1 := by
      unfold Simulation.selectPool
      rw [Simulation.run_get_bind, hsome]
      rfl
    unfold Simulation.pick
    rw [Simulation.run_bind, hselect]
    generalize (Simulation.selectPool.run w).2 = w'
    cases hpicked : (cluster.core.select w.hasReady Simulation.shard Simulation.draw).1 with
    | error fault => exact .nowhere hpicked
    | ok p =>
      have hpool : Picks .cluster (((((w'.depots.getD p default).core.acquire w'.stage
          Simulation.shard Simulation.draw).1.map fun c => (c, some p))).map Prod.fst) := by
        rw [hfst]
        exact .cluster _ _ hpicked
      exact hpool

/-! ### Showing a response -/

/-- However it is shown, an outcome stays of its kind: the body that a reader has accepted is a
value. -/
theorem Lawful.read {l : Channel} {sync : UInt64} {outcome : Outcome}
    (h : Lawful l.messages sync outcome) (reading : Simulation.Reading) :
    (∃ payload, reading.read outcome = .ok payload) ∨
    (∃ m code detail, m ∈ l.messages ∧ m.header.sync = sync ∧ m.header.code = .error code ∧
      reading.read outcome = .error (.server code detail)) ∨
    ∃ fault, reading.read outcome = .error fault ∧ fault.isNetwork = true := by
  cases h with
  | @body m mem =>
    obtain ⟨b, n, hdecode⟩ := Frame.exists_decode_of_mem (Frame.drains_drain _) mem
    obtain ⟨v, hv⟩ := Frame.exists_body_of_decode hdecode
    obtain ⟨data, hdata⟩ := Body.exists_responseData hv
    left
    cases reading with
    | presence | octets => exact ⟨_, rfl⟩
    | data => exact ⟨.value data, congrArg (Except.map Simulation.Payload.value) hdata⟩
  | @answered m code detail mem id isError =>
    refine .inr (.inl ⟨m, code, detail, mem, id, isError, ?_⟩)
    cases reading <;> rfl
  | @network fault network =>
    refine .inr (.inr ⟨fault, ?_, network⟩)
    cases reading <;> rfl

/-! ### Callers -/

/-- How far a caller has come. -/
inductive Caller where
  | idle
  /-- no connection could be picked -/
  | unplaced (fault : Fault)
  /-- the caller is the sender with its own number on the connection -/
  | sending (c : ℕ)

/-- Connections, each with its streams, and callers. -/
structure Callers where
  channels : ℕ → Channel
  callers : ℕ → Caller

namespace Callers

/-- A caller has picked a connection, or has not been able to. -/
def place (s : Callers) (j : ℕ) (x : Caller) : Callers :=
  { s with callers := Function.update s.callers j x }

/-- A connection has gone on. -/
def goOn (s : Callers) (c : ℕ) (l : Channel) : Callers :=
  { s with channels := Function.update s.channels c l }

/-- A caller picks a connection, or a connection goes on, of whose senders only those move who have
picked it. -/
inductive Step (s : Callers) : Callers → Prop
  | placed {j route c} (idle : s.callers j = .idle) (picks : Picks route (.ok c)) :
    Step s (s.place j (.sending c))
  | unplaced {j route fault} (idle : s.callers j = .idle) (picks : Picks route (.error fault)) :
    Step s (s.place j (.unplaced fault))
  | goes {c l} (step : Channel.Step (s.channels c) l)
    (own : ∀ k, s.callers k ≠ .sending c → l.state.senders k = (s.channels c).state.senders k) :
    Step s (s.goOn c l)

/-- Such steps in any order. -/
inductive Run (start : Callers) : Callers → Prop
  | nil : Run start start
  | snoc {s s'} (init : Run start s) (last : Step s s') : Run start s'

/-- The call of a caller has a result. -/
inductive Returns (s : Callers) (j : ℕ) : Outcome → Prop
  | unplaced {fault} (caller : s.callers j = .unplaced fault) : Returns s j (.error fault)
  | refused {c fault} (caller : s.callers j = .sending c)
    (sender : (s.channels c).state.senders j = .refused fault) : Returns s j (.error fault)
  | sent {c call outcome} (caller : s.callers j = .sending c)
    (sender : ((s.channels c).state.senders j).Returns call outcome) : Returns s j outcome

/-- Connections that have just come into service, and callers that have done nothing. -/
def start (address : ℕ → Address) (greeting : ℕ → Greeting) (syncs : ℕ → SyncIds)
    (left : ℕ → Octets) : Callers :=
  ⟨fun c => .start (address c) (greeting c) (syncs c) (left c), fun _ => .idle⟩

variable {address : ℕ → Address} {greeting : ℕ → Greeting} {syncs : ℕ → SyncIds}
  {left : ℕ → Octets} {s : Callers}

theorem Run.channels (hr : Run (start address greeting syncs left) s) (c : ℕ) :
    Channel.Run (.start (address c) (greeting c) (syncs c) (left c)) (s.channels c) := by
  induction hr with
  | nil => exact .nil
  | @snoc s s' _ last ih =>
    cases last with
    | placed | unplaced => exact ih
    | @goes c' l step =>
      show Channel.Run _ (Function.update s.channels c' l c)
      by_cases hc : c = c'
      · subst hc
        rw [Function.update_self]
        exact ih.snoc step
      · rwa [Function.update_of_ne hc]

theorem Run.isNetwork_of_unplaced (hr : Run (start address greeting syncs left) s) {j : ℕ}
    {fault : Fault} (hcaller : s.callers j = .unplaced fault) : fault.isNetwork = true := by
  induction hr with
  | nil => cases hcaller
  | @snoc s s' _ last ih =>
    cases last with
    | goes => exact ih hcaller
    | @placed j' route c idle picks =>
      have hcaller : Function.update s.callers j' (.sending c) j = .unplaced fault := hcaller
      by_cases hj : j = j'
      · rw [hj, Function.update_self] at hcaller
        cases hcaller
      · rw [Function.update_of_ne hj] at hcaller
        exact ih hcaller
    | @unplaced j' route fault' idle picks =>
      have hcaller : Function.update s.callers j' (.unplaced fault') j = .unplaced fault := hcaller
      by_cases hj : j = j'
      · rw [hj, Function.update_self] at hcaller
        cases hcaller
        exact picks.isNetwork
      · rw [Function.update_of_ne hj] at hcaller
        exact ih hcaller

/-- Every call ends in one of three ways.  Whatever the servers send and however the streams fail,
through whichever route the call came, its result is a value; or an error of the server, with the
code of a reply that bears the call's id; or a fault of the network.  That is so because reading a
stream fails in one way only, every body that has been read is a value, every cause of failure is
handed to the callers as a fault of the network, and an error of the server is never taken for
one. -/
theorem results_classified (hr : Run (start address greeting syncs left) s) :
    (∀ j outcome, s.Returns j outcome → ∀ reading : Simulation.Reading,
      (∃ payload, reading.read outcome = .ok payload) ∨
      (∃ c call m code detail, s.callers j = .sending c ∧
        ((s.channels c).state.senders j).call? = some call ∧ m ∈ (s.channels c).messages ∧
        m.header.sync = call.sync ∧ m.header.code = .error code ∧
        reading.read outcome = .error (.server code detail)) ∨
      ∃ fault, reading.read outcome = .error fault ∧ fault.isNetwork = true) ∧
    (∀ c buffer w fault, ((Simulation.Reader.drain c buffer).run w).1 = .error fault →
      ∃ detail, fault = .framing detail) ∧
    (∀ b m n, Frame.decode b = .ok (some (m, n)) →
      (∃ v, Body.decode m.body = .ok v) ∧ ∃ v, Body.responseData m.body = .ok v) ∧
    (∀ cause, (Connection.replicate cause).isNetwork = true) ∧
    ∀ code body, (Body.responseFault code body).isNetwork = false := by
  refine ⟨?_, ?_, ?_, Connection.isNetwork_replicate, fun _ _ => rfl⟩
  · intro j outcome hreturns reading
    cases hreturns with
    | @unplaced fault caller =>
      refine .inr (.inr ⟨fault, ?_, hr.isNetwork_of_unplaced caller⟩)
      cases reading <;> rfl
    | @refused c fault caller sender =>
      refine .inr (.inr ⟨fault, ?_, (hr.channels c).resulting.refusals j fault sender⟩)
      cases reading <;> rfl
    | @sent c call outcome caller sender =>
      have hcall : ((s.channels c).state.senders j).call? = some call := by
        rcases sender with hx | hx <;> rw [hx] <;> rfl
      rcases ((hr.channels c).resulting.results j call outcome sender).read reading with
        hvalue | ⟨m, code, detail, mem, id, isError, heq⟩ | hnetwork
      · exact .inl hvalue
      · exact .inr (.inl ⟨c, call, m, code, detail, caller, hcall, mem, id, isError, heq⟩)
      · exact .inr (.inr hnetwork)
  · intro c buffer w fault h
    unfold Simulation.Reader.drain at h
    rw [Simulation.run_bind] at h
    cases hfault : (Frame.drain buffer).fault with
    | none =>
      rw [hfault] at h
      cases h
    | some f =>
      rw [hfault] at h
      cases h
      exact ⟨f.message, rfl⟩
  · intro b m n h
    obtain ⟨v, hv⟩ := Frame.exists_body_of_decode h
    exact ⟨⟨v, hv⟩, Body.exists_responseData hv⟩

/-- One caller finds no connection in its pool; the server answers the other one with an error. -/
theorem results_classified_refused_and_answered :
    ∃ s, Run (start (fun _ => default) (fun _ => default) (fun _ => .start) fun _ => []) s ∧
      (∃ fault, s.callers 1 = .unplaced fault ∧ s.Returns 1 (.error fault) ∧
        fault.isNetwork = true) ∧
      s.Returns 0 (.error (.server 7 "unknown error")) ∧
      ∃ m ∈ (s.channels 3).messages, m.header.sync = 1 ∧ m.header.code = .error 7 := by
  have own : ∀ {s : Callers} {x : Sender}, s.callers 0 = .sending 3 →
      ∀ k, s.callers k ≠ .sending 3 →
        Function.update (s.channels 3).state.senders 0 x k = (s.channels 3).state.senders k := by
    intro s x hs k hk
    refine Function.update_of_ne ?_ ..
    rintro rfl
    exact hk hs
  obtain ⟨f, hf⟩ : ∃ f, Frame.Carries f ⟨⟨1, .error 7, none⟩, []⟩ :=
    ⟨_, Frame.carries_of_encode (h := ⟨1, .error 7, none⟩) rfl (.inl rfl)⟩
  have h₁ := Run.nil.snoc (.unplaced (j := 1) rfl (.pool 0 default (fun _ => .failed) 0 0)
    (s := start (fun _ => default) (fun _ => default) (fun _ => .start) fun _ => []))
  have h₂ := h₁.snoc (.placed (j := 0) rfl (.connection 3))
  have h₃ := h₂.snoc (.goes (c := 3) (.sender (by nofun) (.of_sender (k := 0) rfl
    (.checked rfl : Sender.Step _ _ _ (.check .ping (.ofMillis 5)) _ _))) (own rfl))
  have h₄ := h₃.snoc (.goes (c := 3) (.sender (by nofun) (.of_sender (k := 0) rfl
    (.registered : Sender.Step _ _ _ (.register 5) _ _))) (own rfl))
  have h₅ := h₄.snoc (.goes (c := 3) (.sender (by nofun) (.of_sender (k := 0) rfl
    (.cleared rfl rfl))) (own rfl))
  have h₆ := h₅.snoc (.goes (c := 3) (.sender (by nofun) (.of_sender (k := 0) rfl
    (.queued rfl rfl))) (own rfl))
  have h₇ := h₆.snoc (.goes (c := 3) (.enters rfl rfl (.of_sender (k := 0) rfl
    (.accepted rfl rfl))) (own rfl))
  have h₈ := h₇.snoc (.goes (c := 3) (.arrives f) fun _ _ => rfl)
  have h₉ := h₈.snoc (.goes (c := 3) (.understands hf (.of_reader rfl (.taken rfl))) fun _ _ => rfl)
  have h₁₀ := h₉.snoc (.goes (c := 3) (.delivers (.of_reader rfl .put)) fun _ _ => rfl)
  have h₁₁ := h₁₀.snoc (.goes (c := 3) (.sender (by nofun) (.of_sender (k := 0) rfl
    (.received rfl rfl))) (own rfl))
  obtain ⟨s, h, fault, call, hunplaced, hplaced, hsender, hid⟩ : ∃ s,
      Run (start (fun _ => default) (fun _ => default) (fun _ => .start) fun _ => []) s ∧
      ∃ fault call, s.callers 1 = .unplaced fault ∧ s.callers 0 = .sending 3 ∧
        (s.channels 3).state.senders 0 =
          .leaving call (some (.error (.server 7 "unknown error"))) ∧ call.sync = 1 :=
    ⟨_, h₁₁, _, _, rfl, rfl, rfl, rfl⟩
  obtain ⟨hresults, -⟩ := results_classified h
  refine ⟨s, h, ⟨fault, hunplaced, .unplaced hunplaced, ?_⟩, .sent hplaced (.inl hsender), ?_⟩
  · rcases hresults 1 _ (.unplaced hunplaced) .octets with ⟨_, heq⟩ | ⟨c, _, _, _, _, hcaller, -⟩ |
      ⟨_, heq, hnetwork⟩
    · cases heq
    · rw [hunplaced] at hcaller
      cases hcaller
    · cases heq
      exact hnetwork
  · rcases hresults 0 _ (.sent hplaced (.inl hsender)) .octets with ⟨_, heq⟩ |
      ⟨c, call', m, code, _, hcaller, hcall, hmem, hsync, hcode, heq⟩ | ⟨_, heq, hnetwork⟩
    · cases heq
    · rw [hplaced] at hcaller
      cases hcaller
      rw [hsender] at hcall
      cases hcall
      cases heq
      exact ⟨m, hmem, hsync.trans hid, hcode⟩
    · cases heq
      cases hnetwork

end Callers

end Switchboard.Interleaving
