import Switchboard.Proofs.Interleaving.Dispatches
import Switchboard.Proofs.Pools.Pending

/-!
# Requests that have a connection

A request that is sent on a connection in service is registered there and nowhere else, and keeps
its place until it ends.  However it ends, it is not for want of a connection: nobody who settles
slots ever says so.

## Main definitions

- `Interleaving.Unplaced` — the outcome of a request for which no connection was found
- `Simulation.World.registrations` — how many requests a connection has registered
- `Simulation.Registers` — a request has been registered on one connection

## Main statements

- `Interleaving.Channel.Run.placed` — no slot of a connection ever holds such an outcome
- `Simulation.Sending.poll_polls` — what comes of a request under way that goes on
- `Simulation.Sending.not_unplaced_of_poll` — it does not end for want of a connection
- `Simulation.Sending.start_admits` — a connection in service registers what is sent on it
-/

namespace Switchboard

open Wire

namespace Interleaving

/-! ### Outcomes on offer -/

/-- The outcome of a request for which no connection was found. -/
def Unplaced (outcome : Outcome) : Prop :=
  ∃ detail, outcome = .error (.noAvailableConnection detail)

variable {s s' : State} {a : Action} {slot : ℕ} {outcome : Outcome}

theorem Reason.not_unplaced {h : Holder} {id : UInt64} (hr : Reason s id a h outcome) :
    ¬Unplaced outcome := by
  rintro ⟨detail, rfl⟩
  generalize heq : (Except.error (.noAvailableConnection detail) : Outcome) = outcome at hr
  cases hr with
  | @reply m =>
    unfold Connection.replyOutcome at heq
    split at heq <;> cases heq
  | @sweep j ending =>
    cases ending with
    | failure cause => cases cause <;> cases heq
    | closure => cases heq

/-- No outcome on offer is one of a request for which no connection was found. -/
def State.Placed (s : State) : Prop :=
  ∀ slot outcome, s.Offers slot outcome → ¬Unplaced outcome

theorem placed_start (address : Address) (greeting : Greeting) (syncs : SyncIds) :
    (start address greeting syncs).Placed := by
  rintro slot outcome (hslot | ⟨h, hheld⟩)
  · cases hslot
  · cases h <;> cases hheld

theorem State.Placed.step (h : s.Placed) (hstep : Step s a s') : s'.Placed := by
  intro slot outcome hoffer
  rcases hstep.effect.offers hoffer with hbefore | ⟨_, _, -, -, reason⟩
  · exact h slot outcome hbefore
  · exact reason.not_unplaced

namespace Channel

theorem Step.placed {l l' : Channel} (h : l.state.Placed) (hstep : Step l l') :
    l'.state.Placed := by
  rcases hstep.state with heq | ⟨a, hstep⟩
  · rwa [heq]
  · exact h.step hstep

/-- In every state of every run of a channel nothing else is on offer. -/
theorem Run.placed {address : Address} {greeting : Greeting} {syncs : SyncIds} {left : Octets}
    {l : Channel} (hr : Run (start address greeting syncs left) l) : l.state.Placed := by
  induction hr with
  | nil => exact placed_start address greeting syncs
  | snoc _ last ih => exact last.placed ih

end Channel

end Interleaving

namespace Simulation

open Interleaving

variable {c : ℕ} {w w' w'' : World} {request : Request}

/-! ### Registering -/

/-- How many requests a connection has registered so far. -/
def World.registrations (w : World) (c : ℕ) : ℕ :=
  (w.table c).slots.size

/-- One request has been registered on the connection, and none elsewhere. -/
structure Registers (c : ℕ) (w w' : World) : Prop where
  only : Only c w w'
  once : w'.registrations c = w.registrations c + 1

/-- The connection goes on, but it registers nothing. -/
structure Carries (c : ℕ) (w w' : World) : Prop where
  only : Only c w w'
  shrinks : (w.table c).Shrinks (w'.table c)

theorem Carries.of_untouched (h : Untouched w w') : Carries c w w' := by
  refine ⟨.of_untouched h, ?_⟩
  rw [World.table, World.table, h.connection]
  exact Inflight.shrinks_refl _

theorem Carries.trans (h : Carries c w w') (h' : Carries c w' w'') : Carries c w w'' :=
  ⟨trans_of (Only c) h.only h'.only, h.shrinks.trans h'.shrinks⟩

theorem Registers.carries (h : Registers c w w') (h' : Carries c w' w'') : Registers c w w'' :=
  ⟨trans_of (Only c) h.only h'.only, h'.shrinks.size.trans h.once⟩

theorem Carries.registers (h : Carries c w w') (h' : Registers c w' w'') : Registers c w w'' := by
  refine ⟨trans_of (Only c) h.only h'.only, ?_⟩
  rw [h'.once, World.registrations, h.shrinks.size, World.registrations]

/-- A connection that has changed in the table at most by losing entries. -/
theorem carries_setConnection (hc : c < w.links.size) {core : Connection}
    (h : (w.table c).Shrinks core.inflight) : Carries c w ((setConnection c core).run w).2 := by
  have htable : ((setConnection c core).run w).2.table c = core.inflight :=
    congrArg Connection.inflight (connection_setConnection hc core)
  exact ⟨only_setConnection .., htable ▸ h⟩

namespace Sending

variable {s : Sending}

/-- A request that leaves its connection is not registered again. -/
theorem carries_cancel (hs : s.connection = c) (hc : c < w.links.size) :
    Carries c w (s.cancel.run w).2 := by
  subst hs
  have hreleased : (w.table s.connection).Shrinks
      (release (w.connection s.connection) s.ticket (s.call .ping)).inflight :=
    (Inflight.shrinks_remove ..).trans (Inflight.shrinks_forget ..)
  exact (carries_setConnection hc hreleased).trans
    (.of_untouched (s.untouched_cancel w (s.call .ping) rfl rfl))

/-- What comes of a request that is given the chance to go on.  If it waits, its place in the table
is as it was; if it ends, then for want of a connection only if its slot says so. -/
inductive Polls (s : Sending) (w : World) : Progress Sending Outcome × World → Prop
  | waits {s' events w'} (connection : s'.connection = s.connection) (sync : s'.sync = s.sync)
    (slot : s'.slot = s.slot) (only : Only s.connection w w')
    (table : w'.table s.connection = w.table s.connection) : Polls s w (.wait s' events, w')
  | done {outcome w'} (carries : Carries s.connection w w')
    (placed : Unplaced outcome → (w.table s.connection).slot s.slot = .delivered outcome) :
    Polls s w (.done outcome, w')

theorem not_unplaced_closedFault (core : Connection) :
    ¬Unplaced (.error core.closedFault) := by
  rintro ⟨_, heq⟩
  cases heq

theorem slot_of_settled? {core : Connection} {slot : ℕ} {outcome : Outcome}
    (h : settled? core slot = some outcome) (hunplaced : Unplaced outcome) :
    core.inflight.slot slot = .delivered outcome := by
  unfold settled? at h
  split at h
  · cases h
  · next hslot =>
    cases h
    exact hslot
  all_goals
    cases h
    exact absurd hunplaced (not_unplaced_closedFault core)

theorem slot_of_outcome? {core : Connection} {outcome : Outcome}
    (h : s.outcome? core = some outcome) (hunplaced : Unplaced outcome) :
    core.inflight.slot s.slot = .delivered outcome := by
  unfold outcome? at h
  split at h
  · split at h
    · cases h
      exact absurd hunplaced (not_unplaced_closedFault core)
    · cases h
  · exact slot_of_settled? h hunplaced

theorem slot_of_expire (hunplaced : Unplaced (s.expire.run w).1) :
    (w.table s.connection).slot s.slot = .delivered (s.expire.run w).1 := by
  have hexpire : (s.expire.run w).1 =
      if ((w.connection s.connection).cancel s.sync).1 then
        .error (.requestTimeout s.sync s.timeout.millis)
      else (settled? (w.connection s.connection) s.slot).getD
        (.error (.requestTimeout s.sync s.timeout.millis)) := rfl
  rw [hexpire] at hunplaced ⊢
  split at hunplaced
  · obtain ⟨_, heq⟩ := hunplaced
    cases heq
  · next hremoved =>
    rw [if_neg hremoved]
    cases hsettled : settled? (w.connection s.connection) s.slot with
    | none =>
      rw [hsettled] at hunplaced
      obtain ⟨_, heq⟩ := hunplaced
      cases heq
    | some outcome =>
      rw [hsettled] at hunplaced
      exact slot_of_settled? hsettled hunplaced

theorem await_polls (s : Sending) (hc : s.connection < w.links.size) :
    Polls s w (s.await.run w) := by
  rw [await, run_link_bind]
  dsimp only
  rw [← World.connection]
  cases houtcome : s.outcome? (w.connection s.connection) with
  | some outcome => exact .done (carries_cancel rfl hc) (slot_of_outcome? houtcome)
  | none =>
    have hchecked := (untouched_check s.deadline).holds w
    dsimp only
    rw [run_bind]
    generalize s.deadline.check.run w = checked at hchecked
    obtain ⟨_ | deadline, w'⟩ := checked
    · have hcancelled := carries_cancel (s := s) rfl (hchecked.links ▸ hc)
      refine .done (Carries.trans (.of_untouched hchecked) hcancelled) fun hunplaced => ?_
      rw [World.table, ← hchecked.connection]
      exact slot_of_expire hunplaced
    · exact .waits rfl rfl rfl (.of_untouched hchecked) (congrArg _ (hchecked.connection _))

/-- The frame may have gone into the outbox before. -/
theorem Polls.head {s₁ : Sending} {w₁ : World} {result : Progress Sending Outcome × World}
    (frame : s₁ = { s with frame := s₁.frame }) (only : Only s.connection w w₁)
    (table : w₁.table s.connection = w.table s.connection) (h : Polls s₁ w₁ result) :
    Polls s w result := by
  rw [frame] at h
  cases h with
  | waits connection sync slot only' table' =>
    exact .waits connection sync slot (trans_of (Only s.connection) only only') (table'.trans table)
  | done carries placed =>
    refine .done ⟨trans_of (Only s.connection) only carries.only, table ▸ carries.shrinks⟩ ?_
    exact fun hunplaced => table ▸ placed hunplaced

theorem run_enqueue (s : Sending) (frame : Octets) (hc : s.connection < w.links.size) :
    ∃ s₁ w₁, (s.enqueue frame).run w = (s₁, w₁) ∧ s₁ = { s with frame := s₁.frame } ∧
      Only s.connection w w₁ ∧ w₁.table s.connection = w.table s.connection := by
  rw [enqueue, run_link_bind]
  dsimp only
  rw [← World.connection]
  split
  · have hset := connection_setConnection hc ((w.connection s.connection).enqueue s.ticket frame)
    have honly := only_setConnection s.connection
      ((w.connection s.connection).enqueue s.ticket frame) w
    obtain ⟨w₁, hw₁⟩ : ∃ w₁, ((setConnection s.connection
      ((w.connection s.connection).enqueue s.ticket frame)).run w).2 = w₁ := ⟨_, rfl⟩
    rw [hw₁] at hset honly
    have hemitted := (untouched_emit (.frame s.connection)).holds w₁
    have htable : ((emit (.frame s.connection)).run w₁).2.table s.connection =
        w.table s.connection := by
      rw [World.table, hemitted.connection, hset]
      rfl
    rw [run_bind, hw₁]
    exact ⟨_, _, rfl, rfl, trans_of (Only s.connection) honly (.of_untouched hemitted), htable⟩
  · exact ⟨_, _, rfl, rfl, refl_of (Only s.connection) w, rfl⟩

theorem poll_polls (s : Sending) (hc : s.connection < w.links.size) :
    Polls s w (s.poll.run w) := by
  unfold poll
  cases s.frame with
  | none => exact s.await_polls hc
  | some frame =>
    obtain ⟨s₁, w₁, hrun, hframe, honly, htable⟩ := s.run_enqueue frame hc
    have hconnection : s₁.connection = s.connection := by rw [hframe]
    dsimp only
    rw [run_bind, hrun]
    exact .head hframe honly htable (s₁.await_polls (hconnection ▸ honly.size ▸ hc))

/-- Where all connections have come into service and gone on from there, no request under way ends
for want of a connection. -/
theorem not_unplaced_of_poll {ls : ℕ → Channel} (hfits : Fitting w ls)
    (hc : s.connection < w.links.size) {outcome : Outcome} (h : (s.poll.run w).1 = .done outcome) :
    ¬Unplaced outcome := by
  have hpolls := s.poll_polls hc
  generalize s.poll.run w = result at hpolls h
  cases hpolls with
  | waits => cases h
  | done _ placed =>
    cases h
    intro hunplaced
    obtain ⟨address, greeting, syncs, left, hbegun⟩ := (hfits s.connection hc).begun
    have hslot := placed hunplaced
    rw [World.table, ← (hfits s.connection hc).link] at hslot
    exact hbegun.placed _ _ (.inl hslot) hunplaced

/-! ### A connection in service -/

/-- What comes of a request that is sent on a connection in service.  It is registered there, and
unless it is too large its entry and its slot wait. -/
inductive Admits (c : ℕ) (request : Request) (w : World) : Except Fault Sending × World → Prop
  | tooLarge {detail w'} (registers : Registers c w w') :
    Admits c request w (.error (.framing detail), w')
  | admitted {s : Sending} {w'} (registers : Registers c w w') (connection : s.connection = c)
    (entry : ∃ due, ⟨s.sync, request.code, due, s.slot⟩ ∈ (w'.table c).entries)
    (slot : (w'.table c).slot s.slot = .waiting) : Admits c request w (.ok s, w')

/-- The table of a connection once a sender has registered its request and has joined the line. -/
theorem table_begin (hc : c < w.links.size) (code : RequestType) (due : ℕ) :
    ((setConnection c (((w.connection c).register code due).2.2.joinLine w.stamp)).run
      (newTicket.run w).2).2.table c =
        ⟨(w.table c).entries ++ [⟨((w.connection c).register code due).1, code, due,
          (w.table c).slots.size⟩], (w.table c).slots.push .waiting⟩ := by
  rw [World.table, connection_begin hc]
  rfl

theorem start_admits (hc : c < w.links.size) (hready : w.stage c = .ready) (request : Request)
    (standard : Duration) : Admits c request w ((start c request standard).run w) := by
  have hserves : (w.connection c).readyFault? = none := if_pos (decide_eq_true hready)
  rw [start, run_link_bind]
  dsimp only
  rw [← World.connection, hserves]
  dsimp only
  rw [run_bind, run_bind, run_bind]
  generalize ((timerAfter (request.timeout.getD standard).millisUp).run w).1 = deadline
  -- nobody can end the connection between the two checks
  have hserves' : ((w.connection c).register request.code deadline.due).2.2.readyFault? = none :=
    hserves
  rw [hserves']
  have htable := table_begin hc request.code deadline.due
  have hbegun : Registers c w ((setConnection c (((w.connection c).register request.code
      deadline.due).2.2.joinLine w.stamp)).run (newTicket.run w).2).2 := by
    refine ⟨only_begin .., ?_⟩
    rw [World.registrations, htable]
    exact Array.size_push ..
  cases hencoded : Wire.Frame.encode ⟨((w.connection c).register request.code deadline.due).1,
      .request request.code, none⟩ request.body with
  | ok frame =>
    refine .admitted hbegun rfl ⟨deadline.due, ?_⟩ ?_
    · exact htable ▸ List.mem_append_right _ (List.mem_singleton_self _)
    · exact htable ▸ (Inflight.slot_push (w.table c).entries ..).trans (if_pos rfl)
  | error fault =>
    dsimp only
    rw [run_bind]
    exact .tooLarge (hbegun.carries (carries_cancel rfl (hbegun.only.size ▸ hc)))

end Sending

end Simulation

end Switchboard
