import Switchboard.Proofs.Interleaving.Classes
import Switchboard.Proofs.Interleaving.Outgoing
import Switchboard.Proofs.Interleaving.Worlds

/-!
# Activities on a connection

Each time that a sender, the reader, the writer or somebody who closes the connection is given the
chance to go on, that party of the channel takes some steps, and the channel fits the world again.
So what holds of all runs of channels holds of connections in worlds, in whatever order the
scheduler lets activities go on.

## Main definitions

- `Interleaving.Channel.Accompanies` — a party has taken steps as its activity has
- `Simulation.Sending.Stands` — where a sender stands whose activity waits

## Main statements

- `Simulation.Sending.start_starts`, `Simulation.Sending.poll_accompanies`,
  `Simulation.Sending.moves_cancel` — a request
- `Simulation.Sending.Ends.lawful` — what requests end with
- `Simulation.Reader.poll_accompanies`, `Simulation.Writer.poll_accompanies` — reader and writer
- `Simulation.Writer.frames_eq` — what has been written
- `Simulation.Closing.start_accompanies`, `Simulation.Closing.poll_accompanies` — closing
-/

namespace Switchboard

namespace Interleaving.Channel

open Simulation

/-- A party has taken steps as its activity has: it stands where the activity waits, or has ended as
the activity has. -/
inductive Accompanies {σ α : Type} (c : ℕ) (own : Option Role) (w : World) (before : Channel → Prop)
    (stands : σ → Channel → Prop) (ends : α → Channel → Prop) :
    Simulation.Progress σ α × World → Prop
  | waits {r events w'} (moves : Moves c own w before w' (stands r)) :
    Accompanies c own w before stands ends (.wait r events, w')
  | done {a w'} (moves : Moves c own w before w' (ends a)) :
    Accompanies c own w before stands ends (.done a, w')

theorem Accompanies.head {σ α : Type} {c : ℕ} {own : Option Role} {w w' : World}
    {before between : Channel → Prop} {stands : σ → Channel → Prop} {ends : α → Channel → Prop}
    {result : Simulation.Progress σ α × World} (first : Moves c own w before w' between)
    (rest : Accompanies c own w' between stands ends result) :
    Accompanies c own w before stands ends result := by
  cases rest with
  | waits moves => exact .waits (first.trans moves)
  | done moves => exact .done (first.trans moves)

end Interleaving.Channel

namespace Simulation

open Interleaving

variable {c : ℕ} {w w' : World}

theorem only_setConnection (c : ℕ) (core : Connection) (w : World) :
    Only c w ((setConnection c core).run w).2 :=
  only_setLink ..

theorem connection_setConnection (hc : c < w.links.size) (core : Connection) :
    ((setConnection c core).run w).2.connection c = core :=
  connection_setLink hc _

/-- A connection breaks. -/
theorem moves_fail (hc : c < w.links.size) (cause : Fault) :
    Channel.Moves c none w (fun _ => True) ((failConnection c cause).run w).2 (fun _ => True) := by
  rw [failConnection, run_link_bind]
  dsimp only
  rw [← World.connection]
  cases hending : (w.connection c).stage.isEnding with
  | true => exact .refl
  | false =>
    have hended := Interleaving.Ender.alone_fail cause hending
    rw [← connection_setConnection hc ((w.connection c).fail cause)] at hended
    have hfailed := Channel.moves_fresh_ender (only_setConnection ..) hended rfl
    exact (hfailed.trans (.of_untouched (untouched_sweep c _ w))).consequence (fun _ h => h)
      fun _ _ => trivial

/-! ### Requests -/

namespace Sending

/-- The call of a request that is under way. -/
def call (s : Sending) (request : Request) : Call where
  sync := s.sync
  slot := s.slot
  request := request
  timeout := s.timeout
  progress :=
    match s.frame with
    | some frame => .queued frame
    | none => .accepted

/-- Where a sender stands whose activity waits. -/
def Stands (request : Request) (s : Sending) (l : Channel) : Prop :=
  l.state.senders s.ticket = .active (s.call request)

variable {request : Request} {s : Sending}

theorem awaits_call (request : Request) (s : Sending) : (s.call request).Awaits := by
  unfold call Call.Awaits
  cases s.frame <;> trivial

/-- The entry of a call has gone and nobody is in the middle of an operation, so its slot is
settled. -/
theorem settled?_of_removed {l : Channel} {call : Call} {k : ℕ} (hl : Channel.Fits c w l)
    (hids : (w.connection c).inflight.slots.size ≤ SyncIds.cycle)
    (hcall : l.state.senders k = .active call)
    (hremoved : ((w.connection c).cancel call.sync).1 = false) :
    (settled? (w.connection c) call.slot).isSome := by
  obtain ⟨address, greeting, syncs, left, hbegun⟩ := hl.begun
  obtain ⟨run, hrun⟩ := hbegun.exists_run
  rw [← hl.link] at hids hremoved ⊢
  have hregistered : (l.state.senders k).call? = some call := by
    rw [hcall]
    rfl
  have hfate := (hrun.fates hids).fate k call hregistered
  have hfind := (cancel_of_removed_eq_false hremoved).1
  have hgone := ((hrun.sound hids).1.find?_eq_none_iff hids hregistered).mp hfind
  rw [hcall] at hfate
  cases hfate with
  | pending pends => exact absurd pends hgone
  | removed t award once settles gone sender =>
    obtain ⟨-, outcome, -, hdelivered | ⟨-, h, hheld⟩⟩ := sender
    · rw [settled?_of_delivered hdelivered]
      rfl
    · -- nobody holds anything
      cases h with
      | reader => cases hl.hand.symm.trans hheld
      | ender j => cases (hl.calm j).symm.trans hheld

/-- Whoever goes away leaves the connection as a sender does that is released. -/
theorem untouched_cancel (s : Sending) (w : World) (call : Call) (hsync : call.sync = s.sync)
    (hslot : call.slot = s.slot) :
    Untouched ((setConnection s.connection (release (w.connection s.connection) s.ticket
      call)).run w).2 (s.cancel.run w).2 := by
  rw [release, hsync, hslot]
  exact (untouched_emitRoom _).holds _

theorem connection_cancel (s : Sending) (hc : s.connection < w.links.size) (request : Request) :
    (s.cancel.run w).2.connection s.connection =
      release (w.connection s.connection) s.ticket (s.call request) := by
  rw [(s.untouched_cancel w (s.call request) rfl rfl).connection, connection_setConnection hc]

/-- The sender decides how to end, and leaves. -/
theorem moves_release {y : Sender} (hc : s.connection < w.links.size) (hk : s.ticket < w.stamp)
    (h : ∀ l, Channel.Fits s.connection w l → Stands request s l →
      Interleaving.Sender.Alone s.ticket (w.connection s.connection) (.active (s.call request))
        (release (w.connection s.connection) s.ticket (s.call request)) y) :
    Channel.Moves s.connection (some (.sender s.ticket)) w (Stands request s) (s.cancel.run w).2
      (·.state.senders s.ticket = y) := by
  have hset : Channel.Moves s.connection (some (.sender s.ticket)) w (Stands request s)
      ((setConnection s.connection (release (w.connection s.connection) s.ticket
        (s.call request))).run w).2 (·.state.senders s.ticket = y) := by
    refine Channel.moves_sender (only_setConnection ..) hk fun l hl hx => ?_
    rw [connection_setConnection hc]
    exact h l hl hx
  exact hset.trans (.of_untouched (s.untouched_cancel w _ rfl rfl))

/-- What becomes of a request that is to be sent. -/
inductive Starts (c : ℕ) (request : Request) (w : World) : Except Fault Sending × World → Prop
  /-- the connection is out of service -/
  | refused {fault} (ready : (w.connection c).readyFault? = some fault) :
    Starts c request w (.error fault, w)
  | failed {fault w'} {call : Call} (asked : call.request = request)
    (moves : Channel.Moves c none w (fun _ => True) w'
      (·.state.senders w.stamp = .gone call (some (.error fault)))) :
    Starts c request w (.error fault, w')
  | begun {s : Sending} {w'} (connection : s.connection = c) (ticket : s.ticket = w.stamp)
    (drawn : s.ticket < w'.stamp)
    (moves : Channel.Moves c none w (fun _ => True) w' (Stands request s)) :
    Starts c request w (.ok s, w')

/-- A sender has drawn the next ticket and changes the connection. -/
theorem only_begin (c : ℕ) (core : Connection) (w : World) :
    Only c w ((setConnection c core).run (newTicket.run w).2).2 := by
  have hdrawn : Only c w (newTicket.run w).2 := .of_untouched (untouched_newTicket.holds w)
  exact trans_of (Only c) hdrawn (only_setConnection ..)

theorem connection_begin (hc : c < w.links.size) (core : Connection) :
    ((setConnection c core).run (newTicket.run w).2).2.connection c = core :=
  connection_setConnection (w := (newTicket.run w).2) hc core

/-- A sender begins, under the next ticket. -/
theorem start_starts (hc : c < w.links.size) (request : Request) (standard : Duration) :
    Starts c request w ((start c request standard).run w) := by
  rw [start, run_link_bind]
  dsimp only
  rw [← World.connection]
  cases hready : (w.connection c).readyFault? with
  | some fault => exact .refused hready
  | none =>
    dsimp only
    rw [run_bind, run_bind, run_bind]
    generalize ((timerAfter (request.timeout.getD standard).millisUp).run w).1 = deadline
    -- nobody can end the connection between the two checks
    have hready' : ((w.connection c).register request.code deadline.due).2.2.readyFault? = none :=
      hready
    rw [hready']
    cases hencoded : Wire.Frame.encode ⟨((w.connection c).register request.code deadline.due).1,
        .request request.code, none⟩ request.body with
    | ok frame =>
      have hsent := Interleaving.Sender.alone_send (k := w.stamp) (request.timeout.getD standard)
        deadline.due hready hencoded
      rw [← connection_begin hc (Connection.joinLine _ _)] at hsent
      exact .begun rfl rfl (Nat.lt_succ_self _)
        (Channel.moves_fresh_sender (only_begin ..) (Nat.lt_succ_self _) hsent)
    | error fault =>
      have hleft := Interleaving.Sender.alone_oversized (k := w.stamp)
        (request.timeout.getD standard) deadline.due hready hencoded
      rw [← release_joinLine, ← connection_begin hc (Connection.joinLine _ _)] at hleft
      have hbegun := only_begin c
        (((w.connection c).register request.code deadline.due).2.2.joinLine w.stamp) w
      have hknown : c < _ := hbegun.size ▸ hc
      rw [← connection_setConnection hknown (release _ _ _)] at hleft
      have hgone := Channel.moves_fresh_sender (trans_of (Only c) hbegun (only_setConnection ..))
        (Nat.lt_succ_self _) hleft
      dsimp only
      rw [run_bind]
      exact .failed rfl (hgone.trans (.of_untouched
        (untouched_cancel ⟨c, _, _, w.stamp, none, request.timeout.getD standard, deadline⟩ _ _
          rfl rfl)))

/-- An outcome that is there ends the call. -/
theorem alone_outcome (request : Request) {core : Connection} {outcome : Outcome}
    (h : s.outcome? core = some outcome) :
    Interleaving.Sender.Alone s.ticket core (.active (s.call request))
      (release core s.ticket (s.call request)) (.gone (s.call request) (some outcome)) := by
  unfold outcome? at h
  cases hframe : s.frame with
  | some frame =>
    have hqueued : (s.call request).progress = .queued frame := by simp only [call, hframe]
    rw [hframe, Option.isSome_some, if_pos rfl] at h
    split at h
    · next hclosed =>
      cases h
      exact (Sender.Alone.single (.shutOut hqueued hclosed)).snoc .released
    · cases h
  | none =>
    have haccepted : (s.call request).progress = .accepted := by simp only [call, hframe]
    rw [hframe, Option.isSome_none, if_neg Bool.false_ne_true] at h
    exact (Sender.Alone.single (.received haccepted h)).snoc .released

/-- The caller goes away. -/
theorem moves_cancel (request : Request) (hc : s.connection < w.links.size)
    (hk : s.ticket < w.stamp) :
    Channel.Moves s.connection (some (.sender s.ticket)) w (Stands request s) (s.cancel.run w).2
      (·.state.senders s.ticket = .gone (s.call request) none) :=
  moves_release hc hk fun _ _ _ =>
    (Sender.Alone.single (.abandoned (s.awaits_call _))).snoc .released

theorem slots_size_release (core : Connection) (k : ℕ) (call : Call) :
    (release core k call).inflight.slots.size = core.inflight.slots.size :=
  ((core.inflight.shrinks_remove call.sync .severed).trans (Inflight.shrinks_forget ..)).size

/-- How a sender ends whose activity has the outcome.  If more ids have been drawn than there are,
another call may have had its id and lost its entry for it; then nobody settles its slot, and it
learns only that its time is over. -/
def Ends (request : Request) (s : Sending) (outcome : Outcome) (l : Channel) : Prop :=
  ∃ call : Call, call.request = request ∧ call.sync = s.sync ∧
    (l.state.senders s.ticket = .gone call (some outcome) ∨
      l.state.senders s.ticket = .gone call none ∧ SyncIds.cycle < l.state.table.slots.size ∧
        outcome = .error (.requestTimeout s.sync s.timeout.millis))

/-- The deadline has come. -/
theorem moves_expire (request : Request) (hc : s.connection < w.links.size)
    (hk : s.ticket < w.stamp) :
    Channel.Moves s.connection (some (.sender s.ticket)) w (Stands request s) (s.expire.run w).2
      (Ends request s (s.expire.run w).1) := by
  by_cases hsettled : ((w.connection s.connection).cancel s.sync).1 = false →
      (settled? (w.connection s.connection) s.slot).isSome
  · have hgone : Channel.Moves s.connection (some (.sender s.ticket)) w (Stands request s)
        (s.expire.run w).2
        (·.state.senders s.ticket = .gone (s.call request) (some (s.expire.run w).1)) :=
      moves_release hc hk fun _ _ _ =>
        Interleaving.Sender.alone_expire (s.awaits_call _) hsettled
    exact hgone.consequence (fun _ h => h) fun _ h => ⟨_, rfl, rfl, .inl h⟩
  · obtain ⟨hremoved, hwaits⟩ := Classical.not_imp.mp hsettled
    have hgone := moves_cancel request hc hk
    refine ⟨hgone.toOnly, fun l hl hstands => ?_⟩
    obtain ⟨l', hrun, hl', hsender, hkeeps⟩ := hgone.run l hl hstands
    refine ⟨l', hrun, hl', ⟨_, rfl, rfl, .inr ⟨hsender, ?_, ?_⟩⟩, hkeeps⟩
    · by_contra hids
      refine hwaits (settled?_of_removed hl ?_ hstands hremoved)
      rw [State.table, hl'.link, s.connection_cancel hc request, slots_size_release] at hids
      exact Nat.le_of_not_lt hids
    · have hnone : settled? (w.connection s.connection) s.slot = none :=
        Option.not_isSome_iff_eq_none.mp hwaits
      show (if ((w.connection s.connection).cancel s.sync).1 then _
        else (settled? (w.connection s.connection) s.slot).getD _) = _
      rw [hremoved, hnone]
      rfl

/-- The sender ends with the outcome if there is one, or waits for it. -/
theorem await_accompanies (request : Request) (hc : s.connection < w.links.size)
    (hk : s.ticket < w.stamp) :
    Channel.Accompanies s.connection (some (.sender s.ticket)) w (Stands request s)
      (fun s' l => s'.connection = s.connection ∧ s'.ticket = s.ticket ∧ Stands request s' l)
      (Ends request s) (s.await.run w) := by
  rw [await, run_link_bind]
  cases houtcome : s.outcome? (w.links.getD s.connection default).core with
  | some outcome =>
    have hgone := moves_release hc hk fun _ _ _ => alone_outcome request houtcome
    exact .done (hgone.consequence (fun _ h => h) fun _ h => ⟨_, rfl, rfl, .inl h⟩)
  | none =>
    have hchecked := (untouched_check s.deadline).holds w
    dsimp only
    rw [run_bind]
    generalize s.deadline.check.run w = checked at hchecked
    obtain ⟨_ | deadline, w'⟩ := checked
    · have hexpired := moves_expire request (s := s) (hchecked.links ▸ hc)
        (Nat.lt_of_lt_of_le hk hchecked.stamp)
      exact .head (.of_untouched hchecked) (.done hexpired)
    · refine .waits ?_
      exact (Channel.Moves.of_untouched hchecked).consequence (fun _ h => h)
        fun _ h => ⟨rfl, rfl, h⟩

/-- The sender puts its frame into the outbox if there is room. -/
theorem moves_enqueue (request : Request) {frame : Octets} (hframe : s.frame = some frame)
    (hc : s.connection < w.links.size) (hk : s.ticket < w.stamp) :
    ∃ s' w', (s.enqueue frame).run w = (s', w') ∧ s' = { s with frame := s'.frame } ∧
      Channel.Moves s.connection (some (.sender s.ticket)) w (Stands request s) w'
        (Stands request s') := by
  rw [enqueue, run_link_bind]
  dsimp only
  rw [← World.connection]
  cases hroom : (w.connection s.connection).hasRoom s.ticket with
  | false => exact ⟨s, w, rfl, rfl, .refl⟩
  | true =>
    have hqueued : (s.call request).progress = .queued frame := by simp only [call, hframe]
    have hcore := connection_setConnection hc ((w.connection s.connection).enqueue s.ticket frame)
    have hset := Channel.moves_sender (only_setConnection s.connection
      ((w.connection s.connection).enqueue s.ticket frame) w) hk fun l hl hx => by
        rw [hcore]
        exact .single (.accepted hqueued hroom)
    have htold := (untouched_emit (.frame s.connection)).holds
    exact ⟨_, _, rfl, rfl, hset.trans (.of_untouched (htold _))⟩

/-- Whenever the activity goes on, so does the sender. -/
theorem poll_accompanies (request : Request) (hc : s.connection < w.links.size)
    (hk : s.ticket < w.stamp) :
    Channel.Accompanies s.connection (some (.sender s.ticket)) w (Stands request s)
      (fun s' l => s'.connection = s.connection ∧ s'.ticket = s.ticket ∧ Stands request s' l)
      (Ends request s) (s.poll.run w) := by
  unfold poll
  cases hframe : s.frame with
  | none => exact await_accompanies request hc hk
  | some frame =>
    obtain ⟨s', w', hrun, hs', hmoves⟩ := moves_enqueue request hframe hc hk
    dsimp only
    rw [run_bind, hrun]
    generalize s'.frame = frame' at hs'
    subst hs'
    exact .head hmoves (await_accompanies request (s := { s with frame := frame' })
      (hmoves.size ▸ hc) (Nat.lt_of_lt_of_le hk hmoves.stamp))

/-- However a request ends in a world, its outcome is of one of the three kinds. -/
theorem Ends.lawful {l : Channel} {outcome : Outcome} (hl : Channel.Fits c w l)
    (h : Ends request s outcome l) : Lawful l.messages s.sync outcome := by
  obtain ⟨address, greeting, syncs, left, hbegun⟩ := hl.begun
  obtain ⟨call, -, hsync, hgone | ⟨-, -, rfl⟩⟩ := h
  · rw [← hsync]
    exact hbegun.resulting.results s.ticket call outcome (.inr hgone)
  · exact .network rfl

end Sending

/-! ### The reader -/

theorem moves_completeReply {m : Wire.Message} {n : ℕ} {buffer : Octets} (hc : c < w.links.size)
    (hframe : Wire.Frame.decode buffer = .ok (some (m, n))) :
    Channel.Moves c (some .reader) w (·.unread = buffer) ((completeReply c m).run w).2
      (·.unread = buffer.drop n) := by
  have hset := Channel.moves_complete (only_setConnection c ((w.connection c).complete m) w) hframe
    (connection_setConnection hc _)
  rw [completeReply, run_link_bind]
  dsimp only
  rw [run_bind]
  split
  · exact hset.trans (.of_untouched ((untouched_emit _).holds _))
  · exact hset

/-- All complete replies are delivered. -/
theorem moves_completeReplies {buffer : Octets} {d : Wire.Frame.Drained}
    (h : Wire.Frame.Drains buffer d) (hc : c < w.links.size) :
    Channel.Moves c (some .reader) w (·.unread = buffer)
      ((d.messages.forM fun m => completeReply c m.1).run w).2 (·.unread = d.rest) := by
  induction h generalizing w with
  | faulty | waiting => exact .refl
  | message hframe _ ih =>
    have hfirst := moves_completeReply hc hframe
    exact hfirst.trans (ih (hfirst.size ▸ hc))

namespace Reader

theorem moves_drain (hc : c < w.links.size) (buffer : Octets) :
    ∃ result w', (drain c buffer).run w = (result, w') ∧
      (result = .ok (Wire.Frame.drain buffer).rest ∨ ∃ cause, result = .error cause) ∧
      Channel.Moves c (some .reader) w (·.unread = buffer) w'
        (·.unread = (Wire.Frame.drain buffer).rest) := by
  have hmoves := moves_completeReplies (Wire.Frame.drains_drain buffer) hc
  rw [drain, run_bind]
  cases (Wire.Frame.drain buffer).fault with
  | none => exact ⟨_, _, rfl, .inl rfl, hmoves⟩
  | some fault => exact ⟨_, _, rfl, .inr ⟨_, rfl⟩, hmoves⟩

/-- The reader ends. -/
theorem finish_accompanies {P : Channel → Prop} :
    Channel.Accompanies c (some .reader) w P (fun buffer l => l.unread = buffer) (fun _ _ => True)
      ((finish c).run w) := by
  have hgone := (untouched_letGo (w.links.getD c default).pipe).holds w
  exact .done ((Channel.Moves.of_untouched hgone).consequence (fun _ h => h) fun _ _ => trivial)

theorem abort_accompanies {P : Channel → Prop} (hc : c < w.links.size) (cause : Fault) :
    Channel.Accompanies c (some .reader) w P (fun buffer l => l.unread = buffer) (fun _ _ => True)
      ((abort c cause).run w) := by
  have hfailed := (moves_fail hc cause).of_none (some .reader)
  rw [abort, run_bind]
  exact .head (hfailed.consequence (fun _ _ => trivial) fun _ h => h) finish_accompanies

theorem read_accompanies (hc : c < w.links.size) (buffer : Octets) :
    Channel.Accompanies c (some .reader) w (·.unread = buffer) (fun buffer l => l.unread = buffer)
      (fun _ _ => True) ((read c buffer).run w) := by
  rw [read, run_link_bind, run_get_bind]
  split
  · exact abort_accompanies hc _
  · exact abort_accompanies hc _
  · exact .waits .refl

/-- Whenever the reader goes on, so does the party: it takes the messages in front one by one. -/
theorem poll_accompanies (hc : c < w.links.size) (buffer : Octets) :
    Channel.Accompanies c (some .reader) w (·.unread = buffer) (fun buffer l => l.unread = buffer)
      (fun _ _ => True) ((poll c buffer).run w) := by
  obtain ⟨result, w₁, hrun₁, hresult, hdrained⟩ := moves_drain hc buffer
  have hc₁ : c < w₁.links.size := hdrained.size ▸ hc
  rw [poll, run_bind, hrun₁]
  rcases hresult with rfl | ⟨cause, rfl⟩
  · refine .head hdrained ?_
    dsimp only
    rw [run_link_bind]
    cases (w₁.links.getD c default).core.stopping with
    | true => exact finish_accompanies
    | false =>
      have htaken := (untouched_withPipe (w₁.links.getD c default).pipe Pipe.takeAll).holds w₁
      rw [if_neg Bool.false_ne_true, run_bind]
      generalize (withPipe (w₁.links.getD c default).pipe Pipe.takeAll).run w₁ = taken at htaken
      obtain ⟨chunk, w₂⟩ := taken
      obtain ⟨result', w₃, hrun₃, hresult', hdrained'⟩ := moves_drain (htaken.links ▸ hc₁ :
        c < w₂.links.size) ((Wire.Frame.drain buffer).rest ++ chunk)
      have hc₃ : c < w₃.links.size := hdrained'.size ▸ htaken.links ▸ hc₁
      rw [run_bind, hrun₃]
      refine .head ((Channel.moves_arrive htaken chunk).trans hdrained') ?_
      rcases hresult' with rfl | ⟨cause, rfl⟩
      · exact read_accompanies hc₃ _
      · exact abort_accompanies hc₃ cause
  · exact .head hdrained (abort_accompanies hc₁ cause)

end Reader

/-! ### The writer -/

namespace Writer

/-- The writer ends. -/
theorem finish_accompanies {P : Channel → Prop} (hc : c < w.links.size) (ending : WriterEnd) :
    Channel.Accompanies c (some .writer) w P Channel.Writing
      (fun _ l => l.state.link.outboxClosed = true) ((finish c ending).run w) := by
  let ended : Link :=
    { w.links.getD c default with
      writer := some ending
      core := { w.connection c with outboxClosed := true } }
  have hclosed := Channel.moves_hangUp (P := P) (only_setLink c ended w)
    (connection_setLink hc ended)
  have htold : Within Untouched (emitRoom c >>= fun _ => letGo (w.links.getD c default).pipe >>=
      fun _ => emit (.written c)) :=
    .bind (untouched_emitRoom c) fun _ => .bind (untouched_letGo _) fun _ => untouched_emit _
  exact .done (hclosed.trans (.of_untouched (htold.holds _)))

theorem shutDown_accompanies {P : Channel → Prop} (hc : c < w.links.size) :
    Channel.Accompanies c (some .writer) w P Channel.Writing
      (fun _ l => l.state.link.outboxClosed = true) ((shutDown c).run w) := by
  have hshut := (untouched_withPipe (w.links.getD c default).pipe fun p => ((), p.shutDown)).holds w
  rw [shutDown, run_link_bind, run_bind]
  exact .head (.of_untouched hshut) (finish_accompanies (hshut.links ▸ hc) .done)

theorem exists_drop_of_writePipe {serial : ℕ} {bytes rest : Octets}
    (h : ((writePipe serial bytes).run w).1 = .taken rest) : ∃ count, rest = bytes.drop count := by
  have hresult : ((writePipe serial bytes).run w).1 =
      ((withPipe serial (Pipe.write · bytes)).run w).1 := by
    rw [writePipe, run_bind]
    generalize ((withPipe serial (Pipe.write · bytes)).run w).1 = result
    cases result <;> rfl
  exact Pipe.eq_drop_of_write (hresult.symm.trans h)

/-- Whenever the writer goes on, so does the party: it takes frames out of the outbox, and the
stream accepts some octets of each. -/
theorem run_accompanies (fuel : ℕ) (rest : Octets) (hc : c < w.links.size) :
    Channel.Accompanies c (some .writer) w (Channel.Writing rest) Channel.Writing
      (fun _ l => l.state.link.outboxClosed = true) ((run c fuel rest).run w) := by
  induction fuel generalizing rest w with
  | zero => exact .waits .refl
  | succ fuel ih =>
    cases rest with
    | nil =>
      rw [run, run_link_bind]
      dsimp only
      rw [← World.connection]
      by_cases hstopping : (w.connection c).stopping = true
      · rw [if_pos hstopping]
        exact shutDown_accompanies hc
      · rw [if_neg hstopping]
        cases houtbox : (w.connection c).outbox with
        | nil => exact .waits .refl
        | cons frame outbox =>
          dsimp only
          have hpopped := Channel.moves_pop (only_setConnection c _ w) houtbox
            (connection_setConnection hc _)
          have htold := hpopped.trans (.of_untouched ((untouched_emitRoom c).holds _))
          rw [run_bind, run_bind]
          exact .head htold (ih frame (htold.size ▸ hc))
    | cons octet rest =>
      rw [run, run_link_bind]
      swap
      · exact List.cons_ne_nil octet rest
      cases (w.links.getD c default).core.stopping with
      | true => exact finish_accompanies hc .done
      | false =>
        have hwritten := (untouched_writePipe (w.links.getD c default).pipe (octet :: rest)).holds w
        have hdrop := @exists_drop_of_writePipe w (w.links.getD c default).pipe (octet :: rest)
        rw [if_neg Bool.false_ne_true, run_bind]
        generalize (writePipe (w.links.getD c default).pipe (octet :: rest)).run w = result
          at hwritten hdrop
        obtain ⟨result, w'⟩ := result
        have hc' : c < w'.links.size := hwritten.links ▸ hc
        cases result with
        | taken rest' =>
          obtain ⟨count, rfl⟩ := hdrop rfl
          refine .head (Channel.moves_write hwritten count) ?_
          -- with nothing left the writer looks for the next frame
          generalize (octet :: rest).drop count = left
          cases left with
          | nil => exact ih [] hc'
          | cons => exact .waits .refl
        | failed fault =>
          dsimp only
          have hfailed := (moves_fail hc'
            ((w.links.getD c default).core.writeFailure fault)).of_none (some .writer)
          rw [run_bind]
          refine .head (.of_untouched hwritten) ?_
          exact .head (hfailed.consequence (fun _ _ => trivial) fun _ h => h)
            (shutDown_accompanies (hfailed.size ▸ hc'))
        | broken => exact .head (.of_untouched hwritten) (finish_accompanies hc' _)

theorem poll_accompanies (rest : Octets) (hc : c < w.links.size) :
    Channel.Accompanies c (some .writer) w (Channel.Writing rest) Channel.Writing
      (fun _ l => l.state.link.outboxClosed = true) ((poll c rest).run w) :=
  run_accompanies _ rest hc

/-- Where the writer stands, octets written, octets left and frames waiting are the frames that have
entered the outbox. -/
theorem frames_eq {l : Channel} {rest : Octets} (hl : Channel.Fits c w l)
    (hwriting : Channel.Writing rest l) :
    l.frames.flatten = l.written ++ (rest ++ (w.connection c).outbox.flatten) := by
  obtain ⟨address, greeting, syncs, left, hbegun⟩ := hl.begun
  rw [← hwriting.1, ← hl.link]
  exact hbegun.orderly.stream

end Writer

/-! ### Closing -/

namespace Closing

/-- Whenever closing goes on, so does the party. -/
theorem poll_accompanies {j : ℕ} (hc : c < w.links.size) :
    Channel.Accompanies c (some (.ender j)) w (·.state.enders j = .sweeping .closure [])
      (fun d l => d = c ∧ l.state.enders j = .sweeping .closure [])
      (fun _ l => l.state.enders j = .finished) ((poll c).run w) := by
  have halone : Ender.Alone (w.connection c) (.sweeping .closure []) (w.connection c).finishClose
      .finished := .single .finished
  rw [← connection_setConnection hc (w.connection c).finishClose] at halone
  have hfinished := Channel.moves_ender (j := j) (only_setConnection ..) halone rfl
  rw [poll, run_link_bind]
  cases (w.links.getD c default).writer with
  | none => exact .waits (Channel.Moves.refl.consequence (fun _ h => h) fun _ h => ⟨rfl, h⟩)
  | some ending =>
    dsimp only
    rw [run_bind]
    cases ending <;> exact .done hfinished

/-- Closing begins with one who has done nothing yet, unless somebody else has begun to end the
connection. -/
theorem start_accompanies (hc : c < w.links.size) :
    (w.connection c).stage.isEnding = true ∧ (start c).run w = (.done (.ok ()), w) ∨
      Channel.Accompanies c none w (fun _ => True)
        (fun d l => d = c ∧ ∃ j, l.state.enders j = .sweeping .closure [])
        (fun _ l => ∃ j, l.state.enders j = .finished) ((start c).run w) := by
  rw [start, run_link_bind, ← World.connection]
  cases hbegin : (w.connection c).beginClose? with
  | none => exact .inl ⟨Connection.beginClose?_eq_none_iff.mp hbegin, rfl⟩
  | some core =>
    have hset : Only c w ((setConnection c core).run w).2 := only_setConnection ..
    have htold := untouched_sweep c core w
    have hswept : Only c w ((sweep c core).run w).2 :=
      trans_of (Only c) hset (.of_untouched htold)
    have hcore : ((sweep c core).run w).2.connection c = core :=
      (htold.connection c).trans (connection_setConnection hc core)
    have hended := Ender.alone_beginClose hbegin
    dsimp only
    rw [run_bind]
    generalize ((sweep c core).run w).2 = w' at hswept hcore
    have hc' : c < w'.links.size := hswept.size ▸ hc
    rw [poll, run_link_bind]
    refine .inr ?_
    cases (w'.links.getD c default).writer with
    | none =>
      rw [← hcore] at hended
      have hmoves := Channel.moves_fresh_ender hswept hended rfl
      exact .waits (hmoves.consequence (fun _ h => h) fun _ h => ⟨rfl, h⟩)
    | some ending =>
      have hfinished := hended.snoc .finished
      rw [← hcore, ← connection_setConnection hc' (Connection.finishClose _)] at hfinished
      have hmoves := Channel.moves_fresh_ender (trans_of (Only c) hswept (only_setConnection ..))
        hfinished rfl
      dsimp only
      rw [run_bind]
      cases ending <;> exact .done hmoves

end Closing

end Simulation

end Switchboard
