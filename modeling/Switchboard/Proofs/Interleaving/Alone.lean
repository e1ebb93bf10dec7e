import Switchboard.Proofs.Interleaving.Channels

/-!
# Parties that are not interrupted

An operation on a connection is a few steps of one party that nobody interrupts.  What they come to
is known from where the party stands; and wherever the other parties stand, they are a run.

## Main definitions

- `Interleaving.Sender.Alone`, `Interleaving.Ender.Alone` — one party takes steps, and nobody else

## Main statements

- `Interleaving.Sender.alone_send`, `Interleaving.Sender.alone_expire` — the operations of senders
- `Interleaving.Ender.alone_fail`, `Interleaving.Ender.alone_beginClose` — so does a connection end
- `Interleaving.Channel.Run.complete` — the reader delivers a reply
-/

namespace Switchboard.Interleaving

open Wire Simulation

/-- The sender with the number `k` takes steps, and nobody else does. -/
inductive Sender.Alone (k : ℕ) (c : Connection) (x : Sender) : Connection → Sender → Prop
  | nil : Alone k c x c x
  | snoc {c' x' a c'' x''} (init : Alone k c x c' x') (last : Sender.Step c' k x' a c'' x'') :
    Alone k c x c'' x''

/-- Somebody who ends the connection takes steps, and nobody else does. -/
inductive Ender.Alone (c : Connection) (x : Ender) : Connection → Ender → Prop
  | nil : Alone c x c x
  | snoc {c' x' a c'' x''} (init : Alone c x c' x') (last : Ender.Step c' x' a c'' x'') :
    Alone c x c'' x''

/-! ### Senders -/

variable {c c' : Connection} {k : ℕ} {x y : Sender} {call : Call}

theorem Sender.Alone.single {a : SenderAction} (h : Sender.Step c k x a c' y) :
    Sender.Alone k c x c' y :=
  .snoc .nil h

theorem Sender.Alone.outboxClosed (h : Sender.Alone k c x c' y) :
    c'.outboxClosed = c.outboxClosed := by
  induction h with
  | nil => rfl
  | snoc _ last ih =>
    rw [← ih]
    cases last <;> rfl

theorem remove_remove (t : Inflight) (sync : UInt64) (new new' : Slot) :
    ((t.remove sync new).2.remove sync new').2 = (t.remove sync new).2 := by
  cases hf : t.find? sync with
  | none => rw [Inflight.remove_of_find?_none hf, Inflight.remove_of_find?_none hf]
  | some e =>
    rw [Inflight.remove_of_find? hf, Inflight.remove_of_find?_none]
    refine Inflight.find?_eq_none_iff.mpr fun hmem => ?_
    obtain ⟨e', he', hsync⟩ := Inflight.mem_syncs.mp hmem
    exact of_decide_eq_true (List.mem_filter.mp he').2 hsync

/-- Whoever has cancelled its call and left the line has nothing of that left to do. -/
theorem release_cancel (c : Connection) (k : ℕ) (call : Call) :
    release ((c.cancel call.sync).2.leaveLine k) k call = release c k call := by
  simp only [release, Connection.cancel, Connection.leaveLine, Connection.withInflight,
    Inflight.cancel, remove_remove, List.filter_filter, Bool.and_self]

theorem release_joinLine (c : Connection) (k : ℕ) (call : Call) :
    release (c.joinLine k) k call = release c k call := by
  simp [release, Connection.cancel, Connection.leaveLine, Connection.withInflight,
    Connection.joinLine]

namespace Sender

variable {request : Request} (timeout : Duration) (deadline : ℕ)

/-- The call of a sender that registers it now. -/
def newCall (c : Connection) (request : Request) (timeout : Duration) (deadline : ℕ)
    (progress : Progress) : Call :=
  ⟨(c.register request.code deadline).1, (c.register request.code deadline).2.1, request, timeout,
    progress⟩

theorem alone_clear (ready : c.readyFault? = none) :
    Alone k c .idle (c.register request.code deadline).2.2
      (.active (newCall c request timeout deadline .cleared)) :=
  (((Alone.single (.checked ready)).snoc .registered).snoc (.cleared rfl ready))

/-- A sender registers its call and joins the line. -/
theorem alone_send (ready : c.readyFault? = none) {frame : Octets}
    (encoded : Frame.encode ⟨(c.register request.code deadline).1, .request request.code, none⟩
      request.body = .ok frame) :
    Alone k c .idle ((c.register request.code deadline).2.2.joinLine k)
      (.active (newCall c request timeout deadline (.queued frame))) :=
  (alone_clear timeout deadline ready).snoc (.queued rfl encoded)

/-- A sender finds that its request is too large. -/
theorem alone_oversized (ready : c.readyFault? = none) {fault : FrameFault}
    (encoded : Frame.encode ⟨(c.register request.code deadline).1, .request request.code, none⟩
      request.body = .error fault) :
    Alone k c .idle
      (release (c.register request.code deadline).2.2 k
        (newCall c request timeout deadline .cleared))
      (.gone (newCall c request timeout deadline .cleared)
        (some (.error (.framing fault.message)))) :=
  ((alone_clear timeout deadline ready).snoc (.oversized rfl encoded)).snoc .released

/-- A sender whose deadline has come ends with a timeout or with what is in its slot. -/
theorem alone_expire (awaits : call.Awaits)
    (settled : (c.cancel call.sync).1 = false → (Sending.settled? c call.slot).isSome) :
    Alone k c (.active call) (release c k call) (.gone call (some
      (if (c.cancel call.sync).1 then .error (.requestTimeout call.sync call.timeout.millis)
        else (Sending.settled? c call.slot).getD
          (.error (.requestTimeout call.sync call.timeout.millis))))) := by
  cases hremoved : (c.cancel call.sync).1 with
  | true =>
    have hexpired := (Alone.single (k := k) (.expired awaits hremoved)).snoc .released
    rwa [release_cancel] at hexpired
  | false =>
    obtain ⟨outcome, houtcome⟩ := Option.isSome_iff_exists.mp (settled hremoved)
    have hsame :
        Sending.settled? ((c.cancel call.sync).2.leaveLine k) call.slot = some outcome := by
      rw [(cancel_of_removed_eq_false hremoved).2]
      exact houtcome
    have hreceived := ((Alone.single (.overdue awaits hremoved)).snoc (.receivedLate hsame)).snoc
      .released
    rwa [release_cancel, ← Option.getD_some (a := outcome), ← houtcome] at hreceived

end Sender

/-! ### Whoever ends the connection -/

namespace Ender

variable {ending : Ending}

theorem Alone.single {a : EnderAction} {x y : Ender} (h : Ender.Step c x a c' y) :
    Alone c x c' y :=
  .snoc .nil h

theorem Alone.trans {c'' : Connection} {x y z : Ender} (h : Alone c x c' y)
    (h' : Alone c' y c'' z) : Alone c x c'' z := by
  induction h' with
  | nil => exact h
  | snoc _ last ih => exact ih.snoc last

theorem Alone.outboxClosed {x y : Ender} (h : Alone c x c' y) :
    c'.outboxClosed = c.outboxClosed := by
  induction h with
  | nil => rfl
  | snoc _ last ih =>
    rw [← ih]
    cases last with
    | won leave =>
      obtain ⟨-, rfl⟩ := Connection.leave?_eq_some_iff.mp leave
      rfl
    | _ => rfl

theorem alone_resolve (id : UInt64) (rest : List UInt64) :
    Alone c (.sweeping ending (id :: rest))
      (c.withInflight (c.inflight.resolve id (.error (ending.fault c))).2)
      (.sweeping ending rest) := by
  cases hf : c.inflight.find? id with
  | none =>
    rw [Inflight.resolve, Inflight.remove_of_find?_none hf]
    exact .single (.skipped hf)
  | some e =>
    rw [Inflight.resolve, Inflight.remove_of_find? hf]
    exact (Alone.single (.taken hf)).snoc .delivered

theorem alone_sweep (ids : List UInt64) :
    Alone c (.sweeping ending ids)
      (c.withInflight (Inflight.failEach (ending.fault c) ids c.inflight).2)
      (.sweeping ending []) := by
  induction ids generalizing c with
  | nil => exact .nil
  | cons id rest ih =>
    have hrest := ih (c := c.withInflight (c.inflight.resolve id (.error (ending.fault c))).2)
    have hfault : ending.fault (c.withInflight
        (c.inflight.resolve id (.error (ending.fault c))).2) = ending.fault c := by
      cases ending <;> rfl
    rw [hfault] at hrest
    exact (alone_resolve id rest).trans hrest

/-- Whoever wins lists the pending requests and resolves them. -/
theorem alone_end (ending : Ending) (leave : c.leave? ending.target = some c') :
    Alone c .idle (c'.stop.failAll (ending.fault c'.stop)) (.sweeping ending []) :=
  ((Alone.single (.won leave)).snoc .listed).trans (alone_sweep _)

/-- A failure ends the connection. -/
theorem alone_fail (cause : Fault) (serves : c.stage.isEnding = false) :
    Alone c .idle (c.fail cause) (.sweeping (.failure cause) []) := by
  have hleave : c.leave? .failed = some { c with stage := .failed } :=
    Connection.leave?_eq_some_iff.mpr ⟨serves, rfl⟩
  rw [Connection.fail, hleave]
  exact alone_end (.failure cause) hleave

/-- Closing ends the connection. -/
theorem alone_beginClose (hclose : c.beginClose? = some c') :
    Alone c .idle c' (.sweeping .closure []) := by
  obtain ⟨left, hleave, rfl⟩ := Option.map_eq_some_iff.mp hclose
  exact alone_end .closure hleave

end Ender

/-! ### Runs -/

namespace Channel

variable {l l' l'' : Channel}

theorem Run.trans (h : Run l l') (h' : Run l' l'') : Run l l'' := by
  induction h' with
  | nil => exact h
  | snoc _ last ih => exact ih.snoc last

/-- Steps of a sender are a run. -/
theorem Run.of_sender (h : Sender.Alone k c x c' y) (hl : l.state.link = c)
    (hx : l.state.senders k = x) :
    ∃ entered, Run l
      { l with state := l.state.setSender k c' y, entered := l.entered ++ entered } := by
  induction h with
  | nil =>
    subst hl hx
    refine ⟨[], ?_⟩
    rw [State.setSender, Function.update_eq_self, List.append_nil]
    exact .nil
  | @snoc c₁ x₁ a c₂ x₂ _ last ih =>
    obtain ⟨entered, hrun⟩ := ih
    have hstep := Step.of_sender (State.setSender_self l.state k c₁ x₁) last
    rw [State.setSender_setSender] at hstep
    by_cases ha : a = .enqueue
    · subst ha
      cases last with
      | @accepted call frame progress room =>
        refine ⟨entered ++ [⟨k, call, frame⟩], ?_⟩
        rw [← List.append_assoc]
        exact hrun.snoc (.enters (State.setSender_self ..) progress hstep)
    · exact ⟨entered, hrun.snoc (.sender ha hstep)⟩

/-- Steps of somebody who ends the connection are a run. -/
theorem Run.of_ender {j : ℕ} {x y : Ender} (h : Ender.Alone c x c' y) (hl : l.state.link = c)
    (hx : l.state.enders j = x) : Run l (l.moved (l.state.setEnder j c' y)) := by
  induction h with
  | nil =>
    subst hl hx
    rw [State.setEnder, Function.update_eq_self]
    exact .nil
  | @snoc c₁ x₁ a c₂ x₂ _ last ih =>
    have hstep := Step.of_ender (State.setEnder_self l.state j c₁ x₁) last
    rw [State.setEnder_setEnder] at hstep
    exact ih.snoc (.ender hstep)

/-- The reader delivers the reply in front. -/
theorem Run.complete {m : Message} {n : ℕ} (hhand : l.state.hand = none)
    (hframe : Frame.decode l.unread = .ok (some (m, n))) :
    Run l ((l.skip n).moved { l.state with link := l.state.link.complete m }) := by
  cases hf : l.state.link.inflight.find? m.header.sync with
  | none =>
    have hsame : l.state.link.complete m = l.state.link := by
      rw [Connection.complete, Inflight.resolve, Inflight.remove_of_find?_none hf]
    have hstep := Run.nil.snoc (.understands hframe (.of_reader hhand (.ignored hf)))
    rw [hsame]
    rwa [← hhand] at hstep
  | some e =>
    have hboth : l.state.link.complete m = l.state.link.withInflight
        ((l.state.table.without m.header.sync).settled e.slot
          (.delivered (Connection.replyOutcome m))) := by
      rw [Connection.complete, Inflight.resolve, Inflight.remove_of_find? hf]
      rfl
    have htaken := Run.nil.snoc (.understands hframe (.of_reader hhand (.taken hf)))
    have hput := htaken.snoc (.delivers (.of_reader rfl .put))
    rw [hboth]
    rwa [← hhand] at hput

end Channel

end Switchboard.Interleaving
