import Switchboard.Proofs.Interleaving.Channels

/-!
# The stream out

Senders come and go, and the stream accepts octets as it likes.  What it has accepted is
nevertheless the frames that entered the outbox, one behind the other, up to some octet: nobody but
the writer takes frames out of the outbox, and the writer finishes the one that it has begun.

## Main definitions

- `Interleaving.Entered.message` — what the frame of a call says
- `Interleaving.Channel.Orderly` — octets written, octets left and frames waiting are the frames
  entered

## Main statements

- `Interleaving.Channel.Orderly.step`, `Interleaving.Channel.Run.orderly` — it is so in every state
  of every run
- `Interleaving.Channel.written_in_order` — what the other end understands of the octets written
-/

namespace Switchboard.Interleaving

open Wire

/-! ### What steps do to the outbox -/

/-- The header of a call's request. -/
def Call.header (call : Call) : Header :=
  ⟨call.sync, .request call.request.code, none⟩

theorem Call.canonical_header (call : Call) : call.header.canonical = call.header := by
  have hcode : (Code.request call.request.code).IsCanonical := trivial
  rw [Header.canonical, header, hcode.canonical_eq]

variable {c link : Connection} {k : ℕ} {x y : Sender} {a : SenderAction}

theorem Sender.Step.outbox (h : Sender.Step c k x a link y) (other : a ≠ .enqueue) :
    link.outbox = c.outbox := by
  cases h with
  | accepted => exact absurd rfl other
  | _ => rfl

/-- A call whose frame has entered the outbox stays such a call. -/
theorem Sender.Step.call?_eq (h : Sender.Step c k x a link y) {call : Call}
    (hcall : x.call? = some call) (haccepted : call.progress = .accepted) :
    y.call? = some call := by
  cases h with
  | checked | refused | registered => cases hcall
  | cleared progress | queued progress | accepted progress =>
    cases hcall
    rw [progress] at haccepted
    cases haccepted
  | _ => exact hcall

/-- The frame that waits for room is that of the call. -/
theorem Sender.Step.encode_eq {call : Call} {frame : Octets}
    (h : Sender.Step c k x a link (.active call)) (hqueued : call.progress = .queued frame) :
    Frame.encode call.header call.request.body = .ok frame := by
  cases h with
  | registered | cleared | accepted => cases hqueued
  | queued _ encoded =>
    cases hqueued
    exact encoded

/-- Nobody but senders and the writer touches the outbox. -/
theorem Step.outbox {s s' : State} {a : Action} (h : Step s a s')
    (sender : ∀ k b, a ≠ .sender k b) (pop : a ≠ .writer .pop) :
    s'.senders = s.senders ∧ s'.link.outbox = s.link.outbox := by
  cases h with
  | sender => exact absurd rfl (sender _ _)
  | reader step =>
    generalize s.hand = before at step
    cases step <;> exact ⟨rfl, rfl⟩
  | writer step =>
    cases step with
    | popped => exact absurd rfl pop
    | hungUp => exact ⟨rfl, rfl⟩
  | @ender j a link x step =>
    refine ⟨rfl, ?_⟩
    generalize s.enders j = before at step
    cases step with
    | won leave =>
      obtain ⟨-, rfl⟩ := Connection.leave?_eq_some_iff.mp leave
      rfl
    | _ => rfl

/-! ### The frames entered -/

/-- What the frame of a call says. -/
def Entered.message (e : Entered) : Message :=
  ⟨e.call.header, e.call.request.body⟩

namespace Channel

/-- Octets written, octets left and frames waiting are the frames entered, each of them the frame of
a call that has put it there and can do so no more. -/
structure Orderly (l : Channel) : Prop where
  stream : l.frames.flatten = l.written ++ (l.rest ++ l.state.link.outbox.flatten)
  once : (l.entered.map (·.sender)).Nodup
  past : ∀ e ∈ l.entered,
    (l.state.senders e.sender).call? = some { e.call with progress := .accepted }
  encoded : ∀ e ∈ l.entered, Frame.encode e.call.header e.call.request.body = .ok e.frame
  queued : ∀ k call frame, l.state.senders k = .active call → call.progress = .queued frame →
    Frame.encode call.header call.request.body = .ok frame

variable {address : Address} {greeting : Greeting} {g : SyncIds} {left : Octets} {l l' : Channel}

theorem orderly_start : (start address greeting g left).Orderly := by
  refine ⟨rfl, List.nodup_nil, nofun, nofun, ?_⟩
  intro k call frame hsender
  cases hsender

/-- Other parties than senders and the writer leave the order as it is. -/
theorem Orderly.of_eq (h : l.Orderly) {s' : State} (hsenders : s'.senders = l.state.senders)
    (houtbox : s'.link.outbox = l.state.link.outbox) : (l.moved s').Orderly := by
  refine ⟨?_, h.once, ?_, h.encoded, ?_⟩
  · show l.frames.flatten = l.written ++ (l.rest ++ s'.link.outbox.flatten)
    rw [houtbox]
    exact h.stream
  · show ∀ e ∈ l.entered, (s'.senders e.sender).call? = some { e.call with progress := .accepted }
    rw [hsenders]
    exact h.past
  · show ∀ k call frame, s'.senders k = .active call → call.progress = .queued frame → _
    rw [hsenders]
    exact h.queued

/-- The senders after one of them has moved: the calls entered stay entered, and what waits for room
is a frame. -/
theorem Orderly.moved (h : l.Orderly) {k : ℕ} {a : SenderAction} {link : Connection} {x : Sender}
    (hstep : Sender.Step l.state.link k (l.state.senders k) a link x) :
    (∀ e ∈ l.entered, (Function.update l.state.senders k x e.sender).call? =
      some { e.call with progress := .accepted }) ∧
    ∀ k' call frame, Function.update l.state.senders k x k' = .active call →
      call.progress = .queued frame →
      Frame.encode call.header call.request.body = .ok frame := by
  constructor
  · intro e he
    by_cases hk : e.sender = k
    · subst hk
      rw [Function.update_self]
      exact hstep.call?_eq (h.past e he) rfl
    · rw [Function.update_of_ne hk]
      exact h.past e he
  · intro k' call frame hsender hqueued
    by_cases hk : k' = k
    · subst hk
      rw [Function.update_self] at hsender
      subst hsender
      exact hstep.encode_eq hqueued
    · rw [Function.update_of_ne hk] at hsender
      exact h.queued k' call frame hsender hqueued

/-- Every step keeps the order. -/
theorem Orderly.step (h : l.Orderly) (hstep : Step l l') : l'.Orderly := by
  cases hstep with
  | @sender k a s' other step =>
    cases step with
    | sender step =>
      obtain ⟨hpast, hqueued⟩ := h.moved step
      refine ⟨?_, h.once, hpast, h.encoded, hqueued⟩
      exact step.outbox other ▸ h.stream
  | @enters k call frame s' sender progress step =>
    cases step with
    | sender step =>
      obtain ⟨hpast, hqueued⟩ := h.moved step
      have hencoded := h.queued k call frame sender progress
      -- the call has not entered before, or it would not be queued now
      have hnew : ∀ e ∈ l.entered, e.sender ≠ k := by
        rintro e he rfl
        have hcall := h.past e he
        rw [sender] at hcall
        cases hcall
        cases progress
      rw [sender] at step
      cases step with
      | accepted progress' room =>
        rw [progress] at progress'
        cases progress'
        refine ⟨?_, ?_, ?_, ?_, hqueued⟩
        · show ((l.entered ++ [(⟨k, call, frame⟩ : Entered)]).map (·.frame)).flatten =
            l.written ++ (l.rest ++ (l.state.link.outbox ++ [frame]).flatten)
          have hstream := h.stream
          rw [frames] at hstream
          rw [List.map_append, List.flatten_append, hstream]
          simp
        · show ((l.entered ++ [(⟨k, call, frame⟩ : Entered)]).map (·.sender)).Nodup
          rw [List.map_append]
          refine h.once.append (List.nodup_singleton k) ?_
          simpa [List.disjoint_left] using hnew
        · intro e he
          rcases List.mem_append.mp he with hold | hlast
          · exact hpast e hold
          · rw [List.mem_singleton.mp hlast]
            show (Function.update l.state.senders k _ k).call? = _
            rw [Function.update_self]
            rfl
        · intro e he
          rcases List.mem_append.mp he with hold | hlast
          · exact h.encoded e hold
          · rw [List.mem_singleton.mp hlast]
            exact hencoded
  | ender step =>
    obtain ⟨hsenders, houtbox⟩ := step.outbox nofun nofun
    exact h.of_eq hsenders houtbox
  | arrives => exact ⟨h.stream, h.once, h.past, h.encoded, h.queued⟩
  | @understands m n s' _ step =>
    obtain ⟨hsenders, houtbox⟩ := step.outbox nofun nofun
    have hskip : (l.skip n).Orderly := ⟨h.stream, h.once, h.past, h.encoded, h.queued⟩
    exact hskip.of_eq hsenders houtbox
  | delivers step =>
    obtain ⟨hsenders, houtbox⟩ := step.outbox nofun nofun
    exact h.of_eq hsenders houtbox
  | @pops frame outbox s' idle _ houtbox step =>
    cases step with
    | writer step =>
      cases step with
      | popped houtbox' =>
        rw [houtbox] at houtbox'
        cases houtbox'
        refine ⟨?_, h.once, h.past, h.encoded, h.queued⟩
        have hstream := h.stream
        rw [idle, houtbox] at hstream
        exact hstream
  | writes count =>
    refine ⟨?_, h.once, h.past, h.encoded, h.queued⟩
    show l.frames.flatten =
      l.written ++ l.rest.take count ++ (l.rest.drop count ++ l.state.link.outbox.flatten)
    rw [List.append_assoc, ← List.append_assoc (l.rest.take count), List.take_append_drop]
    exact h.stream
  | hangsUp step =>
    obtain ⟨hsenders, houtbox⟩ := step.outbox nofun nofun
    exact h.of_eq hsenders houtbox

theorem Run.orderly (hr : Run (start address greeting g left) l) : l.Orderly := by
  induction hr with
  | nil => exact orderly_start
  | snoc _ last ih => exact ih.step last

/-! ### What the other end understands -/

theorem Orderly.isPrefix (h : l.Orderly) : l.written <+: l.frames.flatten := by
  rw [h.stream]
  exact List.prefix_append ..

/-- Calls whose bodies are empty or one value have frames that carry them. -/
theorem Orderly.carries (h : l.Orderly)
    (hbodies : ∀ e ∈ l.entered, e.call.request.body = [] ∨
      MessagePack.IsValue e.call.request.body) :
    List.Forall₂ Frame.Carries l.frames (l.entered.map Entered.message) := by
  rw [frames, List.forall₂_map_left_iff, List.forall₂_map_right_iff, List.forall₂_same]
  intro e he
  have hcarries := Frame.carries_of_encode (h.encoded e he) (hbodies e he)
  rwa [Call.canonical_header] at hcarries

/-- Calls that have entered have different ids, as long as no more ids have been drawn than there
are. -/
theorem Run.nodup_syncs (hr : Run (start address greeting g left) l)
    (hids : l.state.table.slots.size ≤ SyncIds.cycle) :
    (l.entered.map (·.call.sync)).Nodup := by
  obtain ⟨run, hrun⟩ := hr.exists_run
  have horderly := hr.orderly
  have hsound := (hrun.sound hids).1
  have hkey : ∀ e ∈ l.entered,
      (l.state.senders e.sender).key? = some (e.call.slot, e.call.sync) :=
    fun e he => (Sender.key?_of_call? (horderly.past e he)).trans rfl
  refine horderly.once.of_map _ |>.map_on ?_
  intro e he e' he' heq
  -- the same id means the same slot, hence the same sender, hence the same entry of the list
  obtain ⟨hlt, hsync⟩ := hsound.keys e.sender _ (hkey e he)
  obtain ⟨hlt', hsync'⟩ := hsound.keys e'.sender _ (hkey e' he')
  have hslot : e.call.slot = e'.call.slot := by
    refine SyncIds.nth_inj (g := g) (by omega) (by omega) ?_
    rw [← hsync, ← hsync', heq]
  have hsender : e.sender = e'.sender := by
    refine hsound.apart _ _ _ (hkey e he) ?_
    rw [hkey e' he', hslot, heq]
  exact List.inj_on_of_nodup_map horderly.once he he' hsender

/-- The stream out is never torn, reordered or duplicated.  Whenever senders time out or go away and
however few octets the stream accepts at a time, what has been written is a beginning of the frames
that have entered the outbox, in the order in which they entered it, each sender's at most once.  So
the other end understands exactly the requests whose frames have been written to their end, in that
order and under different ids, and waits for what is left of the next. -/
theorem written_in_order (hr : Run (start address greeting g left) l) :
    l.written <+: l.frames.flatten ∧
    (l.entered.map (·.sender)).Nodup ∧
    (∀ e ∈ l.entered, Frame.encode ⟨e.call.sync, .request e.call.request.code, none⟩
        e.call.request.body = .ok e.frame ∧
      (l.state.senders e.sender).call? = some { e.call with progress := .accepted }) ∧
    (∃ n cut, Frame.IsCut l.frames l.written n cut ∧
      ((∀ e ∈ l.entered, e.call.request.body = [] ∨ MessagePack.IsValue e.call.request.body) →
        (Frame.drain l.written).messages.map Prod.fst = (l.entered.take n).map Entered.message ∧
        (Frame.drain l.written).rest = cut ∧ (Frame.drain l.written).fault = none)) ∧
    (l.state.table.slots.size ≤ SyncIds.cycle → (l.entered.map (·.call.sync)).Nodup) := by
  have h := hr.orderly
  refine ⟨h.isPrefix, h.once, fun e he => ⟨h.encoded e he, h.past e he⟩, ?_, hr.nodup_syncs⟩
  obtain ⟨n, cut, hcut⟩ := Frame.exists_isCut h.isPrefix
  refine ⟨n, cut, hcut, fun hbodies => ?_⟩
  rw [List.map_take]
  exact hcut.drain_eq (h.carries hbodies)

/-- The caller gives up when three octets of its frame have been written.  The rest of it is written
nevertheless. -/
theorem written_in_order_late_timer :
    ∃ l call, Run (start default default .start []) l ∧
      l.state.senders 0 = .leaving call (some (.error (.requestTimeout 1 5))) ∧
      (Frame.drain l.written).messages.map Prod.fst = [⟨⟨1, .request .ping, none⟩, [0x80]⟩] ∧
      (Frame.drain l.written).rest = [] := by
  have h₁ := Run.nil.snoc (.sender (l := start default default .start []) (by nofun)
    (.of_sender (k := 0) rfl
      (.checked rfl : Sender.Step _ _ _ (.check ⟨.ping, [0x80], none⟩ (.ofMillis 5)) _ _)))
  have h₂ := h₁.snoc (.sender (by nofun) (.of_sender (k := 0) rfl
    (.registered : Sender.Step _ _ _ (.register 5) _ _)))
  have h₃ := h₂.snoc (.sender (by nofun) (.of_sender (k := 0) rfl (.cleared rfl rfl)))
  have h₄ := h₃.snoc (.sender (by nofun) (.of_sender (k := 0) rfl (.queued rfl rfl)))
  have h₅ := h₄.snoc (.enters rfl rfl (.of_sender (k := 0) rfl (.accepted rfl rfl)))
  have h₆ := h₅.snoc (.pops rfl rfl rfl (.writer (.popped rfl)))
  have h₇ := h₆.snoc (.writes 3 rfl)
  have h₈ := h₇.snoc (.sender (by nofun) (.of_sender (k := 0) rfl (.expired trivial rfl)))
  have h := h₈.snoc (.writes 100 rfl)
  obtain ⟨-, -, -, ⟨n, cut, hcut, hdrain⟩, -⟩ := written_in_order h
  have hvalue : MessagePack.IsValue [0x80] := MessagePack.isValue_iff.mpr ⟨_, rfl⟩
  obtain ⟨hmessages, hrest, -⟩ := hdrain fun e he => by
    rw [List.mem_singleton.mp he]
    exact .inr hvalue
  have hle : n ≤ 1 := hcut.le
  have hone : n = 1 := by
    by_contra hne
    obtain rfl : n = 0 := by omega
    obtain ⟨behind, hbehind, hpart⟩ := hcut.part _ rfl
    -- what has been written is the whole frame
    have hwhole : cut ++ behind = cut := hpart.trans hcut.eq
    exact hbehind (List.append_right_eq_self.mp hwhole)
  subst hone
  refine ⟨_, _, h, rfl, hmessages.trans rfl, ?_⟩
  rw [hrest]
  exact hcut.last rfl

end Channel

end Switchboard.Interleaving
