import Switchboard.Proofs.Interleaving.Alone
import Switchboard.Proofs.Worlds
import Switchboard.Simulation.Pump

/-!
# Connections in a world

Activities change a connection in a world by whole operations.  A channel fits the world if nobody
is in the middle of one; each operation of an activity is then a run of the channel, in which the
other parties stay where they are.

## Main definitions

- `Interleaving.Channel.Fits` — a channel is in the state that a connection in a world is in
- `Interleaving.Role` — a party, as seen by the others
- `Interleaving.Only` — no other connection changes
- `Interleaving.Channel.Moves` — a party goes on while the world changes

## Main statements

- `Interleaving.Channel.Moves.trans`, `Interleaving.Channel.Moves.consequence` — structural rules
- `Interleaving.Channel.fits_opened` — a connection that has just come into service

## Design notes

What is said of a party is a predicate on the channel, before and after.  So activities can be
followed one operation at a time, and those of different parties in any order.
-/

namespace Switchboard

namespace Simulation

/-- The state that the users of the connection with the number share. -/
def World.connection (w : World) (c : ℕ) : Connection :=
  (w.links.getD c default).core

theorem Untouched.connection {w w' : World} (h : Untouched w w') (c : ℕ) :
    w'.connection c = w.connection c := by
  rw [World.connection, World.connection, h.links]

end Simulation

namespace Interleaving

open Simulation

/-! ### Worlds that differ in one connection -/

/-- No other connection has changed, and no ticket comes back. -/
structure Only (c : ℕ) (w w' : World) : Prop where
  size : w'.links.size = w.links.size
  stamp : w.stamp ≤ w'.stamp
  others : ∀ d ≠ c, w'.connection d = w.connection d

instance (c : ℕ) : IsPreorder World (Only c) where
  refl _ := ⟨rfl, Nat.le_refl _, fun _ _ => rfl⟩
  trans _ _ _ h h' := ⟨h'.size.trans h.size, Nat.le_trans h.stamp h'.stamp,
    fun d hd => (h'.others d hd).trans (h.others d hd)⟩

variable {c d : ℕ} {w w' w'' : World}

theorem Only.of_untouched (h : Untouched w w') : Only c w w' :=
  ⟨congrArg _ h.links, h.stamp, fun d _ => h.connection d⟩

theorem only_setLink (c : ℕ) (l : Link) (w : World) : Only c w ((setLink c l).run w).2 := by
  refine ⟨Array.size_setIfInBounds, Nat.le_refl _, fun d hd => ?_⟩
  show ((w.links.setIfInBounds c l).getD d default).core = _
  rw [Array.getD_eq_getD_getElem?, Array.getElem?_setIfInBounds_ne hd.symm, World.connection,
    Array.getD_eq_getD_getElem?]

theorem connection_setLink (hc : c < w.links.size) (l : Link) :
    ((setLink c l).run w).2.connection c = l.core := by
  show ((w.links.setIfInBounds c l).getD c default).core = _
  rw [Array.getD_eq_getD_getElem?, Array.getElem?_setIfInBounds_self_of_lt hc]
  rfl

/-- A party, as seen by the others. -/
inductive Role where
  | sender (k : ℕ)
  | reader
  | writer
  | ender (j : ℕ)

namespace Channel

/-! ### Channels that fit a world -/

/-- A channel that has come into service some time ago is in the state that the connection with the
number is in.  Nobody is in the middle of an operation, the tickets still to be handed out are those
of senders that have done nothing, and there are more who may end the connection. -/
structure Fits (c : ℕ) (w : World) (l : Channel) : Prop where
  known : c < w.links.size
  begun : ∃ address greeting syncs left, Run (start address greeting syncs left) l
  link : l.state.link = w.connection c
  hand : l.state.hand = none
  calm : ∀ j, (l.state.enders j).holding = none
  fresh : ∀ k, w.stamp ≤ k → l.state.senders k = .idle
  spare : ∃ n, ∀ j, n ≤ j → l.state.enders j = .idle

variable {l l' l'' : Channel} {k : ℕ}

/-- What does not concern the connection does not matter. -/
theorem Fits.of_eq (h : Fits c w l) (size : w.links.size ≤ w'.links.size)
    (stamp : w.stamp ≤ w'.stamp) (connection : w'.connection c = w.connection c) :
    Fits c w' l :=
  ⟨Nat.lt_of_lt_of_le h.known size, h.begun, h.link.trans connection.symm, h.hand, h.calm,
    fun k hk => h.fresh k (Nat.le_trans stamp hk), h.spare⟩

theorem Fits.of_untouched (h : Fits c w l) (rest : Untouched w w') : Fits c w' l :=
  h.of_eq (Nat.le_of_eq (congrArg _ rest.links.symm)) rest.stamp (rest.connection c)

theorem Fits.of_only (h : Fits c w l) (hd : d ≠ c) (honly : Only d w w') : Fits c w' l :=
  h.of_eq (Nat.le_of_eq honly.size.symm) honly.stamp (honly.others c hd.symm)

/-- A connection that has just come into service. -/
theorem fits_opened (link : Link) {address : Address} {greeting : Wire.Greeting} {syncs : SyncIds}
    (hlink : link.core = .opened address greeting syncs) (left : Octets) :
    Fits w.links.size { w with links := w.links.push link }
      (start address greeting syncs left) := by
  refine ⟨?_, ⟨address, greeting, syncs, left, .nil⟩, ?_, rfl, fun _ => rfl, fun _ _ => rfl,
    ⟨0, fun _ _ => rfl⟩⟩
  · rw [Array.size_push]
    exact Nat.lt_succ_self _
  · simp [World.connection, start, Interleaving.start, hlink]

/-! ### Parties that go on -/

/-- A party stands where it stood, once it has begun. -/
def Keeps (l l' : Channel) : Role → Prop
  | .sender k => l.state.senders k ≠ .idle → l'.state.senders k = l.state.senders k
  | .reader => l'.unread = l.unread
  | .writer => l'.rest = l.rest ∧ l'.state.link.outboxClosed = l.state.link.outboxClosed
  | .ender j => l.state.enders j ≠ .idle → l'.state.enders j = l.state.enders j

theorem keeps_refl (l : Channel) (r : Role) : l.Keeps l r := by
  cases r with
  | writer => exact ⟨rfl, rfl⟩
  | reader => exact rfl
  | sender | ender => exact fun _ => rfl

theorem Keeps.trans {r : Role} (h : l.Keeps l' r) (h' : l'.Keeps l'' r) : l.Keeps l'' r := by
  cases r with
  | writer => exact ⟨h'.1.trans h.1, h'.2.trans h.2⟩
  | reader => exact Eq.trans h' h
  | sender | ender =>
    intro hne
    have heq := h hne
    exact (h' (heq ▸ hne)).trans heq

/-- While the world changes a channel goes on from where the first predicate holds to where the
second one does.  Its parties stay where they are, except for at most one. -/
structure Moves (c : ℕ) (own : Option Role) (w : World) (before : Channel → Prop) (w' : World)
    (after : Channel → Prop) : Prop extends Only c w w' where
  run : ∀ l, Fits c w l → before l →
    ∃ l', Run l l' ∧ Fits c w' l' ∧ after l' ∧ ∀ r, own ≠ some r → l.Keeps l' r

namespace Moves

variable {own : Option Role} {P P' Q Q' R : Channel → Prop}

theorem trans (h : Moves c own w P w' Q) (h' : Moves c own w' Q w'' R) : Moves c own w P w'' R := by
  refine ⟨trans_of (Only c) h.toOnly h'.toOnly, fun l hl hP => ?_⟩
  obtain ⟨l₁, hrun₁, hl₁, hQ, hkeeps₁⟩ := h.run l hl hP
  obtain ⟨l₂, hrun₂, hl₂, hR, hkeeps₂⟩ := h'.run l₁ hl₁ hQ
  exact ⟨l₂, hrun₁.trans hrun₂, hl₂, hR, fun r hr => (hkeeps₁ r hr).trans (hkeeps₂ r hr)⟩

theorem consequence (h : Moves c own w P w' Q) (hP : ∀ l, P' l → P l) (hQ : ∀ l, Q l → Q' l) :
    Moves c own w P' w' Q' := by
  refine ⟨h.toOnly, fun l hl hP' => ?_⟩
  obtain ⟨l', hrun, hl', hafter, hkeeps⟩ := h.run l hl (hP l hP')
  exact ⟨l', hrun, hl', hQ l' hafter, hkeeps⟩

theorem of_none (own : Option Role) (h : Moves c none w P w' Q) : Moves c own w P w' Q := by
  refine ⟨h.toOnly, fun l hl hP => ?_⟩
  obtain ⟨l', hrun, hl', hQ, hkeeps⟩ := h.run l hl hP
  exact ⟨l', hrun, hl', hQ, fun r _ => hkeeps r nofun⟩

/-- Nothing changes that concerns connections. -/
theorem of_untouched (h : Untouched w w') : Moves c own w P w' P :=
  ⟨.of_untouched h, fun l hl hP =>
    ⟨l, .nil, hl.of_untouched h, hP, fun r _ => l.keeps_refl r⟩⟩

theorem refl : Moves c own w P w P :=
  .of_untouched (refl_of Untouched w)

end Moves

/-! ### The parties -/

/-- A sender takes steps. -/
theorem moves_sender {x y : Sender} (honly : Only c w w') (hk : k < w'.stamp)
    (h : ∀ l, Fits c w l → l.state.senders k = x →
      Sender.Alone k (w.connection c) x (w'.connection c) y) :
    Moves c (some (.sender k)) w (·.state.senders k = x) w' (·.state.senders k = y) := by
  refine ⟨honly, fun l hl hx => ?_⟩
  have halone := h l hl hx
  obtain ⟨entered, hrun⟩ := Run.of_sender halone hl.link hx
  refine ⟨_, hrun, ?_, State.setSender_self .., fun r hr => ?_⟩
  · obtain ⟨address, greeting, syncs, left, hbegun⟩ := hl.begun
    refine ⟨honly.size ▸ hl.known, ⟨_, _, _, _, hbegun.trans hrun⟩, rfl, hl.hand, hl.calm,
      fun j hj => ?_, hl.spare⟩
    -- the sender's own ticket has been handed out by now
    have hne : j ≠ k := Nat.ne_of_gt (Nat.lt_of_lt_of_le hk hj)
    exact (Function.update_of_ne hne ..).trans (hl.fresh j (Nat.le_trans honly.stamp hj))
  · cases r with
    | sender j =>
      have hne : j ≠ k := fun heq => hr (heq ▸ rfl)
      exact fun _ => Function.update_of_ne hne ..
    | reader => exact rfl
    | writer =>
      refine ⟨rfl, ?_⟩
      rw [hl.link]
      exact halone.outboxClosed
    | ender => exact fun _ => rfl

/-- A sender begins, under the next ticket. -/
theorem moves_fresh_sender {y : Sender} (honly : Only c w w') (hk : w.stamp < w'.stamp)
    (h : Sender.Alone w.stamp (w.connection c) .idle (w'.connection c) y) :
    Moves c none w (fun _ => True) w' (·.state.senders w.stamp = y) := by
  refine ⟨honly, fun l hl _ => ?_⟩
  have hidle := hl.fresh _ (Nat.le_refl _)
  obtain ⟨l', hrun, hl', hy, hkeeps⟩ := (moves_sender honly hk fun _ _ _ => h).run l hl hidle
  refine ⟨l', hrun, hl', hy, fun r _ => ?_⟩
  by_cases hr : r = .sender w.stamp
  · subst hr
    exact fun hbegun => absurd hidle hbegun
  · exact hkeeps r fun heq => hr (Option.some.inj heq).symm

/-- Somebody who ends the connection takes steps. -/
theorem run_ender {j : ℕ} {x y : Ender} (honly : Only c w w')
    (h : Ender.Alone (w.connection c) x (w'.connection c) y) (hy : y.holding = none)
    (hl : Fits c w l) (hx : l.state.enders j = x) :
    ∃ l', Run l l' ∧ Fits c w' l' ∧ l'.state.enders j = y ∧
      ∀ r, (x = .idle ∨ r ≠ .ender j) → l.Keeps l' r := by
  have hrun := Run.of_ender h hl.link hx
  refine ⟨_, hrun, ?_, State.setEnder_self .., fun r hr => ?_⟩
  · obtain ⟨address, greeting, syncs, left, hbegun⟩ := hl.begun
    refine ⟨honly.size ▸ hl.known, ⟨_, _, _, _, hbegun.trans hrun⟩, rfl, hl.hand, fun i => ?_,
      fun k hk => hl.fresh k (Nat.le_trans honly.stamp hk), ?_⟩
    · by_cases hi : i = j
      · subst hi
        exact (congrArg Ender.holding (State.setEnder_self ..)).trans hy
      · exact (congrArg Ender.holding (State.setEnder_of_ne hi ..)).trans (hl.calm i)
    · obtain ⟨n, hn⟩ := hl.spare
      -- the party may be one of those to spare
      refine ⟨max n (j + 1), fun i hi => ?_⟩
      have hne : i ≠ j := by omega
      exact (State.setEnder_of_ne hne ..).trans (hn i (by omega))
  · cases r with
    | sender => exact fun _ => rfl
    | reader => exact rfl
    | writer =>
      refine ⟨rfl, ?_⟩
      rw [hl.link]
      exact h.outboxClosed
    | ender i =>
      intro hne
      by_cases hi : i = j
      · subst hi
        exact absurd (hx.trans (hr.resolve_right fun h => h rfl)) hne
      · exact State.setEnder_of_ne hi ..

/-- Somebody who has done nothing yet ends the connection. -/
theorem moves_fresh_ender {y : Ender} (honly : Only c w w')
    (h : Ender.Alone (w.connection c) .idle (w'.connection c) y) (hy : y.holding = none) :
    Moves c none w (fun _ => True) w' (fun l => ∃ j, l.state.enders j = y) := by
  refine ⟨honly, fun l hl _ => ?_⟩
  obtain ⟨n, hn⟩ := hl.spare
  obtain ⟨l', hrun, hl', hy', hkeeps⟩ := run_ender honly h hy hl (hn n (Nat.le_refl n))
  exact ⟨l', hrun, hl', ⟨n, hy'⟩, fun r _ => hkeeps r (.inl rfl)⟩

theorem moves_ender {j : ℕ} {x y : Ender} (honly : Only c w w')
    (h : Ender.Alone (w.connection c) x (w'.connection c) y) (hy : y.holding = none) :
    Moves c (some (.ender j)) w (·.state.enders j = x) w' (·.state.enders j = y) := by
  refine ⟨honly, fun l hl hx => ?_⟩
  obtain ⟨l', hrun, hl', hy', hkeeps⟩ := run_ender honly h hy hl hx
  exact ⟨l', hrun, hl', hy', fun r hr => hkeeps r (.inr fun heq => hr (heq ▸ rfl))⟩

/-- The reader or the writer takes steps. -/
theorem moves_pump {own : Role} {P Q : Channel → Prop} (honly : Only c w w')
    (h : ∀ l, Fits c w l → P l → ∃ l', Run l l' ∧ Q l' ∧
      l'.state = { l.state with link := w'.connection c } ∧
      (own ≠ .reader → l.Keeps l' .reader) ∧ (own ≠ .writer → l.Keeps l' .writer)) :
    Moves c (some own) w P w' Q := by
  refine ⟨honly, fun l hl hP => ?_⟩
  obtain ⟨l', hrun, hQ, hstate, hreader, hwriter⟩ := h l hl hP
  refine ⟨l', hrun, ?_, hQ, fun r hr => ?_⟩
  · obtain ⟨address, greeting, syncs, left, hbegun⟩ := hl.begun
    refine ⟨honly.size ▸ hl.known, ⟨_, _, _, _, hbegun.trans hrun⟩, ?_, ?_, ?_, ?_, ?_⟩ <;>
      rw [hstate]
    · exact hl.hand
    · exact hl.calm
    · exact fun k hk => hl.fresh k (Nat.le_trans honly.stamp hk)
    · exact hl.spare
  · have hother : own ≠ r := fun heq => hr (heq ▸ rfl)
    cases r with
    | reader => exact hreader hother
    | writer => exact hwriter hother
    | sender | ender =>
      intro _
      rw [hstate]

/-- The reader delivers a reply. -/
theorem moves_complete {m : Wire.Message} {n : ℕ} {buffer : Octets} (honly : Only c w w')
    (hframe : Wire.Frame.decode buffer = .ok (some (m, n)))
    (hcore : w'.connection c = (w.connection c).complete m) :
    Moves c (some .reader) w (·.unread = buffer) w' (·.unread = buffer.drop n) := by
  refine moves_pump honly fun l hl hunread => ?_
  refine ⟨_, .complete hl.hand (hunread ▸ hframe), congrArg (List.drop n) hunread, ?_,
    absurd rfl, fun _ => ⟨rfl, rfl⟩⟩
  rw [hcore, ← hl.link]
  rfl

/-- Octets arrive. -/
theorem moves_arrive {buffer : Octets} (h : Untouched w w') (chunk : Octets) :
    Moves c (some .reader) w (·.unread = buffer) w' (·.unread = buffer ++ chunk) := by
  refine moves_pump (.of_untouched h) fun l hl hunread => ?_
  refine ⟨_, .snoc .nil (.arrives chunk), congrArg (· ++ chunk) hunread, ?_, absurd rfl,
    fun _ => ⟨rfl, rfl⟩⟩
  rw [h.connection, ← hl.link]
  rfl

/-- The writer has so many octets of a frame left, and goes on. -/
def Writing (rest : Octets) (l : Channel) : Prop :=
  l.rest = rest ∧ l.state.link.outboxClosed = false

/-- The writer takes the next frame out of the outbox. -/
theorem moves_pop {frame : Octets} {outbox : List Octets} (honly : Only c w w')
    (hwaits : (w.connection c).outbox = frame :: outbox)
    (hcore : w'.connection c = { w.connection c with outbox := outbox }) :
    Moves c (some .writer) w (Writing []) w' (Writing frame) := by
  refine moves_pump honly fun l hl hwriting => ?_
  have houtbox : l.state.link.outbox = frame :: outbox := hl.link ▸ hwaits
  have hpops := Step.pops hwriting.1 hwriting.2 houtbox (.writer (.popped houtbox))
  refine ⟨_, .snoc .nil hpops, ⟨rfl, hwriting.2⟩, ?_, fun _ => rfl, absurd rfl⟩
  rw [hcore, ← hl.link]
  rfl

/-- The stream accepts octets. -/
theorem moves_write {rest : Octets} (h : Untouched w w') (count : ℕ) :
    Moves c (some .writer) w (Writing rest) w' (Writing (rest.drop count)) := by
  refine moves_pump (.of_untouched h) fun l hl hwriting => ?_
  refine ⟨_, .snoc .nil (.writes count hwriting.2), ⟨congrArg _ hwriting.1, hwriting.2⟩, ?_,
    fun _ => rfl, absurd rfl⟩
  rw [h.connection, ← hl.link]
  rfl

/-- The writer ends. -/
theorem moves_hangUp {P : Channel → Prop} (honly : Only c w w')
    (hcore : w'.connection c = { w.connection c with outboxClosed := true }) :
    Moves c (some .writer) w P w' (·.state.link.outboxClosed = true) := by
  refine moves_pump honly fun l hl _ => ?_
  refine ⟨_, .snoc .nil (.hangsUp (.writer .hungUp)), rfl, ?_, fun _ => rfl, absurd rfl⟩
  rw [hcore, ← hl.link]
  rfl

end Channel

end Interleaving

end Switchboard
