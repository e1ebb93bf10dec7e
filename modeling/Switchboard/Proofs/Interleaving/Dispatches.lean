import Switchboard.Proofs.Interleaving.Activities
import Switchboard.Proofs.Interleaving.Callers

/-!
# Dispatched requests

A request goes through a connection, a pool or the manager, and is sent again as its policy allows,
each time on the connection that is picked then.  All connections of the world fit their channels
meanwhile, so whatever comes of the last attempt is of one of the three kinds.

## Main definitions

- `Interleaving.Fitting` — each connection of a world has its channel
- `Interleaving.Onward`, `Interleaving.GoesOn` — the channels go on as an activity does
- `Simulation.Classified` — a result of one of the three kinds

## Main statements

- `Simulation.Attempt.enter_onward` — a connection comes into service
- `Simulation.Dispatching.Phase.Stands.onward` — nobody else moves a request
- `Simulation.Operation.start_request_goesOn`, `Simulation.Work.poll_requesting_goesOn` — how
  requests end
-/

namespace Switchboard

namespace Interleaving

open Simulation

/-! ### All connections of a world -/

/-- Each connection of the world has its channel. -/
def Fitting (w : World) (ls : ℕ → Channel) : Prop :=
  ∀ c < w.links.size, Channel.Fits c w (ls c)

/-- The channels have gone on as the world has.  Their parties stay where they are, except for at
most one; connections may have come. -/
structure Onward (own : Option (ℕ × Role)) (w : World) (ls : ℕ → Channel) (w' : World)
    (ls' : ℕ → Channel) : Prop where
  size : w.links.size ≤ w'.links.size
  stamp : w.stamp ≤ w'.stamp
  fitting : Fitting w' ls'
  runs : ∀ c < w.links.size, (ls c).Run (ls' c)
  keeps : ∀ c < w.links.size, ∀ r, own ≠ some (c, r) → (ls c).Keeps (ls' c) r

variable {own : Option (ℕ × Role)} {w w' w'' : World} {ls ls' ls'' : ℕ → Channel}

/-- Nothing changes that concerns connections. -/
theorem Onward.of_links (hfits : Fitting w ls) (links : w'.links = w.links)
    (stamp : w.stamp ≤ w'.stamp) : Onward own w ls w' ls := by
  have hsize : w.links.size = w'.links.size := congrArg _ links.symm
  refine ⟨Nat.le_of_eq hsize, stamp, fun c hc => ?_, fun _ _ => .nil,
    fun c _ r _ => (ls c).keeps_refl r⟩
  refine (hfits c (hsize ▸ hc)).of_eq (Nat.le_of_eq hsize) stamp ?_
  rw [World.connection, World.connection, links]

theorem Onward.of_untouched (hfits : Fitting w ls) (h : Untouched w w') :
    Onward own w ls w' ls :=
  .of_links hfits h.links h.stamp

theorem Onward.refl (hfits : Fitting w ls) : Onward own w ls w ls :=
  .of_links hfits rfl (Nat.le_refl _)

/-- A connection comes into service. -/
theorem Onward.opened (hfits : Fitting w ls) (link : Link) {address : Address}
    {greeting : Wire.Greeting} {syncs : SyncIds} (hlink : link.core = .opened address greeting syncs)
    (left : Octets) :
    Onward none w ls { w with links := w.links.push link }
      (Function.update ls w.links.size (.start address greeting syncs left)) := by
  have hsize : (w.links.push link).size = w.links.size + 1 := Array.size_push ..
  refine ⟨hsize ▸ Nat.le_succ _, Nat.le_refl _, ?_, fun c hc => ?_, fun c hc r _ => ?_⟩
  · refine (Function.forall_update_iff ls fun c l => c < (w.links.push link).size →
      Channel.Fits c { w with links := w.links.push link } l).mpr ⟨fun _ => ?_, ?_⟩
    · exact Channel.fits_opened link hlink left
    · intro c hne hc
      have hold : c < w.links.size := by omega
      refine (hfits c hold).of_eq (hsize ▸ Nat.le_succ _) (Nat.le_refl _) ?_
      simp [World.connection, Array.getD_eq_getD_getElem?, Array.getElem?_push, hne]
  · rw [Function.update_of_ne (Nat.ne_of_lt hc)]
    exact .nil
  · rw [Function.update_of_ne (Nat.ne_of_lt hc)]
    exact (ls c).keeps_refl r

theorem Onward.trans (h : Onward own w ls w' ls') (h' : Onward own w' ls' w'' ls'') :
    Onward own w ls w'' ls'' := by
  refine ⟨Nat.le_trans h.size h'.size, Nat.le_trans h.stamp h'.stamp, h'.fitting, ?_, ?_⟩
  · exact fun c hc => (h.runs c hc).trans (h'.runs c (Nat.lt_of_lt_of_le hc h.size))
  · intro c hc r hr
    exact (h.keeps c hc r hr).trans (h'.keeps c (Nat.lt_of_lt_of_le hc h.size) r hr)

theorem Onward.of_none (own : Option (ℕ × Role)) (h : Onward none w ls w' ls') :
    Onward own w ls w' ls' :=
  ⟨h.size, h.stamp, h.fitting, h.runs, fun c hc r _ => h.keeps c hc r nofun⟩

/-- A sender that has not begun before is nobody to be missed. -/
theorem Onward.fresh {c k : ℕ} (h : Onward (some (c, .sender k)) w ls w' ls')
    (hidle : (ls c).state.senders k = .idle) : Onward none w ls w' ls' := by
  refine ⟨h.size, h.stamp, h.fitting, h.runs, fun d hd r _ => ?_⟩
  by_cases heq : (d, r) = (c, .sender k)
  · cases heq
    exact fun hbegun => absurd hidle hbegun
  · exact h.keeps d hd r fun h => heq (Option.some.inj h).symm

/-- One channel goes on, and the others stay as they are. -/
theorem Channel.Moves.onward {c : ℕ} {own : Option Role} {P Q : Channel → Prop}
    (h : Channel.Moves c own w P w' Q) (hfits : Fitting w ls) (hc : c < w.links.size)
    (hP : P (ls c)) :
    ∃ ls', Onward (own.map (c, ·)) w ls w' ls' ∧ Q (ls' c) := by
  obtain ⟨l', hrun, hl', hQ, hkeeps⟩ := h.run (ls c) (hfits c hc) hP
  refine ⟨Function.update ls c l', ⟨Nat.le_of_eq h.size.symm, h.stamp, ?_, ?_, ?_⟩, ?_⟩
  · refine (Function.forall_update_iff ls fun d l => d < w'.links.size → Fits d w' l).mpr ?_
    exact ⟨fun _ => hl', fun d hd hlt => (hfits d (h.size ▸ hlt)).of_only hd.symm h.toOnly⟩
  · refine (Function.forall_update_iff ls fun d l => d < w.links.size → Run (ls d) l).mpr ?_
    exact ⟨fun _ => hrun, fun _ _ _ => .nil⟩
  · refine (Function.forall_update_iff ls fun d l => d < w.links.size → ∀ r,
      own.map (c, ·) ≠ some (d, r) → Keeps (ls d) l r).mpr ⟨fun _ r hr => ?_, ?_⟩
    · exact hkeeps r fun heq => hr (congrArg (Option.map (c, ·)) heq)
    · exact fun d _ _ r _ => (ls d).keeps_refl r
  · rwa [Function.update_self]

/-! ### Activities that go on -/

/-- An activity has had the chance to go on, and the channels have gone on with it.  If it waits the
first predicate holds of it, if it has ended the second one does. -/
inductive GoesOn {σ α : Type} (own : Option (ℕ × Role)) (w : World) (ls : ℕ → Channel)
    (stands : σ → World → (ℕ → Channel) → Prop) (ends : α → (ℕ → Channel) → Prop) :
    Simulation.Progress σ α × World → Prop
  | waits {r events w' ls'} (onward : Onward own w ls w' ls') (holds : stands r w' ls') :
    GoesOn own w ls stands ends (.wait r events, w')
  | done {a w' ls'} (onward : Onward own w ls w' ls') (holds : ends a ls') :
    GoesOn own w ls stands ends (.done a, w')

section

variable {σ τ α β : Type} {stands : σ → World → (ℕ → Channel) → Prop}
  {stands' : τ → World → (ℕ → Channel) → Prop} {ends : α → (ℕ → Channel) → Prop}
  {ends' : β → (ℕ → Channel) → Prop} {result : Simulation.Progress σ α × World}

theorem GoesOn.head (first : Onward own w ls w' ls') (rest : GoesOn own w' ls' stands ends result) :
    GoesOn own w ls stands ends result := by
  cases rest with
  | waits onward holds => exact .waits (first.trans onward) holds
  | done onward holds => exact .done (first.trans onward) holds

theorem GoesOn.imp {own' : Option (ℕ × Role)} (h : GoesOn own w ls stands ends result)
    (himp : ∀ w' ls', Onward own w ls w' ls' → Onward own' w ls w' ls') :
    GoesOn own' w ls stands ends result := by
  cases h with
  | waits onward holds => exact .waits (himp _ _ onward) holds
  | done onward holds => exact .done (himp _ _ onward) holds

theorem GoesOn.andThen {step : Sim (Simulation.Progress σ α)} {waiting : σ → τ}
    {next : α → Sim (Simulation.Progress τ β)} (h : GoesOn own w ls stands ends (step.run w))
    (hwait : ∀ r w ls, stands r w ls → stands' (waiting r) w ls)
    (hnext : ∀ a w' ls', Fitting w' ls' → ends a ls' →
      GoesOn own w' ls' stands' ends' ((next a).run w')) :
    GoesOn own w ls stands' ends' ((Progress.andThen step waiting next).run w) := by
  rw [Progress.andThen, run_bind]
  generalize step.run w = result at h
  cases h with
  | waits onward holds => exact .waits onward (hwait _ _ _ holds)
  | done onward holds => exact .head onward (hnext _ _ _ onward.fitting holds)

/-- Whatever accompanies an activity on one connection. -/
theorem Channel.Accompanies.goesOn {c : ℕ} {own : Option Role} {before : Channel → Prop}
    {stands : σ → Channel → Prop} {ends : α → Channel → Prop}
    (h : Channel.Accompanies c own w before stands ends result) (hfits : Fitting w ls)
    (hc : c < w.links.size) (hbefore : before (ls c)) :
    GoesOn (own.map (c, ·)) w ls (fun r _ ls => stands r (ls c)) (fun a ls => ends a (ls c))
      result := by
  cases h with
  | waits moves =>
    obtain ⟨ls', honward, hstands⟩ := moves.onward hfits hc hbefore
    exact .waits honward hstands
  | done moves =>
    obtain ⟨ls', honward, hends⟩ := moves.onward hfits hc hbefore
    exact .done honward hends

end

end Interleaving

namespace Simulation

open Interleaving

variable {own : Option (ℕ × Role)} {w w' : World} {ls ls' : ℕ → Channel} {request : Request}

/-! ### Connections that come into service -/

/-- A connection comes into service with nothing but what its reader begins with. -/
theorem Attempt.enter_onward (address : Address) (serial : ℕ) (greeting : Wire.Greeting)
    (syncs : SyncIds) (buffer : Octets) (hfits : Fitting w ls) :
    ∃ w' ls', (enter address serial greeting syncs buffer).run w =
        (.done (.ok w.links.size), w') ∧
      Onward none w ls w' ls' ∧ ls' w.links.size = .start address greeting syncs buffer := by
  have hheld := (untouched_withPipe serial fun p => ((), { p with holders := 2 })).holds w
  have hspawned := untouched_spawn_pumps w.links.size buffer
  rw [enter, run_get_bind]
  dsimp only
  rw [run_bind, run_bind]
  generalize ((withPipe serial fun p => ((), { p with holders := 2 })).run w).2 = w₁ at hheld
  have hsize : w₁.links.size = w.links.size := congrArg _ hheld.links
  have hready : Onward none w ls w₁ ls := .of_untouched hfits hheld
  have hopened := hready.trans
    (.opened hready.fitting ⟨.opened address greeting syncs, serial, none⟩ rfl buffer)
  rw [hsize] at hopened
  refine ⟨_, _, rfl, hopened.trans (.of_untouched hopened.fitting (hspawned.holds _)), ?_⟩
  exact Function.update_self ..

/-! ### Picking a connection -/

theorem isNetwork_of_pick {route : Route} {fault : Fault}
    (h : ((pick route).run w).1 = .error fault) : fault.isNetwork = true := by
  by_cases hcluster : route = .cluster → w.cluster.isSome
  · have hpicks := picks_pick route w hcluster
    rw [h] at hpicks
    exact hpicks.isNetwork
  · obtain ⟨rfl, hnone⟩ := Classical.not_imp.mp hcluster
    rw [pick, run_bind, selectPool, run_get_bind, Option.not_isSome_iff_eq_none.mp hnone] at h
    cases h
    rfl

theorem onward_acquire (hfits : Fitting w ls) (p : ℕ) :
    Onward none w ls ((acquire p).run w).2 ls :=
  .of_links hfits rfl (Nat.le_refl _)

theorem onward_pick (hfits : Fitting w ls) (route : Route) :
    Onward none w ls ((pick route).run w).2 ls := by
  cases route with
  | connection c => exact .refl hfits
  | pool p => exact onward_acquire hfits p
  | cluster =>
    have hselected : Onward none w ls (selectPool.run w).2 ls := by
      rw [selectPool, run_get_bind]
      cases w.cluster <;> exact .of_links hfits rfl (Nat.le_refl _)
    rw [pick, run_bind]
    generalize selectPool.run w = selected at hselected
    obtain ⟨fault | p, w'⟩ := selected
    · exact hselected
    · exact hselected.trans (onward_acquire hselected.fitting p)

/-! ### Attempts -/

/-- How an attempt to send a request ends: with a lawful outcome of a call for it, or without a
call. -/
inductive Ended (request : Request) : Outcome → (ℕ → Channel) → Prop
  | called {outcome ls c k call} (sender : ((ls c).state.senders k).call? = some call)
    (asked : call.request = request) (lawful : Lawful (ls c).messages call.sync outcome) :
    Ended request outcome ls
  | network {fault ls} (network : fault.isNetwork = true) : Ended request (.error fault) ls

/-- Where a request is whose attempt waits. -/
def Dispatching.Phase.Stands (request : Request) : Phase → World → (ℕ → Channel) → Prop
  | .sending _ s, w, ls =>
    s.connection < w.links.size ∧ s.ticket < w.stamp ∧ Sending.Stands request s (ls s.connection)
  | .pausing _, _, _ => True

/-- The party that a request has on a connection. -/
def Dispatching.Phase.role? : Phase → Option (ℕ × Role)
  | .sending _ s => some (s.connection, .sender s.ticket)
  | .pausing _ => none

/-- Nobody else moves a request. -/
theorem Dispatching.Phase.Stands.onward {phase : Phase} (h : phase.Stands request w ls)
    (honward : Onward own w ls w' ls') (hother : phase.role? ≠ none → own ≠ phase.role?) :
    phase.Stands request w' ls' := by
  cases phase with
  | pausing => trivial
  | sending pool s =>
    obtain ⟨hc, hk, hstands⟩ := h
    refine ⟨Nat.lt_of_lt_of_le hc honward.size, Nat.lt_of_lt_of_le hk honward.stamp, ?_⟩
    refine (honward.keeps _ hc _ (hother nofun) ?_).trans hstands
    rw [hstands]
    nofun

theorem Sending.Ends.ended {s : Sending} {outcome : Outcome} (hfits : Fitting w ls)
    (hc : s.connection < w.links.size) (h : Ends request s outcome (ls s.connection)) :
    Ended request outcome ls := by
  have hlawful := h.lawful (hfits _ hc)
  obtain ⟨call, hasked, hsync, hgone | ⟨hgone, -⟩⟩ := h <;>
    exact .called (congrArg Interleaving.Sender.call? hgone) hasked (hsync ▸ hlawful)

/-- An attempt goes on. -/
theorem Sending.poll_goesOn {s : Sending} {pool : Option ℕ} (hfits : Fitting w ls)
    (h : Dispatching.Phase.Stands request (.sending pool s) w ls) :
    GoesOn (some (s.connection, .sender s.ticket)) w ls
      (fun s' => Dispatching.Phase.Stands request (.sending pool s')) (Ended request)
      (s.poll.run w) := by
  obtain ⟨hc, hk, hstands⟩ := h
  have hpolled := (poll_accompanies request hc hk).goesOn hfits hc hstands
  generalize s.poll.run w = result at hpolled
  cases hpolled with
  | @waits s' _ _ _ onward holds =>
    obtain ⟨hconnection, hticket, hstands'⟩ := holds
    refine .waits onward ⟨?_, ?_, hconnection ▸ hstands'⟩
    · exact hconnection ▸ Nat.lt_of_lt_of_le hc onward.size
    · exact hticket ▸ Nat.lt_of_lt_of_le hk onward.stamp
  | done onward holds =>
    exact .done onward (holds.ended onward.fitting (Nat.lt_of_lt_of_le hc onward.size))

/-- A connection that does not exist is out of service. -/
theorem Sending.run_start_of_ge {c : ℕ} (hc : w.links.size ≤ c) (request : Request)
    (standard : Duration) :
    ∃ fault, fault.isNetwork = true ∧ (start c request standard).run w = (.error fault, w) := by
  have hdefault : w.links.getD c default = default := by
    rw [Array.getD_eq_getD_getElem?, Array.getElem?_eq_none hc]
    rfl
  rw [start, run_link_bind, hdefault]
  exact ⟨_, rfl, rfl⟩

namespace Dispatching

variable {route : Route} {policy : Retry.Policy} {standard : Duration}

/-- An attempt begins, on whatever connection is picked. -/
theorem launch_goesOn (hfits : Fitting w ls) :
    GoesOn none w ls (Phase.Stands request) (Ended request)
      ((launch route request standard).run w) := by
  have hpicked := onward_pick hfits route
  have hnetwork := @isNetwork_of_pick w route
  rw [launch, run_bind]
  generalize (pick route).run w = picked at hpicked hnetwork
  obtain ⟨fault | ⟨c, pool⟩, w₁⟩ := picked
  · exact .done hpicked (.network (hnetwork rfl))
  refine .head hpicked ?_
  have hfits₁ : Fitting w₁ ls := hpicked.fitting
  dsimp only
  rw [run_bind]
  by_cases hc : c < w₁.links.size
  · have hstarts := Sending.start_starts hc request standard
    generalize (Sending.start c request standard).run w₁ = started at hstarts
    cases hstarts with
    | refused ready =>
      have hfault := Connection.isNetwork_of_readyFault? ready
      exact .done (.refl hfits₁) (.network hfault)
    | @failed fault w₂ call asked moves =>
      obtain ⟨ls', honward, hgone⟩ := moves.onward hfits₁ hc trivial
      obtain ⟨address, greeting, syncs, left, hbegun⟩ :=
        (honward.fitting c (Nat.lt_of_lt_of_le hc honward.size)).begun
      have hlawful := hbegun.resulting.results _ call _ (.inr hgone)
      exact .done honward (.called (congrArg Interleaving.Sender.call? hgone) asked hlawful)
    | @begun s w₂ connection ticket drawn moves =>
      subst connection
      obtain ⟨ls', honward, hstands⟩ := moves.onward hfits₁ hc trivial
      have hphase : Phase.Stands request (.sending pool s) w₂ ls' :=
        ⟨Nat.lt_of_lt_of_le hc honward.size, drawn, hstands⟩
      have hpolled := Sending.poll_goesOn honward.fitting hphase
      have hgoes := GoesOn.head (honward.of_none _) (hpolled.andThen (fun _ _ _ h => h)
        fun outcome w ls hfits hended => .done (.refl hfits) hended)
      -- to the others the sender is one that has not begun
      have hidle := (hfits₁ _ hc).fresh s.ticket (Nat.le_of_eq ticket.symm)
      exact hgoes.imp fun _ _ h => h.fresh hidle
  · obtain ⟨fault, hfault, hrun⟩ :=
      Sending.run_start_of_ge (Nat.le_of_not_lt hc) request standard
    rw [hrun]
    exact .done (.refl hfits₁) (.network hfault)

/-- Where a dispatched request is that waits. -/
def Stands (request : Request) (d : Dispatching) (w : World) (ls : ℕ → Channel) : Prop :=
  d.request = request ∧ d.phase.Stands request w ls

/-- An attempt and those that follow it, once it is known how one that has ended is followed. -/
theorem attemptFrom_goesOn_of {fuel : ℕ}
    (hsettle : ∀ {outcome w ls}, Fitting w ls → Ended request outcome ls → ∀ number,
      GoesOn none w ls (Stands request) (Ended request)
        ((settle route request policy standard fuel number outcome).run w))
    (hfits : Fitting w ls) (number : UInt32) :
    GoesOn none w ls (Stands request) (Ended request)
      ((attemptFrom route request policy standard fuel number).run w) := by
  have hlaunched : GoesOn none w ls (Phase.Stands request) (Ended request)
      ((launch route request standard).run w) := launch_goesOn hfits
  rw [attemptFrom, run_bind]
  generalize (launch route request standard).run w = launched at hlaunched
  cases hlaunched with
  | waits onward holds => exact .waits onward ⟨rfl, holds⟩
  | done onward holds => exact .head onward (hsettle onward.fitting holds number)

theorem settle_goesOn {outcome : Outcome} (hfits : Fitting w ls) (hended : Ended request outcome ls)
    (fuel : ℕ) (number : UInt32) :
    GoesOn none w ls (Stands request) (Ended request)
      ((settle route request policy standard fuel number outcome).run w) := by
  induction fuel generalizing number outcome w ls with
  | zero =>
    unfold settle
    cases outcome with
    | ok body => exact .done (.refl hfits) hended
    | error fault =>
      dsimp only
      cases policy.pauseAfter? fault number <;> exact .done (.refl hfits) hended
  | succ fuel ih =>
    unfold settle
    cases outcome with
    | ok body => exact .done (.refl hfits) hended
    | error fault =>
      dsimp only
      cases policy.pauseAfter? fault number with
      | none => exact .done (.refl hfits) hended
      | some pause =>
        have hchecked : Within Untouched (timerAfter pause.millisUp >>= Timer.check) :=
          .bind (.timerAfter _) untouched_check
        dsimp only
        rw [← bind_assoc, run_bind]
        have hpaused : Onward none w ls _ ls := .of_untouched hfits (hchecked.holds w)
        generalize (timerAfter pause.millisUp >>= Timer.check).run w = checked at hpaused
        obtain ⟨_ | t, w'⟩ := checked
        · exact .head hpaused (attemptFrom_goesOn_of ih hpaused.fitting _)
        · exact .waits hpaused ⟨rfl, trivial⟩

theorem attemptFrom_goesOn (hfits : Fitting w ls) (fuel : ℕ) (number : UInt32) :
    GoesOn none w ls (Stands request) (Ended request)
      ((attemptFrom route request policy standard fuel number).run w) :=
  attemptFrom_goesOn_of (fun hfits hended => settle_goesOn hfits hended fuel) hfits number

/-- A dispatched request goes on. -/
theorem poll_goesOn {d : Dispatching} (hfits : Fitting w ls) (h : d.Stands request w ls) :
    GoesOn d.phase.role? w ls (Stands request) (Ended request) (d.poll.run w) := by
  obtain ⟨rfl, hphase⟩ := h
  unfold poll
  cases hd : d.phase with
  | pausing t =>
    have hchecked : Onward none w ls _ ls := .of_untouched hfits ((untouched_check t).holds w)
    dsimp only
    rw [run_bind]
    generalize t.check.run w = checked at hchecked
    obtain ⟨_ | t, w'⟩ := checked
    · exact .head hchecked (attemptFrom_goesOn hchecked.fitting ..)
    · exact .waits hchecked ⟨rfl, trivial⟩
  | sending pool s =>
    rw [hd] at hphase
    refine (Sending.poll_goesOn hfits hphase).andThen (fun _ _ _ h => ⟨rfl, h⟩) ?_
    intro outcome w' ls' hfits' hended
    exact (settle_goesOn hfits' hended ..).imp fun _ _ h => h.of_none _

/-- The caller goes away. -/
theorem onward_cancel {d : Dispatching} (hfits : Fitting w ls) (h : d.Stands request w ls) :
    ∃ ls', Onward d.phase.role? w ls (d.cancel.run w).2 ls' := by
  obtain ⟨rfl, hphase⟩ := h
  unfold cancel
  cases hd : d.phase with
  | pausing t => exact ⟨ls, .refl hfits⟩
  | sending pool s =>
    rw [hd] at hphase
    obtain ⟨hc, hk, hstands⟩ := hphase
    obtain ⟨ls', honward, -⟩ := (Sending.moves_cancel d.request hc hk).onward hfits hc hstands
    exact ⟨ls', honward⟩

end Dispatching

/-! ### Results -/

/-- A result of one of the three kinds: a value, an error of the server that it has sent in reply to
a call for the request, or a fault of the network. -/
inductive Classified (request : Request) : Except Fault Payload → (ℕ → Channel) → Prop
  | value {payload ls} : Classified request (.ok payload) ls
  | answered {ls c k call m code detail} (sender : ((ls c).state.senders k).call? = some call)
    (asked : call.request = request) (mem : m ∈ (ls c).messages) (id : m.header.sync = call.sync)
    (isError : m.header.code = .error code) : Classified request (.error (.server code detail)) ls
  | network {fault ls} (network : fault.isNetwork = true) : Classified request (.error fault) ls

theorem Ended.classified {outcome : Outcome} (h : Ended request outcome ls) (reading : Reading) :
    Classified request (reading.read outcome) ls := by
  cases h with
  | called sender asked lawful =>
    rcases lawful.read reading with ⟨payload, heq⟩ | ⟨m, code, detail, mem, id, isError, heq⟩ |
      ⟨fault, heq, hnetwork⟩ <;> rw [heq]
    · exact .value
    · exact .answered sender asked mem id isError
    · exact .network hnetwork
  | @network fault _ hnetwork =>
    have heq : reading.read (.error fault) = .error fault := by cases reading <;> rfl
    rw [heq]
    exact .network hnetwork

/-- Where the work on a request is that waits. -/
def Work.Requests (request : Request) (work : Work) (w : World) (ls : ℕ → Channel) : Prop :=
  ∃ reading d, work = .requesting reading d ∧ Dispatching.Stands request d w ls

/-- What a request is answered. -/
def Answer.Concludes (request : Request) (answer : Answer) (ls : ℕ → Channel) : Prop :=
  ∃ result, answer = .result result ∧ Classified request result ls

theorem Work.awaitRequest_goesOn {step : Dispatching.Step}
    (h : GoesOn own w ls (Dispatching.Stands request) (Ended request) (step.run w))
    (reading : Reading) :
    GoesOn own w ls (Work.Requests request) (Answer.Concludes request)
      ((awaitRequest reading step).run w) := by
  refine h.andThen (fun d _ _ hd => ⟨reading, d, rfl, hd⟩) fun outcome w ls hfits hended => ?_
  exact .done (.refl hfits) ⟨_, rfl, hended.classified reading⟩

/-- Whoever makes a request through a connection, a pool or the manager waits, or has a result of
one of the three kinds. -/
theorem Operation.start_request_goesOn (hfits : Fitting w ls) (route : Route) (request : Request)
    (policy : Retry.Policy) (standard : Duration) (reading : Reading) :
    GoesOn none w ls (Work.Requests request) (Answer.Concludes request)
      ((start (.request route request policy standard reading)).run w) :=
  Work.awaitRequest_goesOn (Dispatching.attemptFrom_goesOn hfits ..) reading

/-- So it is whenever the request goes on, whatever has become of the connections meanwhile. -/
theorem Work.poll_requesting_goesOn {reading : Reading} {d : Dispatching} (hfits : Fitting w ls)
    (h : Dispatching.Stands request d w ls) :
    GoesOn d.phase.role? w ls (Work.Requests request) (Answer.Concludes request)
      ((poll (.requesting reading d)).run w) :=
  awaitRequest_goesOn (Dispatching.poll_goesOn hfits h) reading

end Simulation

end Switchboard
