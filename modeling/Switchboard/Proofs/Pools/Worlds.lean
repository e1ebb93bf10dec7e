import Switchboard.Proofs.Pools.Invariant
import Switchboard.Proofs.Worlds
import Switchboard.Simulation.PoolWork

/-!
# Pools in a world

The parts of a world that the steps of those are about who use a pool, and what the operations of
activities do to them.

## Main definitions

- `Simulation.World.stock` — what those share who use a pool
- `Simulation.Elsewhere` — what happens is nothing that a party of the pool does
- `Simulation.Moves` — a party moves on while the world changes
- `Simulation.Tracks` — a state of the parties fits a world

## Main statements

- `Simulation.Moves.step` — one step of the party
- `Simulation.Moves.trans` — one after the other
- `Simulation.Moves.exists_run` — a run goes on as its party moves on
- `Simulation.moves_acquire`, `Simulation.moves_failConnection`, `Simulation.moves_elsewhere` — what
  others do to the pool and to connections
-/

namespace Switchboard

namespace Simulation

open Stocking

/-- What those share in a world who use a pool. -/
def World.stock (w : World) (p : ℕ) : Site :=
  ⟨(w.depots.getD p default).core, w.lock (.pool p), w.links.toList.map (·.core.stage),
    (w.depots.getD p default).abandoned⟩

variable {p k : ℕ} {w w' w'' : World}

theorem stage_stock (w : World) (p : ℕ) : (w.stock p).stage = w.stage := by
  funext n
  rw [World.stage, Site.stage, World.stock, List.getD_eq_getElem?_getD, List.getElem?_map,
    Array.getElem?_toList, Array.getD_eq_getD_getElem?]
  cases w.links[n]? <;> rfl

theorem length_stages_stock : (w.stock p).stages.length = w.links.size := by
  rw [World.stock, List.length_map, Array.length_toList]

theorem Untouched.stock (h : Untouched w w') (p : ℕ) : w'.stock p = w.stock p := by
  simp only [World.stock, World.lock, h.depots, h.links]

/-! ### What happens elsewhere -/

/-- What happens in the world is nothing that a party of the pool does. -/
def Elsewhere (q : ℕ) (w w' : World) : Prop :=
  ∀ s, s.site = w.stock q → ∃ s', Run s s' ∧ s'.site = w'.stock q ∧ s'.parties = s.parties

namespace Elsewhere

variable {q : ℕ}

theorem of_stock_eq (stock : w'.stock q = w.stock q) : Elsewhere q w w' :=
  fun s hs => ⟨s, .nil, hs.trans stock.symm, rfl⟩

theorem of_step (h : ∀ s, s.site = w.stock q → Step s (s.withSite (w'.stock q))) :
    Elsewhere q w w' :=
  fun s hs => ⟨_, .snoc .nil (h s hs), rfl, rfl⟩

theorem trans (h : Elsewhere q w w') (h' : Elsewhere q w' w'') : Elsewhere q w w'' := by
  intro s hs
  obtain ⟨s', hrun, hs', hparties⟩ := h s hs
  obtain ⟨s'', hrun', hs'', hparties'⟩ := h' s' hs'
  exact ⟨s'', hrun.trans hrun', hs'', hparties'.trans hparties⟩

end Elsewhere

/-! ### Parties on the move -/

/-- While the world changes a party of the pool moves on, and all others stay where they are, those
of other pools too. -/
structure Moves (p k : ℕ) (w : World) (x : Party) (w' : World) (y : Party) : Prop where
  size : w'.depots.size = w.depots.size
  stamp : w.stamp ≤ w'.stamp
  run : ∀ s, s.site = w.stock p → s.parties k = x →
    ∃ s', Run s s' ∧ s'.site = w'.stock p ∧ s'.parties k = y ∧ ∀ j ≠ k, s'.parties j = s.parties j
  others : (∃ s, Reachable s ∧ s.site = w.stock p ∧ s.parties k = x) →
    ∀ q ≠ p, Elsewhere q w w'

namespace Moves

variable {x y z : Party}

theorem trans (h : Moves p k w x w' y) (h' : Moves p k w' y w'' z) : Moves p k w x w'' z := by
  refine ⟨h'.size.trans h.size, Nat.le_trans h.stamp h'.stamp, fun s hs hx => ?_, ?_⟩
  · obtain ⟨s', hrun, hs', hy, hothers⟩ := h.run s hs hx
    obtain ⟨s'', hrun', hs'', hz, hothers'⟩ := h'.run s' hs' hy
    exact ⟨s'', hrun.trans hrun', hs'', hz, fun j hj => (hothers' j hj).trans (hothers j hj)⟩
  · rintro ⟨s, hreach, hs, hx⟩ q hq
    obtain ⟨s', hrun, hs', hy, -⟩ := h.run s hs hx
    exact (h.others ⟨s, hreach, hs, hx⟩ q hq).trans
      (h'.others ⟨s', hreach.run hrun, hs', hy⟩ q hq)

/-- Something happens that no party does. -/
theorem of_elsewhere (size : w'.depots.size = w.depots.size) (stamp : w.stamp ≤ w'.stamp)
    (h : ∀ q, Elsewhere q w w') : Moves p k w x w' x := by
  refine ⟨size, stamp, fun s hs hx => ?_, fun _ q _ => h q⟩
  obtain ⟨s', hrun, hs', hparties⟩ := h p s hs
  exact ⟨s', hrun, hs', hparties ▸ hx, fun j _ => hparties ▸ rfl⟩

theorem of_untouched (h : Untouched w w') : Moves p k w x w' x :=
  .of_elsewhere (congrArg _ h.depots) h.stamp fun q => .of_stock_eq (h.stock q)

theorem refl : Moves p k w x w x :=
  .of_elsewhere rfl (Nat.le_refl _) fun _ => .of_stock_eq rfl

/-- The party takes one step. -/
theorem step (size : w'.depots.size = w.depots.size) (stamp : w.stamp ≤ w'.stamp)
    (h : Party.Step (w.stock p) k x (w'.stock p) y)
    (others : (∃ s, Reachable s ∧ s.site = w.stock p ∧ s.parties k = x) →
      ∀ q ≠ p, Elsewhere q w w') : Moves p k w x w' y := by
  refine ⟨size, stamp, fun s hs hx => ⟨s.move k (w'.stock p) y, .snoc .nil ?_, rfl,
    State.move_self .., fun j hj => State.move_of_ne hj ..⟩, others⟩
  rw [← hs] at h
  exact .of_party hx h

/-- The party takes a step that changes nothing. -/
theorem stay (h : Party.Step (w.stock p) k x (w.stock p) y) : Moves p k w x w y :=
  .step rfl (Nat.le_refl _) h fun _ _ _ => .of_stock_eq rfl

end Moves

/-- A state of the parties fits a world: the tickets still to be handed out are those of parties
that have done nothing. -/
structure Tracks (p : ℕ) (w : World) (s : State) : Prop where
  known : p < w.depots.size
  site : s.site = w.stock p
  fresh : ∀ k, w.stamp ≤ k → s.parties k = .idle

theorem Tracks.of_untouched {s : State} (hs : Tracks p w s) (h : Untouched w w') :
    Tracks p w' s where
  known := h.depots ▸ hs.known
  site := hs.site.trans (h.stock p).symm
  fresh k hk := hs.fresh k (Nat.le_trans h.stamp hk)

/-- A run goes on as its party moves on, which may be known already under a ticket still to be
handed out. -/
theorem Moves.exists_run_of_fresh {x y : Party} {s : State} (h : Moves p k w x w' y)
    (known : p < w.depots.size) (site : s.site = w.stock p) (hx : s.parties k = x)
    (fresh : ∀ j ≠ k, w.stamp ≤ j → s.parties j = .idle) (hk : k < w'.stamp) :
    ∃ s', Run s s' ∧ Tracks p w' s' ∧ s'.parties k = y ∧ ∀ j ≠ k, s'.parties j = s.parties j := by
  obtain ⟨s', hrun, hsite, hy, hothers⟩ := h.run s site hx
  refine ⟨s', hrun, ⟨h.size ▸ known, hsite, fun j hj => ?_⟩, hy, hothers⟩
  have hne : j ≠ k := Nat.ne_of_gt (Nat.lt_of_lt_of_le hk hj)
  rw [hothers j hne]
  exact fresh j hne (Nat.le_trans h.stamp hj)

/-- A run goes on as its party moves on. -/
theorem Moves.exists_run {x y : Party} {s : State} (h : Moves p k w x w' y) (hs : Tracks p w s)
    (hx : s.parties k = x) (hk : k < w'.stamp) :
    ∃ s', Run s s' ∧ Tracks p w' s' ∧ s'.parties k = y ∧ ∀ j ≠ k, s'.parties j = s.parties j :=
  h.exists_run_of_fresh hs.known hs.site hx (fun j _ => hs.fresh j) hk

/-- A pool has just come to be. -/
theorem tracks_push (w : World) (address : Address) (config : ClientConfig) :
    Tracks w.depots.size { w with depots := w.depots.push { core := .empty address config } }
      (start address config (w.links.toList.map (·.core.stage))) := by
  refine ⟨?_, ?_, fun _ _ => rfl⟩
  · rw [Array.size_push]
    exact Nat.lt_succ_self _
  · simp [World.stock, World.lock, start]

/-! ### Pools, locks and connections -/

theorem stock_setDepot {d : Depot} (hp : p < w.depots.size) :
    ((setDepot p d).run w).2.stock p =
      { w.stock p with pool := d.core, lock := d.lock, abandoned := d.abandoned } := by
  have hset : (w.depots.setIfInBounds p d).getD p default = d := by
    rw [Array.getD_eq_getD_getElem?, Array.getElem?_setIfInBounds_self_of_lt hp]
    rfl
  show Site.mk ((w.depots.setIfInBounds p d).getD p default).core
    ((w.depots.setIfInBounds p d).getD p default).lock _
    ((w.depots.setIfInBounds p d).getD p default).abandoned = _
  rw [hset]
  rfl

theorem stock_setDepot_of_ne {q : ℕ} (h : q ≠ p) (d : Depot) :
    ((setDepot p d).run w).2.stock q = w.stock q := by
  have hset : (w.depots.setIfInBounds p d).getD q default = w.depots.getD q default := by
    simp only [Array.getD_eq_getD_getElem?, Array.getElem?_setIfInBounds_ne h.symm]
  show Site.mk ((w.depots.setIfInBounds p d).getD q default).core
    ((w.depots.setIfInBounds p d).getD q default).lock _
    ((w.depots.setIfInBounds p d).getD q default).abandoned = _
  rw [hset]
  rfl

theorem stock_setPool (hp : p < w.depots.size) (core : Pool) :
    ((setPool p core).run w).2.stock p = { w.stock p with pool := core } :=
  stock_setDepot hp

theorem stock_setPool_of_ne {q : ℕ} (h : q ≠ p) (core : Pool) :
    ((setPool p core).run w).2.stock q = w.stock q :=
  stock_setDepot_of_ne h _

theorem stock_setLock (hp : p < w.depots.size) (l : Lock) :
    ((setLock (.pool p) l).run w).2.stock p = { w.stock p with lock := l } := by
  have hset : (w.depots.modify p fun d => { d with lock := l }).getD p default =
      { w.depots.getD p default with lock := l } := by
    rw [Array.getD_eq_getD_getElem?, Array.getD_eq_getD_getElem?, Array.getElem?_modify, if_pos rfl,
      Array.getElem?_eq_getElem hp]
    rfl
  show Site.mk ((w.depots.modify p _).getD p default).core
    ((w.depots.modify p _).getD p default).lock _
    ((w.depots.modify p _).getD p default).abandoned = _
  rw [hset]
  rfl

theorem stock_setLock_of_ne {q : ℕ} (h : q ≠ p) (l : Lock) :
    ((setLock (.pool p) l).run w).2.stock q = w.stock q := by
  have hset : (w.depots.modify p fun d => { d with lock := l }).getD q default =
      w.depots.getD q default := by
    rw [Array.getD_eq_getD_getElem?, Array.getD_eq_getD_getElem?, Array.getElem?_modify,
      if_neg h.symm]
  show Site.mk ((w.depots.modify p _).getD q default).core
    ((w.depots.modify p _).getD q default).lock _
    ((w.depots.modify p _).getD q default).abandoned = _
  rw [hset]
  rfl

theorem size_setLock (l : Lock) :
    ((setLock (.pool p) l).run w).2.depots.size = w.depots.size :=
  Array.size_modify ..

theorem stock_setLink (c : ℕ) (l : Link) :
    ((setLink c l).run w).2.stock p = (w.stock p).setStage c l.core.stage := by
  show Site.mk _ _ ((w.links.setIfInBounds c l).toList.map _) _ = _
  rw [Array.toList_setIfInBounds, List.map_set]
  rfl

/-- A connection comes into service. -/
theorem stock_pushLink {l : Link} (ready : l.core.stage = .ready) :
    { w with links := w.links.push l }.stock p =
      { w.stock p with stages := (w.stock p).stages ++ [.ready] } := by
  simp only [World.stock, Array.toList_push, List.map_append, List.map_cons, ready]
  rfl

/-- The life of a connection goes on, if it changes at all. -/
theorem elsewhere_setConnection {q c : ℕ} {core : Connection}
    (next : c < w.links.size → core.stage = w.stage c ∨ Stage.Next (w.stage c) core.stage) :
    Elsewhere q w ((setConnection c core).run w).2 := by
  have hstock : ((setConnection c core).run w).2.stock q =
      (w.stock q).setStage c core.stage := stock_setLink ..
  by_cases hc : c < w.links.size
  · rcases next hc with hsame | hnext
    · refine .of_stock_eq (hstock.trans ?_)
      rw [← length_stages_stock (p := q)] at hc
      have hget : core.stage = (w.stock q).stages[c] := by
        rw [hsame, ← stage_stock w q, Site.stage, List.getD_eq_getElem _ _ hc]
      rw [Site.setStage, hget, List.set_getElem_self]
    · refine .of_step fun s hs => ?_
      rw [hstock, ← hs]
      refine .life ?_ ?_
      · rwa [hs, length_stages_stock]
      · rwa [hs, stage_stock]
  · refine .of_stock_eq (hstock.trans ?_)
    rw [Site.setStage, List.set_eq_of_length_le]
    rw [length_stages_stock]
    exact Nat.le_of_not_lt hc

/-- A connection comes into service that is not for the pool. -/
theorem elsewhere_pushLink {q : ℕ} {l : Link} (ready : l.core.stage = .ready) :
    Elsewhere q w { w with links := w.links.push l } := by
  refine .of_step fun s hs => ?_
  rw [stock_pushLink ready, ← hs]
  exact .elsewhere

section

variable {x y : Party}

theorem moves_setPool {core : Pool} (hp : p < w.depots.size)
    (h : Party.Step (w.stock p) k x { w.stock p with pool := core } y) :
    Moves p k w x ((setPool p core).run w).2 y := by
  rw [← stock_setPool hp] at h
  exact .step (Array.size_setIfInBounds ..) (Nat.le_refl _) h
    fun _ _ hq => .of_stock_eq (stock_setPool_of_ne hq _)

theorem moves_setConnection {c : ℕ} {core : Connection}
    (h : Party.Step (w.stock p) k x ((w.stock p).setStage c core.stage) y)
    (next : (∃ s, Reachable s ∧ s.site = w.stock p ∧ s.parties k = x) → c < w.links.size →
      core.stage = w.stage c ∨ Stage.Next (w.stage c) core.stage) :
    Moves p k w x ((setConnection c core).run w).2 y :=
  .step rfl (Nat.le_refl _) ((stock_setLink c _).symm ▸ h)
    fun hs _ _ => elsewhere_setConnection (next hs)

/-- The party asks for the lock under the next ticket. -/
theorem moves_requestLock (hp : p < w.depots.size)
    (h : Party.Step (w.stock p) w.stamp x
      { w.stock p with lock := (w.stock p).lock.request w.stamp } y) :
    Moves p w.stamp w x ((requestLock (.pool p)).run w).2 y := by
  rw [← stock_setLock hp] at h
  exact .step (size_setLock _) (Nat.le_succ _) h
    fun _ _ hq => .of_stock_eq (stock_setLock_of_ne hq _)

theorem moves_withdrawLock (hp : p < w.depots.size)
    (h : Party.Step (w.stock p) k x ((w.stock p).withdraw k) y) :
    Moves p k w x ((withdrawLock (.pool p) k).run w).2 y := by
  have hset : Moves p k w x ((setLock (.pool p) ((w.lock (.pool p)).withdraw k)).run w).2 y :=
    .step (size_setLock _) (Nat.le_refl _) ((stock_setLock hp _).symm ▸ h)
      fun _ _ hq => .of_stock_eq (stock_setLock_of_ne hq _)
  rw [withdrawLock, run_get_bind]
  dsimp only
  rw [run_bind]
  split
  · exact hset.trans (.of_untouched ((untouched_emit _).holds _))
  · exact hset

/-! ### What others do -/

/-- Somebody picks a connection. -/
theorem moves_acquire (hp : p < w.depots.size) : Moves p k w x ((acquire p).run w).2 x := by
  refine .of_elsewhere (Array.size_setIfInBounds ..) (Nat.le_refl _) fun q => ?_
  by_cases hq : q = p
  · subst hq
    refine .of_step fun s hs => ?_
    have hstock : ((acquire q).run w).2.stock q =
        { w.stock q with pool := ((w.stock q).pool.acquire w.stage shard draw).2 } :=
      stock_setPool hp _
    rw [hstock, ← hs, ← stage_stock w q, ← hs]
    exact .acquire shard draw
  · exact .of_stock_eq (stock_setPool_of_ne hq _)

/-- A connection breaks. -/
theorem moves_failConnection (c : ℕ) (cause : Fault) :
    Moves p k w x ((failConnection c cause).run w).2 x := by
  rw [failConnection, run_link_bind]
  dsimp only
  cases hending : (w.links.getD c default).core.stage.isEnding with
  | true => exact .refl
  | false =>
    refine .trans ?_ (.of_untouched (untouched_sweep c _ w))
    refine .of_elsewhere rfl (Nat.le_refl _) fun q => elsewhere_setConnection fun _ => .inr ?_
    rw [Connection.stage_fail hending cause]
    exact .fails hending

/-- Somebody tries to open a connection that is not for the pool. -/
theorem moves_elsewhere {σ : Type} {progress : Progress σ (Except Fault ℕ)}
    (h : Opens w progress w') : Moves p k w x w' x := by
  cases h with
  | waits rest | failed rest => exact .of_untouched rest
  | @opened l _ ready rest =>
    have hopened : Moves p k w x { w with links := w.links.push l } x :=
      .of_elsewhere rfl (Nat.le_refl _) fun q => elsewhere_pushLink ready
    exact hopened.trans (.of_untouched rest)

end

end Simulation

end Switchboard
