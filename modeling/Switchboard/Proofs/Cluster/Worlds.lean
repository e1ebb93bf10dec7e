import Mathlib.Data.List.OfFn
import Switchboard.Proofs.Cluster.Invariant
import Switchboard.Proofs.Cluster.PoolWork
import Switchboard.Proofs.Pools.Activities

/-!
# What parties share in a world

The parts of a world that the steps of parties are about, those who use its pools among them, and
what the operations of activities do to them.

## Main definitions

- `Upkeep.Party.Advances` — steps of one party, while those who use pools take theirs
- `Simulation.Stocked` — the states of all pools fit a world
- `Simulation.Fits` — what the parties share fits a world
- `Simulation.Leads` — a party moves on while the world changes

## Main statements

- `Upkeep.exists_run_of_advances` — the steps of one party are a run
- `Simulation.Stocked.exists_pools` — what one pool does lets the others go on
- `Simulation.Leads.trans` — one after the other
- `Simulation.Accompanies.leads` — work on a pool, seen by a party that the pool does not know
- `Simulation.Leads.exists_run` — a run goes on as its party moves on
-/

namespace Switchboard

namespace Upkeep

/-- Steps of one party, and in between those who use pools take theirs. -/
inductive Party.Advances (k : ℕ) (c : Site) (x : Party) : Site → Party → Prop
  | refl : Advances k c x c x
  | step {c' x' c'' x''} (init : Advances k c x c' x') (last : Party.Step c' k x' c'' x'') :
    Advances k c x c'' x''
  | use {c' x' p t t'} (init : Advances k c x c' x') (found : c'.pools[p]? = some t)
    (last : Stocking.Step t t') : Advances k c x { c' with pools := c'.pools.set p t' } x'

namespace Party.Advances

variable {k : ℕ} {c c' c'' : Site} {x x' x'' : Party}

theorem trans (h : Advances k c x c' x') (h' : Advances k c' x' c'' x'') :
    Advances k c x c'' x'' := by
  induction h' with
  | refl => exact h
  | step _ last ih => exact ih.step last
  | use _ found last ih => exact ih.use found last

theorem single (h : Party.Step c k x c' x') : Advances k c x c' x' :=
  .step .refl h

theorem topology_eq (h : Advances k c x c' x') : c'.topology = c.topology := by
  induction h with
  | refl => rfl
  | step _ last ih => exact last.topology_eq.trans ih
  | use _ _ _ ih => exact ih

/-- Those who use one of the pools go on. -/
theorem uses {p : ℕ} {t t' : Stocking.State} (found : c.pools[p]? = some t)
    (run : Stocking.Run t t') : Advances k c x { c with pools := c.pools.set p t' } x := by
  obtain ⟨hp, hget⟩ := List.getElem?_eq_some_iff.mp found
  induction run with
  | nil =>
    rw [← hget, List.set_getElem_self]
    exact .refl
  | snoc _ last ih =>
    have hset := ih.use (List.getElem?_set_self hp) last
    rwa [List.set_set] at hset

/-- Those who use pools go on, one pool after the other. -/
theorem pools (front : List Stocking.State) {rest rest' : List Stocking.State}
    (h : List.Forall₂ Stocking.Run rest rest') (hc : c.pools = front ++ rest) :
    Advances k c x { c with pools := front ++ rest' } x := by
  induction h generalizing front c with
  | nil =>
    rw [← hc]
    exact .refl
  | @cons t t' rest rest' run _ ih =>
    -- those in front have gone on already
    have hset : c.pools.set front.length t' = (front ++ [t']) ++ rest := by simp [hc]
    have hfirst : Advances k c x { c with pools := c.pools.set front.length t' } x :=
      .uses (by simp [hc]) run
    have hrest := ih (c := { c with pools := c.pools.set front.length t' }) _ hset
    rw [List.append_assoc] at hrest
    exact hfirst.trans hrest

end Party.Advances

/-- The steps of one party are a run. -/
theorem exists_run_of_advances {s : State} {k : ℕ} {x y : Party} {c : Site}
    (h : s.parties k = x) (hadv : Party.Advances k s.site x c y) :
    ∃ run, Run s run (s.move k c y) := by
  induction hadv with
  | refl =>
    refine ⟨[], ?_⟩
    rw [State.move, ← h, Function.update_eq_self]
    exact .nil
  | @step c' x' c'' x'' init last ih =>
    obtain ⟨run, hrun⟩ := ih
    have hlast := Step.of_party (s := s.move k c' x') (State.move_self ..) last
    rw [State.move_move] at hlast
    exact ⟨_, hrun.snoc hlast⟩
  | use init found last ih =>
    obtain ⟨run, hrun⟩ := ih
    exact ⟨_, hrun.snoc (.use found last)⟩

end Upkeep

namespace Simulation

open Upkeep

variable {w w' w'' : World}

/-! ### Pools -/

/-- One choice for each place makes a list. -/
theorem exists_list {α : Type} {n : ℕ} {P : ℕ → α → Prop} (h : ∀ q < n, ∃ a, P q a) :
    ∃ l : List α, l.length = n ∧ ∀ (q : ℕ) a, l[q]? = some a → P q a := by
  choose f hf using h
  refine ⟨List.ofFn fun q : Fin n => f q q.2, List.length_ofFn, fun q a ha => ?_⟩
  obtain ⟨hq, rfl⟩ := List.getElem?_eq_some_iff.mp ha
  rw [List.getElem_ofFn]
  exact hf ..

/-- The states of all pools fit a world. -/
structure Stocked (w : World) (pools : List Stocking.State) : Prop where
  length : pools.length = w.depots.size
  tracks : ∀ (p : ℕ) t, pools[p]? = some t → Tracks p w t
  reachable : ∀ (p : ℕ) t, pools[p]? = some t → Stocking.Reachable t

namespace Stocked

variable {pools : List Stocking.State}

theorem of_eq (h : Stocked w pools) (depots : w'.depots = w.depots) (links : w'.links = w.links)
    (stamp : w.stamp ≤ w'.stamp) : Stocked w' pools := by
  refine ⟨depots ▸ h.length, fun p t ht => ?_, h.reachable⟩
  have htracks := h.tracks p t ht
  refine ⟨depots ▸ htracks.known, htracks.site.trans ?_,
    fun k hk => htracks.fresh k (stamp.trans hk)⟩
  simp only [World.stock, World.lock, depots, links]

/-- A pool has just come to be. -/
theorem push (h : Stocked w pools) (a : Address) (config : ClientConfig) :
    Stocked { w with depots := w.depots.push { core := .empty a config } }
      (pools ++ [Stocking.start a config (w.links.toList.map (·.core.stage))]) := by
  have hnew : ∀ (p : ℕ) t, (pools ++ [Stocking.start a config
      (w.links.toList.map (·.core.stage))])[p]? = some t → pools[p]? = some t ∨
        p = w.depots.size ∧ t = Stocking.start a config (w.links.toList.map (·.core.stage)) := by
    intro p t ht
    by_cases hp : p < pools.length
    · exact .inl (List.getElem?_append_left hp ▸ ht)
    · obtain ⟨hlt, -⟩ := List.getElem?_eq_some_iff.mp ht
      rw [List.length_append, List.length_singleton] at hlt
      obtain rfl : p = pools.length := by omega
      rw [List.getElem?_concat_length] at ht
      exact .inr ⟨h.length, (Option.some.inj ht).symm⟩
  refine ⟨?_, fun p t ht => ?_, fun p t ht => ?_⟩
  · rw [List.length_append, List.length_singleton, Array.size_push, h.length]
  · rcases hnew p t ht with hold | ⟨rfl, rfl⟩
    · have htracks := h.tracks p t hold
      have hget : (w.depots.push { core := .empty a config }).getD p default =
          w.depots.getD p default := by
        rw [Array.getD_eq_getD_getElem?, Array.getD_eq_getD_getElem?,
          Array.getElem?_push_lt htracks.known, Array.getElem?_eq_getElem htracks.known]
      refine ⟨?_, htracks.site.trans ?_, htracks.fresh⟩
      · rw [Array.size_push]
        exact htracks.known.trans (Nat.lt_succ_self _)
      · simp only [World.stock, World.lock, hget]
    · exact tracks_push w a config
  · rcases hnew p t ht with hold | ⟨rfl, rfl⟩
    · exact h.reachable p t hold
    · exact ⟨a, config, _, .nil⟩

/-- Those who use a pool see that others have done something elsewhere. -/
theorem exists_later (h : Stocked w pools) {q : ℕ} {u : Stocking.State}
    (found : pools[q]? = some u) (size : w'.depots.size = w.depots.size)
    (stamp : w.stamp ≤ w'.stamp) (elsewhere : Elsewhere q w w') :
    ∃ u', (Tracks q w' u' ∧ Stocking.Reachable u') ∧ Stocking.Run u u' ∧
      u'.parties = u.parties := by
  have htracks := h.tracks q u found
  obtain ⟨u', hrun, hsite, hparties⟩ := elsewhere u htracks.site
  refine ⟨u', ⟨⟨size ▸ htracks.known, hsite, fun k hk => ?_⟩, (h.reachable q u found).run hrun⟩,
    hrun, hparties⟩
  rw [hparties]
  exact htracks.fresh k (stamp.trans hk)

/-- What those do who use one of the pools lets the others go on. -/
theorem exists_pools (h : Stocked w pools) {p : ℕ} (hp : p < pools.length)
    {t t' : Stocking.State} (reach : Stocking.Reachable t) (run : Stocking.Run t t')
    (tracks : Tracks p w' t') (size : w'.depots.size = w.depots.size) (stamp : w.stamp ≤ w'.stamp)
    (others : ∀ q ≠ p, Elsewhere q w w') :
    ∃ pools', Stocked w' pools' ∧ List.Forall₂ Stocking.Run (pools.set p t) pools' ∧
      pools'[p]? = some t' ∧ ∀ q ≠ p, ∀ u, pools[q]? = some u →
        ∃ u', pools'[q]? = some u' ∧ Stocking.Run u u' ∧ u'.parties = u.parties := by
  have hnext : ∀ q < pools.length, ∃ u', (Tracks q w' u' ∧ Stocking.Reachable u') ∧
      (q = p → u' = t') ∧
      (q ≠ p → ∀ u, pools[q]? = some u → Stocking.Run u u' ∧ u'.parties = u.parties) := by
    intro q hq
    by_cases hqp : q = p
    · exact ⟨t', ⟨hqp ▸ tracks, reach.run run⟩, fun _ => rfl, fun hne => absurd hqp hne⟩
    · have found := List.getElem?_eq_getElem hq
      obtain ⟨u', hlater⟩ := h.exists_later found size stamp (others q hqp)
      refine ⟨u', hlater.1, fun heq => absurd heq hqp, fun _ u hu => ?_⟩
      cases found.symm.trans hu
      exact hlater.2
  obtain ⟨pools', hlength, hall⟩ := exists_list hnext
  have hfound : ∀ {q : ℕ}, q < pools.length → ∃ u', pools'[q]? = some u' :=
    fun hq => ⟨_, List.getElem?_eq_getElem (hlength ▸ hq)⟩
  refine ⟨pools', ⟨hlength.trans (h.length.trans size.symm), fun q u hu => (hall q u hu).1.1,
    fun q u hu => (hall q u hu).1.2⟩, ?_, ?_, fun q hqp u hu => ?_⟩
  · refine List.forall₂_iff_get.mpr ⟨by rw [List.length_set, hlength], fun q hq hq' => ?_⟩
    obtain ⟨-, hself, hother⟩ := hall q _ (List.getElem?_eq_getElem hq')
    simp only [List.get_eq_getElem]
    by_cases hqp : q = p
    · subst hqp
      rwa [List.getElem_set_self, hself rfl]
    · rw [List.getElem_set_ne (Ne.symm hqp)]
      exact (hother hqp _ (List.getElem?_eq_getElem (hlength ▸ hq'))).1
  · obtain ⟨u', hu'⟩ := hfound hp
    rw [hu', (hall p u' hu').2.1 rfl]
  · obtain ⟨u', hu'⟩ := hfound (List.getElem?_eq_some_iff.mp hu).1
    exact ⟨u', hu', (hall q u' hu').2.2 hqp u hu⟩

end Stocked

/-! ### What the parties share -/

/-- What the parties share fits a world, when so many pools have been handed to the background
before the scheduler has last looked. -/
structure Fits (drained : List ℕ) (w : World) (c : Site) : Prop where
  cluster : w.cluster.isSome
  manager : c.manager = w.manager?.getD default
  lock : c.lock = w.lock .manager
  drained : c.drained = drained ++ w.handed
  topology : c.topology = w.topology
  pools : Stocked w c.pools

namespace Fits

variable {drained : List ℕ} {c : Site}

/-- Only pools have gone on. -/
theorem of_undisturbed (h : Fits drained w c) (hlocal : Undisturbed w w')
    {pools : List Stocking.State} (hpools : Stocked w' pools) :
    Fits drained w' { c with pools } where
  cluster := hlocal.cluster ▸ h.cluster
  manager := by rw [h.manager, World.manager?, World.manager?, hlocal.cluster]
  lock := by simp only [h.lock, World.lock, hlocal.cluster]
  drained := by rw [h.drained, hlocal.handed]
  topology := by rw [h.topology, World.topology, World.topology, hlocal.provider]
  pools := hpools

theorem of_untouched (h : Fits drained w c) (hsame : Untouched w w') : Fits drained w' c :=
  h.of_undisturbed (.of_untouched hsame) (h.pools.of_eq hsame.depots hsame.links hsame.stamp)

theorem setManager (h : Fits drained w c) (m : Manager) (taken : List ℕ) :
    Fits drained ((setManager m).run w).2 { c with manager := m, taken } := by
  obtain ⟨now, stamp, network, links, depots, _ | cluster, provider, entry, signals⟩ := w
  · exact absurd h.cluster Bool.false_ne_true
  · exact ⟨rfl, rfl, h.lock, h.drained, h.topology, h.pools.of_eq rfl rfl le_rfl⟩

theorem setLock (h : Fits drained w c) (l : Lock) :
    Fits drained ((setLock .manager l).run w).2 { c with lock := l } := by
  obtain ⟨now, stamp, network, links, depots, _ | cluster, provider, entry, signals⟩ := w
  · exact absurd h.cluster Bool.false_ne_true
  · exact ⟨rfl, h.manager, rfl, h.drained, h.topology, h.pools.of_eq rfl rfl le_rfl⟩

theorem requestLock (h : Fits drained w c) :
    Fits drained ((requestLock .manager).run w).2
      { c with lock := c.lock.request w.stamp } := by
  rw [h.lock]
  have hset := h.setLock ((w.lock .manager).request w.stamp)
  exact ⟨hset.cluster, hset.manager, hset.lock, hset.drained, hset.topology,
    hset.pools.of_eq rfl rfl (Nat.le_succ _)⟩

theorem withdrawLock (h : Fits drained w c) (ticket : ℕ) :
    Fits drained ((withdrawLock .manager ticket).run w).2
      { c with lock := c.lock.withdraw ticket } := by
  rw [h.lock]
  have hset := h.setLock ((w.lock .manager).withdraw ticket)
  rw [Simulation.withdrawLock, run_get_bind]
  dsimp only
  rw [run_bind]
  split
  · exact hset.of_untouched ((untouched_emit _).holds _)
  · exact hset

theorem spawn_draining (h : Fits drained w c) (p : ℕ) (limit : Duration) :
    Fits drained ((spawn (.draining p limit)).run w).2 { c with drained := c.drained ++ [p] } := by
  have hhanded : ((spawn (.draining p limit)).run w).2.handed = w.handed ++ [p] := by
    show List.filterMap _ (List.reverse (.spawn (.draining p limit) :: w.signals)) = _
    rw [List.reverse_cons, List.filterMap_append]
    rfl
  refine ⟨h.cluster, h.manager, h.lock, ?_, h.topology, h.pools.of_eq rfl rfl le_rfl⟩
  rw [hhanded, ← List.append_assoc, h.drained]

theorem push (h : Fits drained w c) (a : Address) (config : ClientConfig) :
    Fits drained { w with depots := w.depots.push { core := .empty a config } }
      { c with pools := c.pools ++
        [Stocking.start a config (w.links.toList.map (·.core.stage))] } :=
  ⟨h.cluster, h.manager, h.lock, h.drained, h.topology, h.pools.push a config⟩

end Fits

theorem run_manager_bind {β : Type} (next : Manager → Sim β) (w : World) :
    (manager >>= next).run w = (next (w.manager?.getD default)).run w :=
  rfl

/-! ### Parties on the move -/

/-- While the world changes a party moves on.  Parties of pools do so too, but none that has asked
for something before unless it has one of the keys, a pool and a ticket. -/
structure Leads (drained : List ℕ) (ticket : ℕ) (keys : List (ℕ × ℕ)) (w : World) (c : Site)
    (x : Party) (w' : World) (c' : Site) (y : Party) : Prop where
  advances : Party.Advances ticket c x c' y
  fits : Fits drained w' c'
  stamp : w.stamp ≤ w'.stamp
  stays : ∀ (p : ℕ) t, c.pools[p]? = some t → ∃ t', c'.pools[p]? = some t' ∧ Stocking.Run t t' ∧
    ∀ k < w.stamp, (p, k) ∉ keys → t'.parties k = t.parties k

namespace Leads

variable {drained : List ℕ} {ticket : ℕ} {keys keys' : List (ℕ × ℕ)} {c c' c'' : Site}
  {x y z : Party}

/-- The party takes a step, and no pool does. -/
theorem step (step : Party.Step c ticket x c' y) (fits : Fits drained w' c')
    (stamp : w.stamp ≤ w'.stamp) (kept : ∀ (p : ℕ) t, c.pools[p]? = some t →
      c'.pools[p]? = some t) : Leads drained ticket keys w c x w' c' y :=
  ⟨.single step, fits, stamp, fun p t ht => ⟨t, kept p t ht, .nil, fun _ _ _ => rfl⟩⟩

/-- The party gives the lock back. -/
theorem withdrawLock (fits : Fits drained w c)
    (step : Party.Step c ticket x { c with lock := c.lock.withdraw ticket } y) :
    Leads drained ticket keys w c x ((withdrawLock .manager ticket).run w).2
      { c with lock := c.lock.withdraw ticket } y := by
  refine .step step (fits.withdrawLock ticket) ?_ fun _ _ => id
  rw [Simulation.withdrawLock, run_get_bind]
  dsimp only
  rw [run_bind]
  split <;> exact le_rfl

theorem of_untouched (fits : Fits drained w c) (h : Untouched w w') :
    Leads drained ticket keys w c x w' c x :=
  ⟨.refl, fits.of_untouched h, h.stamp, fun _ t ht => ⟨t, ht, .nil, fun _ _ _ => rfl⟩⟩

theorem refl (fits : Fits drained w c) : Leads drained ticket keys w c x w c x :=
  .of_untouched fits (refl_of Untouched w)

theorem trans (h : Leads drained ticket keys w c x w' c' y)
    (h' : Leads drained ticket keys' w' c' y w'' c'' z)
    (owned : ∀ key ∈ keys', key ∈ keys ∨ w.stamp ≤ key.2) :
    Leads drained ticket keys w c x w'' c'' z := by
  refine ⟨h.advances.trans h'.advances, h'.fits, h.stamp.trans h'.stamp, fun p t ht => ?_⟩
  obtain ⟨t', ht', hrun, hstays⟩ := h.stays p t ht
  obtain ⟨t'', ht'', hrun', hstays'⟩ := h'.stays p t' ht'
  refine ⟨t'', ht'', hrun.trans hrun', fun k hk hkey => ?_⟩
  have hmine : (p, k) ∉ keys' := fun hmem => (owned _ hmem).elim hkey (Nat.not_le_of_lt hk)
  rw [hstays' k (hk.trans_le h.stamp) hmine, hstays k hk hkey]

theorem then_untouched (h : Leads drained ticket keys w c x w' c' y) (hsame : Untouched w' w'') :
    Leads drained ticket keys w c x w'' c' y :=
  h.trans (.of_untouched h.fits hsame) fun _ => .inl

/-- Other keys will do if they name the same parties. -/
theorem mono (h : Leads drained ticket keys' w c x w' c' y)
    (owned : ∀ key ∈ keys', key ∈ keys ∨ w.stamp ≤ key.2) :
    Leads drained ticket keys w c x w' c' y := by
  refine ⟨h.advances, h.fits, h.stamp, fun p t ht => ?_⟩
  obtain ⟨t', ht', hrun, hstays⟩ := h.stays p t ht
  refine ⟨t', ht', hrun, fun k hk hkey => hstays k hk fun hmem => ?_⟩
  exact (owned _ hmem).elim hkey (Nat.not_le_of_lt hk)

/-- A run goes on as its party moves on, and no other party moves. -/
theorem exists_run {s : State} (h : Leads drained ticket keys w s.site x w' c' y)
    (hx : s.parties ticket = x) :
    ∃ run s', Run s run s' ∧ s'.site = c' ∧ s'.parties ticket = y ∧
      ∀ j ≠ ticket, s'.parties j = s.parties j := by
  obtain ⟨run, hrun⟩ := exists_run_of_advances hx h.advances
  exact ⟨run, _, hrun, rfl, State.move_self .., fun j hj => State.move_of_ne hj ..⟩

/-- What one pool does lets the others go on.  The party may have had its hand in it. -/
theorem of_pool (fits : Fits drained w c) (hlocal : Undisturbed w w') (stamp : w.stamp ≤ w'.stamp)
    {p : ℕ} {t t₁ t' : Stocking.State} (found : c.pools[p]? = some t)
    (first : Stocking.Run t t₁)
    (turn : Party.Advances ticket c x { c with pools := c.pools.set p t₁ } y)
    (run : Stocking.Run t₁ t') (tracks : Tracks p w' t') (others : ∀ q ≠ p, Elsewhere q w w')
    (stays : ∀ k < w.stamp, (p, k) ∉ keys → t'.parties k = t.parties k) :
    ∃ pools', Leads drained ticket keys w c x w' { c with pools := pools' } y ∧
      pools'[p]? = some t' := by
  obtain ⟨hp, -⟩ := List.getElem?_eq_some_iff.mp found
  obtain ⟨pools', hstocked, hgo, hself, hothers⟩ := fits.pools.exists_pools hp
    ((fits.pools.reachable p t found).run first) run tracks hlocal.size stamp others
  have hlater : Party.Advances ticket { c with pools := c.pools.set p t₁ } y
      { c with pools := pools' } y := .pools [] hgo rfl
  refine ⟨pools', ⟨turn.trans hlater, fits.of_undisturbed hlocal hstocked, stamp, ?_⟩, hself⟩
  intro q u hu
  by_cases hq : q = p
  · subst hq
    rw [found] at hu
    cases hu
    exact ⟨t', hself, first.trans run, stays⟩
  · obtain ⟨u', hu', hrun, hparties⟩ := hothers q hq u hu
    exact ⟨u', hu', hrun, fun k _ _ => by rw [hparties]⟩

end Leads

section

variable {drained : List ℕ} {p k : ℕ} {c : Site} {t : Stocking.State} {a b : Stocking.Party}
  (ticket : ℕ) (keys : List (ℕ × ℕ)) (x : Party)

/-- A party of a pool moves on. -/
theorem Moves.leads (h : Moves p k w a w' b) (hlocal : Undisturbed w w') (fits : Fits drained w c)
    (found : c.pools[p]? = some t) (turn : t.parties k = a) (old : k < w'.stamp)
    (owned : (p, k) ∈ keys ∨ w.stamp ≤ k) :
    ∃ pools' t', Leads drained ticket keys w c x w' { c with pools := pools' } x ∧
      pools'[p]? = some t' ∧ t'.parties k = b := by
  have htracks := fits.pools.tracks p t found
  obtain ⟨t', hrun, htracks', hb, hothers⟩ := h.exists_run htracks turn old
  have hturn : Party.Advances ticket c x { c with pools := c.pools.set p t } x := .uses found .nil
  have hstays : ∀ j < w.stamp, (p, j) ∉ keys → t'.parties j = t.parties j := by
    intro j hj hkey
    refine hothers j ?_
    rintro rfl
    exact owned.elim hkey (Nat.not_le_of_lt hj)
  obtain ⟨pools', hleads, hself⟩ := Leads.of_pool fits hlocal h.stamp found .nil hturn hrun htracks'
    (h.others ⟨t, fits.pools.reachable p t found, htracks.site, turn⟩) hstays
  exact ⟨pools', t', hleads, hself, hb⟩

/-- An activity works for a pool. -/
theorem Accompanies.leads {σ α : Type} {stands : σ → Stocking.Party → Prop}
    {ends : α → Stocking.Party → Prop} {result : Progress σ α × World}
    (h : Accompanies p k w a stands ends result) (hlocal : Undisturbed w result.2)
    (fits : Fits drained w c) (found : c.pools[p]? = some t) (turn : t.parties k = a)
    (old : k < result.2.stamp) (owned : (p, k) ∈ keys ∨ w.stamp ≤ k) :
    ∃ pools' t', Leads drained ticket keys w c x result.2 { c with pools := pools' } x ∧
      pools'[p]? = some t' ∧
      match result.1 with
      | .wait r _ => stands r (t'.parties k)
      | .done r => ends r (t'.parties k) := by
  cases h with
  | waits moves rest | done moves rest =>
    obtain ⟨pools', t', hleads, hself, rfl⟩ :=
      moves.leads ticket keys x hlocal fits found turn old owned
    exact ⟨pools', t', hleads, hself, rest⟩

end

end Simulation

end Switchboard
