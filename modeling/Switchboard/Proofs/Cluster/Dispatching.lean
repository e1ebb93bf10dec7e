import Mathlib.Data.List.Rotate
import Switchboard.Proofs.Cluster.Managers
import Switchboard.Proofs.Cluster.PoolWork
import Switchboard.Proofs.Interleaving.Placement

/-!
# Requests through the manager

For a request that is dispatched through the manager a pool is selected first, and then one of its
connections.  The two choices go by filters of their own: pools are asked whether they have a
connection in service, and connections whether they are.  Nothing else happens in between, so the
second choice never fails when the first one has not.

## Main definitions

- `Manager.eligible` — the pools that have a connection in service
- `Simulation.Lands` — what comes of a request for which a connection was found
- `Simulation.Dispatches` — a history of requests that are dispatched while some pools are eligible

## Main statements

- `Simulation.launch_lands` — a request is registered on the connection that was picked
- `Simulation.launch_cases` — a request fails with nothing changed, or it lands
- `Simulation.Dispatches.counts` — the cursor counts the requests that were dispatched in turns
- `Simulation.Dispatches.window` — dispatched in turns, requests go round the eligible pools
- `Simulation.Dispatching.placed_iff_ready` — a connection in service is found if there is one
-/

namespace Switchboard

/-! ### Selecting a pool -/

namespace Manager

variable {m : Manager} {hasReady : ℕ → Bool} {shard draw : ℕ}

/-- The pools that have a connection in service, with their addresses. -/
def eligible (m : Manager) (hasReady : ℕ → Bool) : List (Address × ℕ) :=
  m.pools.filter fun e => hasReady e.2

theorem mem_eligible {e : Address × ℕ} :
    e ∈ m.eligible hasReady ↔ e ∈ m.pools ∧ hasReady e.2 = true :=
  List.mem_filter

theorem map_snd_eligible :
    (m.pools.map (·.2)).filter hasReady = (m.eligible hasReady).map Prod.snd :=
  List.filter_map

/-- If no pool is eligible none is selected, and no cursor moves. -/
theorem select_of_eligible_eq_nil (h : m.eligible hasReady = []) :
    m.select hasReady shard draw = (.error m.noneReady, m) := by
  rw [select, map_snd_eligible, h]
  rfl

/-- The pool that is selected is the eligible one with the index picked. -/
theorem select_of_pick {i : ℕ} {selector : Selector} {e : Address × ℕ}
    (hpick : m.selector.pick shard draw (m.eligible hasReady).length = (some i, selector))
    (he : (m.eligible hasReady)[i]? = some e) :
    m.select hasReady shard draw = (.ok e.2, { m with selector }) := by
  rw [select, map_snd_eligible, List.length_map, hpick]
  simp [he]

end Manager

namespace Simulation

open Interleaving

variable {w w₁ w' : World} {cluster : Cluster} {p c : ℕ} {pool : Option ℕ} {route : Route}
  {request : Request} {standard : Duration} {amongPools lot : Lot}

/-! ### Picking a connection -/

theorem hasReady_iff : w.hasReady p = true ↔ ∃ c ∈ w.members p, w.stage c = .ready := by
  simp [World.hasReady, Pool.ready, World.members]

theorem eligible_eq_nil_iff {m : Manager} : m.eligible w.hasReady = [] ↔
    ∀ e ∈ m.pools, ∀ c ∈ w.members e.2, w.stage c ≠ .ready := by
  simp only [Manager.eligible, List.filter_eq_nil_iff, hasReady_iff, not_exists, not_and]

/-- The cursors of the choice among pools. -/
def World.selector? (w : World) : Option Selector :=
  w.cluster.map (·.core.selector)

/-- If no pool is eligible nothing changes. -/
theorem run_pick_of_eligible_eq_nil (hcluster : w.cluster = some cluster)
    (h : cluster.core.eligible w.hasReady = []) :
    (pick .cluster amongPools lot).run w = (.error cluster.core.noneReady, w) := by
  have hselect : (selectPool amongPools).run w = (.error cluster.core.noneReady, w) := by
    rw [selectPool, run_get_bind, hcluster]
    dsimp only
    rw [Manager.select_of_eligible_eq_nil h, ← hcluster]
    rfl
  rw [pick, run_bind, hselect]
  rfl

/-- A pool that has a connection in service gives one. -/
theorem exists_run_acquire (lot : Lot) (h : w.hasReady p = true) :
    ∃ c ∈ w.members p, w.stage c = .ready ∧ ∃ w₁, (acquire p lot).run w = (.ok c, w₁) ∧
      w₁.links = w.links ∧ w₁.stamp = w.stamp ∧ w₁.cluster = w.cluster := by
  obtain ⟨c, hc, hready⟩ := hasReady_iff.mp h
  rcases (w.depots.getD p default).core.acquire_cases w.stage lot.shard lot.draw with
    ⟨d, hd, hacquired⟩ | ⟨hnone, -⟩
  · obtain ⟨hmember, hserves⟩ := (Pool.mem_ready ..).mp hd
    refine ⟨d, hmember, hserves, ((acquire p lot).run w).2, ?_, rfl, rfl, rfl⟩
    rw [← hacquired]
    rfl
  · have hmem := (Pool.mem_ready ..).mpr ⟨hc, hready⟩
    rw [hnone] at hmem
    cases hmem

/-- A pool that is selected has a connection to be picked. -/
theorem exists_run_pick (lot : Lot) (hcluster : w.cluster = some cluster) {i : ℕ}
    {selector : Selector} {e : Address × ℕ} (hpick : cluster.core.selector.pick amongPools.shard amongPools.draw
      (cluster.core.eligible w.hasReady).length = (some i, selector))
    (he : (cluster.core.eligible w.hasReady)[i]? = some e) :
    ∃ c ∈ w.members e.2, w.stage c = .ready ∧ ∃ w₁,
      (pick .cluster amongPools lot).run w = (.ok (c, some e.2), w₁) ∧ w₁.links = w.links ∧
        w₁.stamp = w.stamp ∧ w₁.selector? = some selector := by
  have hselect : (selectPool amongPools).run w = (.ok e.2, { w with
      cluster := some { cluster with core := { cluster.core with selector } } }) := by
    rw [selectPool, run_get_bind, hcluster]
    dsimp only
    rw [Manager.select_of_pick hpick he]
    rfl
  rw [pick, run_bind, hselect]
  dsimp only
  obtain ⟨c, hmember, hready, w₁, hrun, hlinks, hstamp, hkept⟩ := exists_run_acquire lot
    (w := { w with cluster := some { cluster with core := { cluster.core with selector } } })
    (Manager.mem_eligible.mp (List.mem_of_getElem? he)).2
  refine ⟨c, hmember, hready, w₁, ?_, hlinks, hstamp, ?_⟩
  · rw [run_bind, hrun]
    rfl
  · rw [World.selector?, hkept]
    rfl

/-! ### Sending on the connection picked -/

/-- What comes of a request for which a connection was found.  It is registered there and nowhere
else, and waits with its entry in the table; or it has ended, but not for want of a connection. -/
inductive Lands (request : Request) (c : ℕ) (pool : Option ℕ) (w : World) :
    Progress Dispatching.Phase Outcome × World → Prop
  | waits {s : Sending} {events w'} (registers : Registers c w w') (connection : s.connection = c)
    (entry : ∃ due, ⟨s.sync, request.code, due, s.slot⟩ ∈ (w'.table c).entries) :
    Lands request c pool w (.wait (.sending pool s) events, w')
  | ended {outcome w'} (registers : Registers c w w') (placed : ¬Unplaced outcome) :
    Lands request c pool w (.done outcome, w')

/-- Nothing has changed that concerns connections. -/
theorem Carries.of_links (links : w₁.links = w.links) (stamp : w₁.stamp = w.stamp) :
    Carries c w w₁ := by
  have hconnection : ∀ d, w₁.connection d = w.connection d := fun d => by
    rw [World.connection, World.connection, links]
  refine ⟨⟨congrArg _ links, Nat.le_of_eq stamp.symm, fun d _ => hconnection d⟩, ?_⟩
  rw [World.table, World.table, hconnection]
  exact Inflight.shrinks_refl _

theorem lt_size_of_ready (h : w.stage c = .ready) : c < w.links.size := by
  by_contra hc
  rw [World.stage, Array.getD_eq_getD_getElem?, Array.getElem?_eq_none (Nat.le_of_not_lt hc)] at h
  cases h

/-- A request is registered on the connection that was picked. -/
theorem launch_lands (hpick : (pick route amongPools lot).run w = (.ok (c, pool), w₁))
    (links : w₁.links = w.links) (stamp : w₁.stamp = w.stamp) (hready : w.stage c = .ready) :
    Lands request c pool w ((Dispatching.launch route request standard amongPools lot).run w) := by
  have hcarries : Carries c w w₁ := .of_links links stamp
  have hready₁ : w₁.stage c = .ready := by rwa [World.stage, links]
  have hadmits := Sending.start_admits (lt_size_of_ready hready₁) hready₁ request standard
  rw [Dispatching.launch, run_bind, hpick]
  dsimp only
  rw [run_bind]
  generalize (Sending.start c request standard).run w₁ = started at hadmits
  cases hadmits with
  | tooLarge registers =>
    refine .ended (hcarries.registers registers) ?_
    rintro ⟨_, heq⟩
    cases heq
  | @admitted s w₂ registers connection entry slot =>
    subst connection
    have hpolls := s.poll_polls (registers.only.size ▸ lt_size_of_ready hready₁)
    dsimp only
    rw [Progress.andThen, run_bind]
    generalize s.poll.run w₂ = polled at hpolls
    cases hpolls with
    | @waits s' events w₃ connection sync slot' only table =>
      have hkept : Carries s.connection w₂ w₃ := ⟨only, table ▸ Inflight.shrinks_refl _⟩
      refine .waits (hcarries.registers (registers.carries hkept)) connection ?_
      rwa [table, sync, slot']
    | done carries placed =>
      refine .ended (hcarries.registers (registers.carries carries)) fun hunplaced => ?_
      have hslot := placed hunplaced
      rw [slot] at hslot
      cases hslot

namespace Sending

theorem isLocal_cancel (s : Sending) : IsLocal s.cancel :=
  .bind (.link _) fun _ => .bind (isLocal_setConnection ..) fun _ => (untouched_emitRoom _).isLocal

theorem isLocal_start (c : ℕ) (request : Request) (standard : Duration) :
    IsLocal (start c request standard) := by
  refine .bind (.link c) fun l => ?_
  dsimp only
  split
  · exact .pure _
  · refine .bind (.timerAfter _) fun deadline => .bind untouched_newTicket.isLocal fun ticket =>
      .bind (isLocal_setConnection ..) fun _ => ?_
    split
    · exact .bind (isLocal_cancel _) fun _ => .pure _
    · exact .bind (isLocal_cancel _) fun _ => .pure _
    · exact .pure _

theorem isLocal_await (s : Sending) : IsLocal s.await := by
  refine .bind (.link _) fun l => ?_
  split
  · exact .bind (isLocal_cancel _) fun _ => .pure _
  · refine .bind (untouched_check s.deadline).isLocal fun deadline => ?_
    split
    · refine .bind (.bind (.link _) fun _ => .bind (isLocal_cancel _) fun _ => .pure _) fun _ => ?_
      exact .pure _
    · exact .pure _

/-- A request that goes on leaves the manager alone. -/
theorem isLocal_poll (s : Sending) : IsLocal s.poll := by
  unfold poll
  split
  · refine .bind (.bind (.link _) fun l => ?_) isLocal_await
    dsimp only
    split
    · exact .bind (isLocal_setConnection ..) fun _ => .bind (untouched_emit _).isLocal fun _ =>
        .pure _
    · exact .pure _
  · exact isLocal_await s

end Sending

theorem Lands.not_unplaced {outcome : Outcome} {result : Progress Dispatching.Phase Outcome × World}
    (h : Lands request c pool w result) (hdone : result.1 = .done outcome) : ¬Unplaced outcome := by
  cases h with
  | waits => cases hdone
  | ended _ placed =>
    cases hdone
    exact placed

/-- A request that is dispatched through the manager fails at once, with nothing changed, or it is
registered on a connection in service. -/
theorem launch_cases (hcluster : w.cluster = some cluster) (request : Request) (standard : Duration)
    (amongPools lot : Lot) :
    ((∀ e ∈ cluster.core.pools, ∀ c ∈ w.members e.2, w.stage c ≠ .ready) ∧
      (Dispatching.launch .cluster request standard amongPools lot).run w =
        (.done (.error cluster.core.noneReady), w)) ∨
    ∃ e ∈ cluster.core.pools, ∃ c ∈ w.members e.2, w.stage c = .ready ∧
      ((pick .cluster amongPools lot).run w).1 = .ok (c, some e.2) ∧
      Lands request c (some e.2) w
        ((Dispatching.launch .cluster request standard amongPools lot).run w) := by
  rcases Nat.eq_zero_or_pos (cluster.core.eligible w.hasReady).length with hzero | hpos
  · have hnone := List.length_eq_zero_iff.mp hzero
    refine .inl ⟨eligible_eq_nil_iff.mp hnone, ?_⟩
    rw [Dispatching.launch, run_bind, run_pick_of_eligible_eq_nil hcluster hnone]
    rfl
  · obtain ⟨i, hi, hpick⟩ := cluster.core.selector.exists_pick hpos amongPools.shard amongPools.draw
    have he := List.getElem?_eq_getElem hi
    obtain ⟨c, hmember, hready, w₁, hrun, hlinks, hstamp, -⟩ :=
      exists_run_pick lot hcluster (Prod.ext hpick rfl) he
    refine .inr ⟨_, (Manager.mem_eligible.mp (List.getElem_mem hi)).1, c, hmember, hready, ?_, ?_⟩
    · rw [hrun]
    · exact launch_lands hrun hlinks hstamp hready

/-- A request that has been launched has moved no cursor but when a connection was picked. -/
theorem selector?_launch :
    ((Dispatching.launch route request standard amongPools lot).run w).2.selector? =
      ((pick route amongPools lot).run w).2.selector? := by
  rw [Dispatching.launch, run_bind]
  generalize (pick route amongPools lot).run w = picked
  obtain ⟨fault | ⟨c, pool⟩, w₁⟩ := picked
  · rfl
  · have hstarted := (Sending.isLocal_start c request standard).holds w₁
    dsimp only
    rw [run_bind]
    generalize (Sending.start c request standard).run w₁ = started at hstarted
    obtain ⟨fault | s, w₂⟩ := started
    · exact congrArg (Option.map _) hstarted.cluster
    · have hpolled : IsLocal (Progress.andThen s.poll (Dispatching.Phase.sending pool)
          fun outcome => pure (.done outcome)) := .andThen s.isLocal_poll fun _ => .pure _
      exact congrArg (Option.map _) ((hpolled.holds w₂).cluster.trans hstarted.cluster)

/-! ### Taking turns -/

/-- A history in which requests are dispatched through the manager, one to each of the pools listed,
while the pools of a set and no others are eligible.  Whatever else happens in between, it is no
dispatch. -/
inductive Dispatches (eligible : List (Address × ℕ)) (w : World) : List ℕ → World → Prop
  | nil : Dispatches eligible w [] w
  | other {ps w₁ w₂} (init : Dispatches eligible w ps w₁) (selector : w₂.selector? = w₁.selector?) :
    Dispatches eligible w ps w₂
  | dispatch {ps w₁ cluster request standard amongPools lot c p}
    (init : Dispatches eligible w ps w₁)
    (manager : w₁.cluster = some cluster) (sorted : cluster.core.IsSorted)
    (unchanged : ∀ e, e ∈ cluster.core.eligible w₁.hasReady ↔ e ∈ eligible)
    (picked : ((pick .cluster amongPools lot).run w₁).1 = .ok (c, some p)) :
    Dispatches eligible w (ps ++ [p])
      ((Dispatching.launch .cluster request standard amongPools lot).run w₁).2

theorem isSet_eligible {m : Manager} (hm : m.IsSorted) (hasReady : ℕ → Bool) :
    Address.IsSet ((m.eligible hasReady).map Prod.fst) :=
  Address.IsSet.sublist hm (List.filter_sublist.map _)

/-- The pool that is selected in turn. -/
theorem pick_in_turn (hcluster : w.cluster = some cluster) {cursor : UInt64}
    (hselector : cluster.core.selector = .roundRobin cursor)
    (hpicked : ((pick .cluster amongPools lot).run w).1 = .ok (c, some p)) :
    ((cluster.core.eligible w.hasReady).map Prod.snd)[cursor.toNat %
        (cluster.core.eligible w.hasReady).length]? = some p ∧
      ((pick .cluster amongPools lot).run w).2.selector? = some (.roundRobin (cursor + 1)) := by
  cases hlength : (cluster.core.eligible w.hasReady).length with
  | zero =>
    rw [run_pick_of_eligible_eq_nil hcluster (List.length_eq_zero_iff.mp hlength)] at hpicked
    cases hpicked
  | succ n =>
    have hlt : cursor.toNat % (n + 1) < (cluster.core.eligible w.hasReady).length :=
      hlength.symm ▸ Nat.mod_lt _ (Nat.succ_pos n)
    have hpick : cluster.core.selector.pick amongPools.shard amongPools.draw
        (cluster.core.eligible w.hasReady).length =
          (some (cursor.toNat % (n + 1)), .roundRobin (cursor + 1)) := by
      rw [hselector, hlength]
      rfl
    have he := List.getElem?_eq_getElem hlt
    obtain ⟨d, -, -, w₁, hrun, -, -, hselector'⟩ := exists_run_pick lot hcluster hpick he
    rw [hrun] at hpicked ⊢
    cases hpicked
    exact ⟨by rw [List.getElem?_map, he]; rfl, hselector'⟩

namespace Dispatches

variable {eligible : List (Address × ℕ)} {ps : List ℕ} {cursor : UInt64}

/-- The cursor counts the dispatches, and each goes to the pool that the cursor points at. -/
theorem counts (h : Dispatches eligible w ps w') (hset : Address.IsSet (eligible.map Prod.fst))
    (hselector : w.selector? = some (.roundRobin cursor)) :
    (∃ cursor' : UInt64, w'.selector? = some (.roundRobin cursor') ∧
      cursor'.toNat = (cursor.toNat + ps.length) % UInt64.size) ∧
    ∀ i p, ps[i]? = some p → (eligible.map Prod.snd)[
      (cursor.toNat + i) % UInt64.size % eligible.length]? = some p := by
  induction h with
  | nil =>
    refine ⟨⟨cursor, hselector, (Nat.mod_eq_of_lt cursor.toNat_lt).symm⟩, nofun⟩
  | other _ selector ih =>
    rw [selector]
    exact ih
  | @dispatch ps _ _ _ _ _ _ _ p _ manager sorted unchanged picked ih =>
    obtain ⟨⟨cursor', hselector', hcursor'⟩, hpools⟩ := ih
    have heligible := Address.eq_of_mem_iff_of_isSet (isSet_eligible sorted _) hset unchanged
    rw [World.selector?, manager] at hselector'
    obtain ⟨hp, hnext⟩ := pick_in_turn manager (Option.some.inj hselector') picked
    rw [heligible, hcursor'] at hp
    refine ⟨⟨cursor' + 1, selector?_launch.trans hnext, ?_⟩, fun i q hq => ?_⟩
    · rw [UInt64.toNat_add, hcursor', List.length_append]
      simp [← Nat.add_assoc]
    · rcases Nat.lt_or_ge i ps.length with hi | hi
      · rw [List.getElem?_append_left hi] at hq
        exact hpools i q hq
      · rw [List.getElem?_append_right hi] at hq
        obtain ⟨hi', rfl⟩ := List.getElem?_eq_some_iff.mp hq
        have hlast : i = ps.length := by
          rw [List.length_singleton] at hi'
          omega
        subst hlast
        rw [List.getElem_singleton]
        exact hp

/-- While the cursor does not wrap, so many dispatches as there are eligible pools go round them. -/
theorem window (h : Dispatches eligible w ps w') (hset : Address.IsSet (eligible.map Prod.fst))
    (hselector : w.selector? = some (.roundRobin cursor))
    (hcursor : cursor.toNat + ps.length ≤ UInt64.size) {k : ℕ}
    (hk : k + eligible.length ≤ ps.length) :
    (ps.drop k).take eligible.length = (eligible.map Prod.snd).rotate (cursor.toNat + k) := by
  obtain ⟨-, hpools⟩ := h.counts hset hselector
  refine List.ext_getElem ?_ fun j hj hj' => ?_
  · rw [List.length_take, List.length_drop, List.length_rotate, List.length_map]
    omega
  · rw [List.length_rotate, List.length_map] at hj'
    have hlt : k + j < ps.length := by omega
    have hp := hpools (k + j) _ (List.getElem?_eq_getElem hlt)
    have hindex : cursor.toNat + (k + j) = j + (cursor.toNat + k) := by omega
    rw [hindex, Nat.mod_eq_of_lt (by omega : j + (cursor.toNat + k) < UInt64.size),
      ← List.length_map (f := Prod.snd)] at hp
    rw [List.getElem_take, List.getElem_drop, List.getElem_rotate]
    exact (List.getElem?_eq_some_iff.mp hp).2.symm

end Dispatches

/-- A request that is dispatched through the manager fails for want of a connection exactly if no
pool of the manager has a connection in service, whatever the strategies choose.  Otherwise it is
registered on one connection and nowhere else; the connection is in service, and it belongs to the
pool that was selected.  No request under way ends for want of a connection either.

While the pools that have a connection in service stay the same, and no cursor wraps, requests that
are dispatched in turns go to each of these pools once before they come to one again. -/
theorem Dispatching.placed_iff_ready (hcluster : w.cluster = some cluster) :
    (∀ request standard amongPools lot,
      ((∃ detail, ((Dispatching.launch .cluster request standard amongPools lot).run w).1 =
          .done (.error (.noAvailableConnection detail))) ↔
        ∀ e ∈ cluster.core.pools, ∀ c ∈ w.members e.2, w.stage c ≠ .ready) ∧
      ((∃ e ∈ cluster.core.pools, ∃ c ∈ w.members e.2, w.stage c = .ready) →
        ∃ e ∈ cluster.core.pools, ∃ c ∈ w.members e.2, w.stage c = .ready ∧
          ((pick .cluster amongPools lot).run w).1 = .ok (c, some e.2) ∧
          Lands request c (some e.2) w
            ((Dispatching.launch .cluster request standard amongPools lot).run w))) ∧
    (∀ (s : Sending) w₁ ls outcome, Fitting w₁ ls → s.connection < w₁.links.size →
      (s.poll.run w₁).1 = .done outcome → ¬Unplaced outcome) ∧
    ∀ eligible ps w' cursor k, Dispatches eligible w ps w' →
      Address.IsSet (eligible.map Prod.fst) → cluster.core.selector = .roundRobin cursor →
      cursor.toNat + ps.length ≤ UInt64.size → k + eligible.length ≤ ps.length →
      ((ps.drop k).take eligible.length).Perm (eligible.map Prod.snd) := by
  refine ⟨fun request standard amongPools lot => ?_, ?_, ?_⟩
  · rcases launch_cases hcluster request standard amongPools lot with
      ⟨hnone, hrun⟩ | ⟨e, he, c, hc, hready, hpick, hlands⟩
    · refine ⟨iff_of_true ⟨_, congrArg Prod.fst hrun⟩ hnone, ?_⟩
      rintro ⟨e, he, c, hc, hready⟩
      exact absurd hready (hnone e he c hc)
    · refine ⟨iff_of_false ?_ fun hnone => hnone e he c hc hready, fun _ => ?_⟩
      · rintro ⟨detail, hdone⟩
        exact hlands.not_unplaced hdone ⟨detail, rfl⟩
      · exact ⟨e, he, c, hc, hready, hpick, hlands⟩
  · intro s w₁ ls outcome hfits hc hdone
    exact s.not_unplaced_of_poll hfits hc hdone
  · intro eligible ps w' cursor k hdispatches hset hselector hcursor hk
    have hselector' : w.selector? = some (.roundRobin cursor) := by
      rw [World.selector?, hcluster, ← hselector]
      rfl
    rw [hdispatches.window hset hselector' hcursor hk]
    exact List.rotate_perm ..

/-- Three pools of one connection each; the one of the second pool is not in service. -/
def threePools (cursor : UInt64) : World :=
  let served : Connection := .opened default default .start
  let pool : Pool := .empty default {}
  { links := #[⟨served, 0, none⟩, ⟨{ served with stage := .closed }, 1, none⟩, ⟨served, 2, none⟩]
    depots := #[{ core := { pool with members := [0] } }, { core := { pool with members := [1] } },
      { core := { pool with members := [2] } }]
    cluster := some { core := ⟨{}, .roundRobin cursor,
      [(⟨"a", 1⟩, 0), (⟨"b", 1⟩, 1), (⟨"c", 1⟩, 2)], none, 0, false⟩ } }

theorem isSorted_threePools : Address.IsSet [⟨"a", 1⟩, ⟨"b", 1⟩, ⟨"c", 1⟩] := by
  unfold Address.IsSet
  decide

theorem Dispatches.snoc_threePools {ps : List ℕ} {cursor : UInt64} (request : Request)
    (standard : Duration)
    (init : Dispatches [(⟨"a", 1⟩, 0), (⟨"c", 1⟩, 2)] w ps (threePools cursor))
    (picked : ((pick .cluster).run (threePools cursor)).1 = .ok (c, some p)) :
    Dispatches [(⟨"a", 1⟩, 0), (⟨"c", 1⟩, 2)] w (ps ++ [p]) (threePools (cursor + 1)) := by
  have hselector : (threePools (cursor + 1)).selector? = ((Dispatching.launch .cluster request
      standard).run (threePools cursor)).2.selector? :=
    (selector?_launch.trans (pick_in_turn rfl rfl picked).2).symm
  exact (init.dispatch rfl isSorted_threePools (fun _ => Iff.rfl) picked).other hselector

/-- The cursor starts at the last of the two pools that can serve, so the order is another one than
that of the addresses. -/
theorem Dispatching.placed_iff_ready_two_of_three :
    Lands .ping 2 (some 2) (threePools 5)
      ((Dispatching.launch .cluster .ping default).run (threePools 5)) ∧
    (∀ detail, ((Dispatching.launch .cluster .ping default).run (threePools 5)).1 ≠
      .done (.error (.noAvailableConnection detail))) ∧
    ∃ w, Dispatches [(⟨"a", 1⟩, 0), (⟨"c", 1⟩, 2)] (threePools 5) [2, 0, 2] w ∧
      ∀ k ≤ 1, (([2, 0, 2].drop k).take 2).Perm [0, 2] := by
  have hready : (threePools 5).stage 2 = .ready := rfl
  have hpicked : ((pick .cluster).run (threePools 5)).1 = .ok (2, some 2) := rfl
  obtain ⟨hplaced, -, hturns⟩ := Dispatching.placed_iff_ready (w := threePools 5) rfl
  obtain ⟨hfails, hlands⟩ := hplaced .ping default {} {}
  refine ⟨?_, ?_, ?_⟩
  · obtain ⟨e, -, c, -, -, hpick, hlands⟩ :=
      hlands ⟨_, .tail _ (.tail _ (.head _)), 2, .head _, hready⟩
    rw [hpicked] at hpick
    obtain ⟨rfl, he⟩ := Prod.mk.inj (Except.ok.inj hpick)
    rwa [← he] at hlands
  · intro detail hdone
    exact hfails.mp ⟨detail, hdone⟩ _ (.tail _ (.tail _ (.head _))) 2 (.head _) hready
  · have h₀ : Dispatches [(⟨"a", 1⟩, 0), (⟨"c", 1⟩, 2)] (threePools 5) [] (threePools 5) := .nil
    have h₁ := h₀.snoc_threePools (c := 2) .ping default rfl
    have h₂ := h₁.snoc_threePools (c := 0) .ping default rfl
    have h₃ := h₂.snoc_threePools (c := 2) .ping default rfl
    refine ⟨_, h₃, fun k hk =>
      hturns _ _ _ _ k h₃ ?_ rfl (by decide) (Nat.add_le_add_right hk 2)⟩
    exact Address.IsSet.sublist isSorted_threePools (.cons_cons _ (.cons _ (.cons_cons _ .slnil)))

end Simulation

end Switchboard
