import Switchboard.Proofs.Cluster.Activities
import Switchboard.Simulation.Operation

/-!
# Opening a manager

Who opens a manager waits until a pool has been opened for every address that the provider knows.
A manager that is opened belongs to nobody else, so whatever happens to the rest of the world
meanwhile, it is as it was when the opening goes on.  A configuration without connections is refused
by the manager as it is by every pool.  One without an interval for reconnecting is refused by the
pools alone: the manager comes up without any.

## Main definitions

- `Simulation.Opening` — how far the opening of a manager has come, and in which world
- `Simulation.Opening.Tried` — what has come of opening a pool for each address

## Main statements

- `Simulation.Opening.at_once_of_refusing_pools` — a manager whose pools are refused comes up at once
- `Simulation.Opening.manager_and_pools` — what a manager answers, and which pools it has then
- `Simulation.Opening.comes_up_empty` — a manager that has no pool for an address
-/

namespace Switchboard

namespace Simulation

open PoolOpening (number?)
open Reconciling (opened)

/-- The opening of a manager begins in the first world, and goes on whenever it is given the chance
to; in between the world may change, but for the manager. -/
inductive Opening (config : ClientConfig) (w₀ : World) : Progress Work Answer → World → Prop
  | started : Opening config w₀ ((Operation.openCluster config).start.run w₀).1
      ((Operation.openCluster config).start.run w₀).2
  | polled {work events w w'} (waiting : Opening config w₀ (.wait work events) w)
    (alone : w'.manager? = w.manager?) :
    Opening config w₀ (work.poll.run w').1 (work.poll.run w').2

variable {config : ClientConfig} {fault : Fault} {ticket : ℕ} {w₀ w w' : World}
  {progress : Progress Work Answer} {answer : Answer}

/-! ### What is done to the manager -/

theorem manager?_of_cluster (h : w'.cluster = w.cluster) : w'.manager? = w.manager? :=
  congrArg (Option.map _) h

theorem manager?_setManager (m : Manager) :
    ((setManager m).run w).2.manager? = w.manager?.map fun _ => m := by
  obtain ⟨now, stamp, network, links, depots, _ | cluster, provider, entry, signals⟩ := w <;> rfl

theorem manager?_requestLock : ((requestLock .manager).run w).2.manager? = w.manager? := by
  obtain ⟨now, stamp, network, links, depots, _ | cluster, provider, entry, signals⟩ := w <;> rfl

theorem manager?_withdrawLock :
    ((withdrawLock .manager ticket).run w).2.manager? = w.manager? := by
  have hset (l : Lock) : ((setLock .manager l).run w).2.manager? = w.manager? := by
    obtain ⟨now, stamp, network, links, depots, _ | cluster, provider, entry, signals⟩ := w <;> rfl
  rw [← hset ((w.lock .manager).withdraw ticket), withdrawLock, run_get_bind]
  dsimp only
  rw [run_bind]
  split <;> rfl

/-! ### Children that have ended -/

namespace Child

variable {σ α : Type}

theorem results?_ended (results : List α) :
    results? (results.map .ended : List (Child σ α)) = some results := by
  induction results with
  | nil => rfl
  | cons a rest ih => rw [List.map_cons, results?, ih, Option.map_some]

theorem run_pollAll_ended (poll : σ → Sim (Progress σ α)) (results : List α) (w : World) :
    (pollAll poll (results.map .ended)).run w = ((results.map .ended, []), w) := by
  induction results with
  | nil => rfl
  | cons a rest ih =>
    rw [List.map_cons, pollAll, run_bind, ih]
    rfl

/-- Nobody waits for children that have ended. -/
theorem run_join_ended (poll : σ → Sim (Progress σ α)) (results : List α) (w : World) :
    (join poll (results.map .ended)).run w = (.done results, w) := by
  rw [join, run_bind, run_pollAll_ended]
  dsimp only
  rw [results?_ended]
  rfl

end Child

namespace Opening

/-! ### Pools tried -/

/-- A pool has been tried for each of the addresses: all have come to be, or none if the pools refuse
the configuration. -/
structure Tried (config : ClientConfig) (added : List Address) (numbers : List (Option ℕ)) :
    Prop where
  length : numbers.length = added.length
  isSome : ∀ n ∈ numbers, n.isSome = config.poolFault?.isNone

variable {added : List Address} {numbers : List (Option ℕ)}

theorem map_fst_opened (hlength : numbers.length = added.length)
    (h : ∀ n ∈ numbers, n.isSome = true) : (opened added numbers).map (·.1) = added := by
  induction added generalizing numbers with
  | nil => rfl
  | cons a rest ih =>
    cases numbers with
    | nil => cases hlength
    | cons n numbers =>
      obtain ⟨p, rfl⟩ := Option.isSome_iff_exists.mp (h n List.mem_cons_self)
      exact congrArg (a :: ·)
        (ih (Nat.succ.inj hlength) fun n hn => h n (List.mem_cons_of_mem _ hn))

theorem Tried.map_fst_opened (h : Tried config added numbers)
    (valid : config.poolFault? = none) : (opened added numbers).map (·.1) = added :=
  Opening.map_fst_opened h.length fun n hn => (h.isSome n hn).trans (by rw [valid]; rfl)

theorem Tried.opened_eq_nil (h : Tried config added numbers)
    (invalid : config.poolFault? = some fault) : opened added numbers = [] := by
  rw [opened, List.filterMap_eq_nil_iff]
  rintro ⟨a, n⟩ he
  have hnone : n.isSome = false := by
    rw [h.isSome n (List.of_mem_zip he).2, invalid]
    rfl
  rw [Option.isSome_eq_false_iff, Option.isNone_iff_eq_none] at hnone
  subst hnone
  rfl

/-- Each address is tried. -/
theorem tried_openEach (config : ClientConfig) (added : List Address) (w : World) :
    Tried config added (((Reconciling.openEach config added).run w).1.map number?) := by
  induction added generalizing w with
  | nil => exact ⟨rfl, nofun⟩
  | cons a rest ih =>
    have hrest := ih ((PoolOpening.start a config).run w).2
    have hfirst : (number? ((PoolOpening.start a config).run w).1.child).isSome =
        config.poolFault?.isNone := by
      cases hfault : config.poolFault? with
      | some fault =>
        rw [PoolOpening.start_of_invalid hfault]
        rfl
      | none =>
        rw [PoolOpening.start_of_valid hfault]
        exact congrArg Option.isSome (PoolOpening.number?_finish ..)
    rw [Reconciling.run_openEach_cons]
    refine ⟨congrArg Nat.succ hrest.length, fun n hn => ?_⟩
    obtain rfl | hn := List.mem_cons.mp hn
    · exact hfirst
    · exact hrest.isSome n hn

/-! ### Waiting for the pools -/

theorem cluster_openEach (config : ClientConfig) (todo : List Address) (w : World) :
    ((Reconciling.openEach config todo).run w).2.cluster = w.cluster := by
  induction todo generalizing w with
  | nil => rfl
  | cons a rest ih =>
    rw [Reconciling.run_openEach_cons]
    refine (ih _).trans ?_
    cases hfault : config.poolFault? with
    | some fault => rw [PoolOpening.start_of_invalid hfault]
    | none => exact (Reconciling.undisturbed_start hfault a w).cluster

theorem cluster_spawnEach (limit : Duration) (leaving : List ℕ) (w : World) :
    ((leaving.forM fun p => spawn (.draining p limit)).run w).2.cluster = w.cluster := by
  induction leaving generalizing w with
  | nil => rfl
  | cons p rest ih => exact ih _

/-- What is known of a manager while it is being opened, and once it has been. -/
def Sound (config : ClientConfig) (topology : Watch Topology) :
    Progress Work Answer → World → Prop
  | .wait work _, w => ∃ ticket children, work = .openingCluster topology.version
        (.opening topology.value ticket topology.value.addresses [] children) ∧
      Tried config topology.value.addresses (children.map number?) ∧
      w.manager? = some (.empty config)
  | .done answer, w => answer = .result (.ok .nothing) ∧
      ∃ numbers, Tried config topology.value.addresses numbers ∧
        w.manager? = some ((Manager.empty config).install topology.value.epoch []
          (opened topology.value.addresses numbers))

/-- When all pools have been tried, those that have come to be are put in place. -/
theorem manager?_await {m : Manager} (t : Topology) (ticket : ℕ) (added removed : List Address)
    (children : List (Child PoolOpening (Except Fault ℕ))) (h : w.manager? = some m) :
    let result := (Reconciling.await t ticket added removed children).run w
    match result.1 with
    | .wait r _ => ∃ children', r = .opening t ticket added removed children' ∧
        children'.map number? = children.map number? ∧ result.2.manager? = some m
    | .done _ => result.2.manager? =
        some (m.install t.epoch removed (opened added (children.map number?))) := by
  have hlocal := (Within.join PoolOpening.isLocal_poll children).holds w
  have hnumbers := PoolOpening.number?_join children w
  dsimp only
  rw [Reconciling.await, Progress.andThen, run_bind]
  generalize (Child.join PoolOpening.poll children).run w = joined at hlocal hnumbers
  obtain ⟨progress, w'⟩ := joined
  have hmanager : w'.manager? = some m := (manager?_of_cluster hlocal.cluster).trans h
  cases progress with
  | wait children' events => exact ⟨children', rfl, hnumbers, hmanager⟩
  | done results =>
    have hresults : results.map Except.toOption = children.map number? := hnumbers
    -- behind the installation the manager is left alone
    show ((withdrawLock .manager ticket).run (((Manager.leaving _ removed).forM fun p =>
      spawn (.draining p _)).run ((setManager _).run w').2).2).2.manager? = _
    rw [manager?_withdrawLock, manager?_of_cluster (cluster_spawnEach ..),
      manager?_setManager, hmanager, ← hresults, ← Reconciling.opened_of_results]
    rfl

theorem sound_await {topology : Watch Topology}
    {children : List (Child PoolOpening (Except Fault ℕ))}
    (tried : Tried config topology.value.addresses (children.map number?))
    (alone : w.manager? = some (.empty config)) :
    let step := Work.awaitCluster topology.version
      (Reconciling.await topology.value ticket topology.value.addresses [] children)
    Sound config topology (step.run w).1 (step.run w).2 := by
  have hawait := manager?_await topology.value ticket topology.value.addresses [] children alone
  dsimp only at hawait ⊢
  rw [Work.awaitCluster, Progress.andThen, run_bind]
  generalize (Reconciling.await topology.value ticket _ _ children).run w = awaited at hawait
  obtain ⟨progress, w'⟩ := awaited
  cases progress with
  | wait r events =>
    obtain ⟨children', rfl, hnumbers, hmanager⟩ := hawait
    exact ⟨ticket, children', rfl, hnumbers ▸ tried, hmanager⟩
  | done report => exact ⟨rfl, children.map number?, tried, hawait⟩

theorem missing_empty (config : ClientConfig) (t : Topology) :
    (Manager.empty config).missing t = t.addresses := by
  simp [Manager.missing, Manager.addresses, Manager.empty]

theorem decide_empty (config : ClientConfig) (t : Topology) :
    (Manager.empty config).decide t false = .apply t.addresses [] := by
  rw [Manager.decide_eq_apply_iff]
  refine ⟨rfl, ?_, (missing_empty config t).symm, rfl⟩
  rintro ⟨last, hlast, -⟩
  cases hlast

/-- A manager that has just come to be begins at once to open the pools of its first topology. -/
theorem run_start_of_fresh (h : w.cluster = some { core := .empty config }) (t : Topology) :
    ∃ w', w'.manager? = some (.empty config) ∧
      (Reconciling.start t false).run w =
        (Reconciling.openEach config t.addresses >>=
          Reconciling.await t w.stamp t.addresses []).run w' := by
  have hmanager : ((requestLock .manager).run w).2.manager? = some (.empty config) := by
    rw [manager?_requestLock, World.manager?, h]
    rfl
  have hheld : (((requestLock .manager).run w).2.lock .manager).isHeldBy w.stamp = true := by
    obtain ⟨now, stamp, network, links, depots, cluster, provider, entry, signals⟩ := w
    subst h
    exact decide_eq_true rfl
  have hticket : ((requestLock .manager).run w).1 = w.stamp := rfl
  refine ⟨_, hmanager, ?_⟩
  rw [Reconciling.start, run_bind, hticket, Reconciling.poll, run_holdsLock_bind, if_pos hheld,
    Reconciling.launch, run_manager_bind, hmanager, Option.getD_some, decide_empty]
  rfl

theorem exists_run_start (valid : config.connectionsFault? = none) (w₀ : World) :
    ∃ ticket w, w.manager? = some (.empty config) ∧
      (Operation.openCluster config).start.run w₀ =
        (Work.awaitCluster w₀.topology.version
          (Reconciling.openEach config w₀.topology.value.addresses >>=
            Reconciling.await w₀.topology.value ticket w₀.topology.value.addresses [])).run w := by
  let w₁ : World := { w₀ with cluster := some { core := .empty config } }
  obtain ⟨w, hmanager, hstart⟩ := run_start_of_fresh (w := w₁) rfl w₀.topology.value
  refine ⟨w₁.stamp, w, hmanager, ?_⟩
  rw [Operation.start, Operation.openManager, valid]
  show (Work.awaitCluster _ (Reconciling.start _ false)).run w₁ = _
  rw [Work.awaitCluster, Work.awaitCluster, Progress.andThen, Progress.andThen, run_bind, run_bind,
    hstart]

/-- What is known when the opening begins, and stays known. -/
theorem sound (h : Opening config w₀ progress w) (valid : config.connectionsFault? = none) :
    Sound config w₀.topology progress w := by
  induction h with
  | started =>
    obtain ⟨ticket, w, hmanager, hstart⟩ := exists_run_start valid w₀
    have hopened := manager?_of_cluster
      (cluster_openEach config w₀.topology.value.addresses w)
    rw [hstart]
    exact sound_await (tried_openEach config _ w) (hopened.trans hmanager)
  | @polled work events w w' waiting alone ih =>
    obtain ⟨ticket, children, rfl, tried, hmanager⟩ := ih
    exact sound_await tried (alone.trans hmanager)

/-! ### Configurations that are refused -/

/-- Without connections nothing is opened. -/
theorem refused (h : Opening config w₀ progress w)
    (invalid : config.connectionsFault? = some fault) :
    progress = .done (.result (.error fault)) ∧ w = w₀ := by
  induction h with
  | started =>
    rw [Operation.start, Operation.openManager, invalid]
    exact ⟨rfl, rfl⟩
  | polled waiting alone ih => cases ih.1

theorem run_openEach_of_invalid (invalid : config.poolFault? = some fault) (added : List Address)
    (w : World) : (Reconciling.openEach config added).run w =
      ((added.map fun _ => .error fault).map .ended, w) := by
  induction added with
  | nil => rfl
  | cons a rest ih =>
    rw [Reconciling.run_openEach_cons, PoolOpening.start_of_invalid invalid, ih]
    rfl

/-- A manager whose pools refuse the configuration does not wait for them. -/
theorem at_once_of_refusing_pools (valid : config.connectionsFault? = none)
    (invalid : config.poolFault? = some fault) (w₀ : World) :
    ((Operation.openCluster config).start.run w₀).1 = .done (.result (.ok .nothing)) := by
  obtain ⟨ticket, w, -, hstart⟩ := exists_run_start valid w₀
  rw [hstart, Work.awaitCluster, Progress.andThen, run_bind, run_bind,
    run_openEach_of_invalid invalid]
  dsimp only
  rw [Reconciling.await, Progress.andThen, run_bind, Child.run_join_ended]
  rfl

/-- A configuration without connections is refused by the manager as by every pool.  Any other is
accepted, and the topology counts as applied: then each address has a pool, unless the interval for
reconnecting is zero, which every pool refuses, and none has. -/
theorem manager_and_pools (h : Opening config w₀ (.done answer) w)
    (set : Address.IsSet w₀.topology.value.addresses) :
    (config.connections = 0 →
      answer = .result (.error (.config "connections must be at least 1")) ∧ w = w₀ ∧
      ∀ a w', (PoolOpening.start a config).run w' =
        (.done (.error (.config "connections must be at least 1")), w')) ∧
    (config.connections ≠ 0 →
      answer = .result (.ok .nothing) ∧ ∃ m, w.manager? = some m ∧
        m.applied = some w₀.topology.value.epoch ∧
        (config.reconnectInterval ≠ .zero → m.addresses = w₀.topology.value.addresses) ∧
        (config.reconnectInterval = .zero → m.addresses = [] ∧
          ∀ a w', (PoolOpening.start a config).run w' =
            (.done (.error (.config "reconnect interval must not be zero")), w'))) := by
  refine ⟨fun hnone => ?_, fun hsome => ?_⟩
  · have hfault : config.connectionsFault? = some (.config "connections must be at least 1") :=
      if_pos hnone
    have hpool : config.poolFault? = some (.config "connections must be at least 1") := by
      rw [ClientConfig.poolFault?, hfault]
      rfl
    obtain ⟨hanswer, hworld⟩ := h.refused hfault
    cases hanswer
    exact ⟨rfl, hworld, PoolOpening.start_of_invalid hpool⟩
  · have hvalid : config.connectionsFault? = none := if_neg hsome
    obtain ⟨hanswer, numbers, tried, hmanager⟩ := h.sound hvalid
    refine ⟨hanswer, _, hmanager, rfl, fun hinterval => ?_, fun hinterval => ?_⟩
    · have hpool : config.poolFault? = none :=
        ClientConfig.poolFault?_eq_none_iff.mpr ⟨Nat.one_le_iff_ne_zero.mpr hsome, hinterval⟩
      have hall := (tried.map_fst_opened hpool).trans (missing_empty config _).symm
      exact Manager.addresses_install (Manager.isSorted_empty config) set hall _
    · have hpool : config.poolFault? = some (.config "reconnect interval must not be zero") := by
        rw [ClientConfig.poolFault?, hvalid, if_pos hinterval]
        rfl
      rw [tried.opened_eq_nil hpool]
      exact ⟨rfl, PoolOpening.start_of_invalid hpool⟩

/-- The only server refuses all connections; there is a pool for it nevertheless. -/
theorem manager_and_pools_unreachable :
    let address : Address := ⟨"h", 1⟩
    let w₀ : World :=
      { provider := some ⟨.start ⟨[address], 1⟩, none, .free, false⟩
        network := { servers := some [] } }
    ∃ w m, Opening {} w₀ (.done (.result (.ok .nothing))) w ∧ w.manager? = some m ∧
      m.addresses = [address] := by
  intro address w₀
  obtain ⟨answer, hended⟩ : ∃ answer,
      ((Operation.openCluster {}).start.run w₀).1.child.ended? = some answer :=
    Option.isSome_iff_exists.mp (by decide +kernel)
  have hdone : ((Operation.openCluster {}).start.run w₀).1 = .done answer := by
    generalize ((Operation.openCluster {}).start.run w₀).1 = progress at hended ⊢
    cases progress with
    | done a => exact congrArg Progress.done (Option.some.inj hended)
    | wait work events => cases hended
  have hopening : Opening {} w₀ (.done answer) ((Operation.openCluster {}).start.run w₀).2 :=
    hdone ▸ .started
  obtain ⟨-, hopened⟩ := hopening.manager_and_pools (List.pairwise_singleton ..)
  obtain ⟨hanswer, m, hmanager, -, haddresses, -⟩ := hopened (by decide)
  exact ⟨_, m, hanswer ▸ hopening, hmanager, haddresses (by decide)⟩

/-- A manager whose pools refuse the interval for reconnecting is opened all the same, and has no
pool for the only address. -/
theorem comes_up_empty :
    let config : ClientConfig := { reconnectInterval := .zero }
    let w₀ : World := { provider := some ⟨.start ⟨[⟨"h", 1⟩], 1⟩, none, .free, false⟩ }
    config.poolFault? = some (.config "reconnect interval must not be zero") ∧
      ∃ w m, Opening config w₀ (.done (.result (.ok .nothing))) w ∧ w.manager? = some m ∧
        m.applied = some 1 ∧ ⟨"h", 1⟩ ∈ w₀.topology.value.addresses ∧ m.pool? ⟨"h", 1⟩ = none := by
  intro config w₀
  have hdone : ((Operation.openCluster config).start.run w₀).1 =
      .done (.result (.ok .nothing)) := by
    rfl
  have hopening : Opening config w₀ (.done (.result (.ok .nothing)))
      ((Operation.openCluster config).start.run w₀).2 := hdone ▸ .started
  exact ⟨by decide, _, _, hopening, rfl, rfl, List.mem_singleton_self _, rfl⟩

end Opening

end Simulation

end Switchboard
