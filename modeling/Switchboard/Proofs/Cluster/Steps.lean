import Mathlib.Logic.Function.Basic
import Switchboard.Lock
import Switchboard.Proofs.Cluster.Managers
import Switchboard.Proofs.Pools.Steps
import Switchboard.Watch

/-!
# The steps of those who use a manager

Callers that apply topologies, refresh or close the manager, and followers that apply what the
provider publishes, one indivisible step at a time.  Applying a topology holds the lock from the
decision until the last pool is handed to the background; closing first marks the manager as closed
and then waits for the lock, and it has returned once all pools that it has begun to close have been
closed.  In between any other party may go on, and the provider and the users of a pool do as they
like.

## Main definitions

- `Upkeep.Site` — what the parties share
- `Upkeep.Applying`, `Upkeep.Closing`, `Upkeep.Party` — how far a party has come
- `Upkeep.Step` — what may happen next
- `Upkeep.Run` — the steps of all parties in any order

## Design notes

Each pool stands with those who use it, and takes their steps as a whole; closing the manager adds a
party to each.  What a pool knows of connections is its own: it is more than can happen if pools do
not agree on them.
-/

namespace Switchboard

namespace Upkeep

/-- What the parties share. -/
structure Site where
  manager : Manager
  /-- is held while a topology is applied and while the pools are closed -/
  lock : Lock
  /-- the pools that have ever been opened, by number, with those who use them -/
  pools : List Stocking.State
  /-- the pools handed to the background to be drained and closed, in order -/
  drained : List ℕ
  /-- the pools that closing the manager has taken out of it -/
  taken : List ℕ
  /-- what the provider has published -/
  topology : Watch Topology

/-! ### Applying a topology -/

/-- How far applying a topology has come. -/
inductive Applying where
  /-- the topology has been read -/
  | wanted (t : Topology) (forced : Bool)
  /-- the lock has been asked for -/
  | queued (t : Topology) (forced : Bool)
  /-- a pool is opened for each of the addresses `todo` -/
  | opening (t : Topology) (forced : Bool) (added removed todo : List Address)
      (opened : List (Address × ℕ))
  /-- the pools `leaving` are handed to the background -/
  | parting (t : Topology) (forced : Bool) (report : Reconciliation) (leaving : List ℕ)

/-- The steps of applying a topology.  The party is known to the lock by the ticket. -/
inductive Applying.Step (c : Site) (ticket : ℕ) : Applying → Site → Applying → Prop
  | requested {t forced} :
    Step c ticket (.wanted t forced) { c with lock := c.lock.request ticket } (.queued t forced)
  | ignored {t forced} (granted : c.lock.isHeldBy ticket = true)
    (decision : c.manager.decide t forced = .ignore) :
    Step c ticket (.queued t forced) c (.parting t forced ⟨t.epoch, [], [], false⟩ [])
  | stale {t forced} (granted : c.lock.isHeldBy ticket = true)
    (decision : c.manager.decide t forced = .stale) :
    Step c ticket (.queued t forced) c (.parting t forced ⟨t.epoch, [], [], true⟩ [])
  | begun {t forced added removed} (granted : c.lock.isHeldBy ticket = true)
    (decision : c.manager.decide t forced = .apply added removed) :
    Step c ticket (.queued t forced) c (.opening t forced added removed added [])
  | opened (stages : List Stage) {t forced added removed a rest opened}
    (valid : c.manager.config.poolFault? = none) :
    Step c ticket (.opening t forced added removed (a :: rest) opened)
      { c with pools := c.pools ++ [Stocking.start a c.manager.config stages] }
      (.opening t forced added removed rest (opened ++ [(a, c.pools.length)]))
  | failed {t forced added removed a rest opened fault}
    (invalid : c.manager.config.poolFault? = some fault) :
    Step c ticket (.opening t forced added removed (a :: rest) opened) c
      (.opening t forced added removed rest opened)
  | installed {t forced added removed opened} :
    Step c ticket (.opening t forced added removed [] opened)
      { c with manager := c.manager.install t.epoch removed opened }
      (.parting t forced ⟨t.epoch, added, removed, false⟩ (c.manager.leaving removed))
  | handed {t forced report p rest} :
    Step c ticket (.parting t forced report (p :: rest)) { c with drained := c.drained ++ [p] }
      (.parting t forced report rest)

/-! ### Closing the manager -/

/-- How far closing the manager has come, once it is marked as closed. -/
inductive Closing where
  | marked
  /-- the lock has been asked for -/
  | queued
  /-- the pools have been taken out; `rest` are still to be closed, and the ends of `begun` are
  waited for, each of them a pool and the party that closes it -/
  | sweeping (rest : List ℕ) (begun : List (ℕ × ℕ))

/-- The steps of closing the manager. -/
inductive Closing.Step (c : Site) (ticket : ℕ) : Closing → Site → Closing → Prop
  | requested : Step c ticket .marked { c with lock := c.lock.request ticket } .queued
  | taken (granted : c.lock.isHeldBy ticket = true) :
    Step c ticket .queued
      { c with manager := c.manager.takeAll.2, taken := c.taken ++ c.manager.takeAll.1 }
      (.sweeping c.manager.takeAll.1 [])
  | begins {p k t rest begun} (found : c.pools[p]? = some t) (idle : t.parties k = .idle)
    (first : t.site.pool.closed = false) :
    Step c ticket (.sweeping (p :: rest) begun) { c with pools := c.pools.set p (t.mark k) }
      (.sweeping rest (begun ++ [(p, k)]))
  /-- somebody else has begun to close the pool -/
  | passes {p t rest begun} (found : c.pools[p]? = some t) (again : t.site.pool.closed = true) :
    Step c ticket (.sweeping (p :: rest) begun) c (.sweeping rest begun)
  | ended {p k t rest} (front back : List (ℕ × ℕ)) (found : c.pools[p]? = some t)
    (returned : t.parties k = .closed) :
    Step c ticket (.sweeping rest (front ++ (p, k) :: back)) c (.sweeping rest (front ++ back))

/-! ### All parties -/

/-- What a party may be told to do. -/
inductive Call where
  | reconcile (t : Topology)
  /-- applies the provider's topology again -/
  | refresh
  | close
  /-- applies the provider's topology, and then each one that it publishes -/
  | follow

/-- How far a party has come.  A party that follows the provider keeps the version that it has
seen. -/
inductive Party where
  | idle
  | applying (seen : Option ℕ) (work : Applying)
  | answered (t : Topology) (forced : Bool) (report : Reconciliation)
  /-- a follower looks at the provider's topology -/
  | looking
  /-- a follower waits for a version that it has not seen -/
  | waiting (seen : ℕ)
  /-- a follower has noticed that the manager is closed -/
  | stopped
  | closing (work : Closing)
  | closed
  /-- somebody else had begun to close the manager -/
  | turnedAway

/-- A party begins with what it is told to do. -/
inductive Call.Begins (c : Site) : Call → Site → Party → Prop
  | reconcile {t} (set : Address.IsSet t.addresses) :
    Begins c (.reconcile t) c (.applying none (.wanted t false))
  | refresh : Begins c .refresh c (.applying none (.wanted c.topology.value true))
  | close {m} (first : c.manager.beginClose? = some m) :
    Begins c .close { c with manager := m } (.closing .marked)
  | closeAgain (again : c.manager.beginClose? = none) : Begins c .close c .turnedAway
  | follow : Begins c .follow c .looking

/-- The steps of a party. -/
inductive Party.Step (c : Site) (k : ℕ) : Party → Site → Party → Prop
  | applying {seen work c' work'} (step : Applying.Step c k work c' work') :
    Step c k (.applying seen work) c' (.applying seen work')
  | answered {t forced report} :
    Step c k (.applying none (.parting t forced report [])) { c with lock := c.lock.withdraw k }
      (.answered t forced report)
  | applied {seen t forced report} :
    Step c k (.applying (some seen) (.parting t forced report []))
      { c with lock := c.lock.withdraw k } (.waiting seen)
  | woken {seen} (news : c.topology.isUnseen seen = true) : Step c k (.waiting seen) c .looking
  | looked :
    Step c k .looking c (.applying (some c.topology.version) (.wanted c.topology.value false))
  | stopped {seen} (noticed : c.manager.closed = true) : Step c k (.waiting seen) c .stopped
  | closing {work c' work'} (step : Closing.Step c k work c' work') :
    Step c k (.closing work) c' (.closing work')
  | closed : Step c k (.closing (.sweeping [] [])) { c with lock := c.lock.withdraw k } .closed

/-- Nobody but the provider changes what is published. -/
theorem Party.Step.topology_eq {c c' : Site} {k : ℕ} {x y : Party} (h : Party.Step c k x c' y) :
    c'.topology = c.topology := by
  cases h with
  | applying step => cases step <;> rfl
  | closing step => cases step <;> rfl
  | _ => rfl

/-- The site and the parties, by number. -/
structure State where
  site : Site
  parties : ℕ → Party

namespace State

/-- A party and the site have moved on. -/
def move (s : State) (k : ℕ) (site : Site) (x : Party) : State :=
  ⟨site, Function.update s.parties k x⟩

/-- The site has moved on. -/
def withSite (s : State) (site : Site) : State :=
  { s with site }

@[simp] theorem move_site (s : State) (k : ℕ) (site : Site) (x : Party) :
    (s.move k site x).site = site :=
  rfl

@[simp] theorem move_self (s : State) (k : ℕ) (site : Site) (x : Party) :
    (s.move k site x).parties k = x :=
  Function.update_self ..

theorem move_of_ne {j k : ℕ} (h : j ≠ k) (s : State) (site : Site) (x : Party) :
    (s.move k site x).parties j = s.parties j :=
  Function.update_of_ne h ..

@[simp] theorem move_move (s : State) (k : ℕ) (site site' : Site) (x x' : Party) :
    (s.move k site x).move k site' x' = s.move k site' x' := by
  simp only [move, Function.update_idem]

end State

/-- Who does something. -/
inductive Action where
  | call (k : ℕ) (call : Call)
  | proceed (k : ℕ)
  /-- the provider publishes a topology -/
  | publish (t : Topology)
  /-- those who use a pool do so -/
  | use (p : ℕ)

/-- Something happens. -/
inductive Step (s : State) : Action → State → Prop
  | call {k call site x} (idle : s.parties k = .idle) (begins : call.Begins s.site site x) :
    Step s (.call k call) (s.move k site x)
  | proceed {k site x} (step : Party.Step s.site k (s.parties k) site x) :
    Step s (.proceed k) (s.move k site x)
  | publish {t} (set : Address.IsSet t.addresses) :
    Step s (.publish t) (s.withSite { s.site with topology := s.site.topology.set t })
  | use {p t t'} (found : s.site.pools[p]? = some t) (step : Stocking.Step t t') :
    Step s (.use p) (s.withSite { s.site with pools := s.site.pools.set p t' })

/-- A step that has been taken. -/
structure Transition where
  before : State
  action : Action
  after : State

/-- Things happen in any order, from one state to another. -/
inductive Run (start : State) : List Transition → State → Prop
  | nil : Run start [] start
  | snoc {run s a s'} (init : Run start run s) (last : Step s a s') :
    Run start (run ++ [⟨s, a, s'⟩]) s'

/-- A manager without pools, and a provider that has published nothing but that there are no
addresses.  Nobody has done anything. -/
def start (config : ClientConfig) : State :=
  ⟨⟨.empty config, .free, [], [], [], .start .empty⟩, fun _ => .idle⟩

theorem Step.of_party {s : State} {k : ℕ} {x y : Party} {site : Site} (h : s.parties k = x)
    (step : Party.Step s.site k x site y) : Step s (.proceed k) (s.move k site y) :=
  .proceed (h ▸ step)

theorem Run.append {start s s' : State} {run rest : List Transition} (h : Run start run s)
    (h' : Run s rest s') : Run start (run ++ rest) s' := by
  induction h' with
  | nil => rwa [List.append_nil]
  | snoc _ last ih =>
    rw [← List.append_assoc]
    exact ih.snoc last

theorem Run.single {s s' : State} {a : Action} (h : Step s a s') : Run s [⟨s, a, s'⟩] s' :=
  Run.nil.snoc h

end Upkeep

end Switchboard
