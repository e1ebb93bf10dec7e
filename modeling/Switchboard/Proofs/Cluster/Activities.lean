import Switchboard.Proofs.Cluster.Children
import Switchboard.Proofs.Cluster.Ownership
import Switchboard.Proofs.Cluster.Updates

/-!
# Activities take the steps of parties

Each time that an activity is given the chance to go on it takes some of its party's steps, one
after the other, and those who work on pools for it take theirs.  So what holds of all runs holds of
the activities, in whatever order the scheduler lets them go on.

A follower that applies one topology after the other stands in line under another ticket each time.
It goes along with another party each time, one that begins to follow.

## Main definitions

- `Simulation.GoesAlong` — a party has taken steps as its activity has
- `Simulation.Reconciling.Stands`, `Simulation.ClusterClosing.Stands`,
  `Simulation.Reconciler.Stands` — where a party stands whose activity waits

## Main statements

- `Simulation.GoesAlong.exists_run` — a run goes on when an activity does
- `Simulation.Reconciling.start_goesAlong`, `Simulation.Reconciling.poll_goesAlong` — applying a
  topology
- `Simulation.ClusterClosing.start_goesAlong`, `Simulation.ClusterClosing.poll_goesAlong` — closing
  the manager
- `Simulation.ClusterClosing.empties` — nothing is left of the pools when closing the manager has
  ended
- `Simulation.Reconciler.wait_goesAlong` — following the provider
- `Simulation.Polling.await_publishes` — what the provider does
-/

namespace Switchboard

namespace Simulation

open Upkeep

/-- A party has gone along with a step of its activity: what the parties share is as the steps have
left it, and the party stands where the activity waits or has ended as the activity has.  What the
activity waits for in the end is tied to the parties that it was tied to, or to new ones. -/
inductive GoesAlong {σ α : Type} (drained : List ℕ) (ticket : ℕ) (keys : List (ℕ × ℕ)) (w : World)
    (c : Site) (x : Party) (stands : World → Site → List (ℕ × ℕ) → σ → Party → Prop)
    (ends : α → Party → Prop) : Progress σ α × World → Prop
  | waits {r events w' c' y keys'} (leads : Leads drained ticket keys w c x w' c' y)
    (owned : ∀ key ∈ keys', key ∈ keys ∨ w.stamp ≤ key.2) (rest : stands w' c' keys' r y) :
    GoesAlong drained ticket keys w c x stands ends (.wait r events, w')
  | done {a w' c' y} (leads : Leads drained ticket keys w c x w' c' y) (rest : ends a y) :
    GoesAlong drained ticket keys w c x stands ends (.done a, w')

namespace GoesAlong

variable {σ α : Type} {drained : List ℕ} {ticket : ℕ} {keys keys' : List (ℕ × ℕ)} {w w' : World}
  {c c' : Site} {x x' : Party} {stands : World → Site → List (ℕ × ℕ) → σ → Party → Prop}
  {ends : α → Party → Prop} {result : Progress σ α × World}

theorem head (first : Leads drained ticket keys w c x w' c' x')
    (rest : GoesAlong drained ticket keys' w' c' x' stands ends result)
    (owned : ∀ key ∈ keys', key ∈ keys ∨ w.stamp ≤ key.2) :
    GoesAlong drained ticket keys w c x stands ends result := by
  cases rest with
  | waits leads owned' rest =>
    refine .waits (first.trans leads owned) (fun key hkey => ?_) rest
    exact (owned' key hkey).elim (owned key) fun hnew => .inr (first.stamp.trans hnew)
  | done leads rest => exact .done (first.trans leads owned) rest

/-- A run goes on when an activity does, and no party moves but its own. -/
theorem exists_run {s : State} (h : GoesAlong drained ticket keys w s.site x stands ends result)
    (hx : s.parties ticket = x) :
    ∃ run s', Run s run s' ∧
      Leads drained ticket keys w s.site x result.2 s'.site (s'.parties ticket) ∧
      (∀ j ≠ ticket, s'.parties j = s.parties j) ∧
      match result.1 with
      | .wait r _ => ∃ keys', stands result.2 s'.site keys' r (s'.parties ticket)
      | .done a => ends a (s'.parties ticket) := by
  cases h with
  | waits leads owned rest =>
    obtain ⟨run, s', hrun, rfl, rfl, hothers⟩ := leads.exists_run hx
    exact ⟨run, s', hrun, leads, hothers, _, rest⟩
  | done leads rest =>
    obtain ⟨run, s', hrun, rfl, rfl, hothers⟩ := leads.exists_run hx
    exact ⟨run, s', hrun, leads, hothers, rest⟩

end GoesAlong

variable {drained : List ℕ} {ticket p k : ℕ} {keys keys' : List (ℕ × ℕ)} {w w' : World}
  {c c' : Site} {x : Party}

/-! ### Opening pools -/

namespace PoolOpening

/-- The number of a pool that is being opened or has been. -/
def number? : Child PoolOpening (Except Fault ℕ) → Option ℕ
  | .running o => some o.pool
  | .ended result => result.toOption

theorem number?_finish (p : ℕ) (work : Replenishing.Step) (w : World) :
    number? ((finish p work).run w).1.child = some p := by
  unfold finish Progress.andThen
  rw [run_bind]
  cases (work.run w).1 <;> rfl

theorem number?_start {config : ClientConfig} (valid : config.poolFault? = none) (a : Address)
    (w : World) : number? ((PoolOpening.start a config).run w).1.child = some w.depots.size := by
  rw [start_of_valid valid]
  exact number?_finish ..

theorem number?_pollAll (work : List (Child PoolOpening (Except Fault ℕ))) (w : World) :
    ((Child.pollAll poll work).run w).1.1.map number? = work.map number? := by
  induction work generalizing w with
  | nil => rfl
  | cons child rest ih =>
    cases child with
    | ended result =>
      rw [Child.pollAll, run_bind]
      simp only [List.map_cons, ← ih w]
      rfl
    | running o =>
      have hnumber : number? (o.poll.run w).1.child = some o.pool := number?_finish ..
      rw [Child.pollAll, run_bind, List.map_cons, ← ih (o.poll.run w).2]
      cases hprogress : (o.poll.run w).1 <;> rw [hprogress] at hnumber <;>
        exact congrArg (· :: _) hnumber

theorem number?_of_results {work : List (Child PoolOpening (Except Fault ℕ))}
    {results : List (Except Fault ℕ)} (h : Child.results? work = some results) :
    results.map Except.toOption = work.map number? := by
  rw [Child.eq_of_results? h, List.map_map]
  rfl

/-- Waiting for the pools does not change which they are. -/
theorem number?_join (work : List (Child PoolOpening (Except Fault ℕ))) (w : World) :
    match ((Child.join poll work).run w).1 with
    | .done results => results.map Except.toOption = work.map number?
    | .wait work' _ => work'.map number? = work.map number? := by
  have hpolled := number?_pollAll work w
  rw [Child.join, run_bind]
  generalize (Child.pollAll poll work).run w = polled at hpolled
  obtain ⟨⟨children, events⟩, w'⟩ := polled
  dsimp only at hpolled ⊢
  cases hresults : Child.results? children with
  | none => exact hpolled
  | some results => exact (number?_of_results hresults).trans hpolled

/-- Parties of pools stand where the openings wait. -/
abbrev WorksAll : World → Site → List PoolOpening → List (ℕ × ℕ) → Prop :=
  TiedAll PoolOpening.pool fun k o => Replenishing.Stands k o.work

/-- The pool is there once its connections have been opened. -/
theorem finish_leads (ticket : ℕ) (keys : List (ℕ × ℕ)) (x : Party) {t : Stocking.State}
    {a : Stocking.Party} {work : Replenishing.Step}
    (h : Accompanies p k w a (Replenishing.Stands k) (fun n y => y = .replenished n) (work.run w))
    (hlocal : IsLocal work) (hc : Fits drained w c) (found : c.pools[p]? = some t)
    (turn : t.parties k = a) (old : k < (work.run w).2.stamp)
    (owned : (p, k) ∈ keys ∨ w.stamp ≤ k) :
    ∃ c', Leads drained ticket keys w c x ((finish p work).run w).2 c' x ∧
      TiedAfter PoolOpening.pool (fun k o => Replenishing.Stands k o.work) (fun _ => True)
        ((finish p work).run w).2 c' (p, k) ((finish p work).run w).1 := by
  obtain ⟨pools', t', hleads, found', hrest⟩ := h.leads ticket keys x (hlocal.holds w)
    hc found turn old owned
  rw [finish, Progress.andThen, run_bind]
  generalize work.run w = worked at *
  obtain ⟨_ | ⟨r, events⟩, w'⟩ := worked
  · have hspawned := (untouched_spawn (s := .maintenance p) (by rintro _ _ ⟨⟩)).holds w'
    refine ⟨_, hleads.then_untouched hspawned, ?_⟩
    exact ⟨Nat.lt_of_lt_of_le old hspawned.stamp, t', found', trivial⟩
  · exact ⟨_, hleads, ⟨rfl, old, t', found', hrest⟩⟩

/-- Whenever the opening of a pool goes on, so does a party of the pool. -/
theorem drives : Drives poll PoolOpening.pool (fun k o => Replenishing.Stands k o.work)
    fun _ => True := by
  rintro drained ticket x w c o ⟨p, k⟩ hc ⟨rfl, hold, t, found, hstands⟩
  have hp := (hc.pools.tracks _ t found).known
  have hpolled := Replenishing.poll_accompanies hstands hp
  exact finish_leads ticket _ x hpolled (Replenishing.isLocal_poll ..) hc found rfl
    (hold.trans_le hpolled.stamp_le) (.inl (List.mem_singleton_self _))

end PoolOpening

/-- A pool comes to be that was to be opened next. -/
theorem PoolOpening.start_leads {y : Party} {config : ClientConfig}
    (valid : config.poolFault? = none) (a : Address) (hc : Fits drained w c)
    (opens : Party.Step c ticket x { c with
      pools := c.pools ++ [Stocking.start a config (w.links.toList.map (·.core.stage))] } y) :
    ∃ c' new, Leads drained ticket [] w c x ((PoolOpening.start a config).run w).2 c' y ∧
      PoolOpening.WorksAll ((PoolOpening.start a config).run w).2 c'
        ((PoolOpening.start a config).run w).1.child.running?.toList new ∧
      ∀ key ∈ new, w.stamp ≤ key.2 := by
  have hpushed := hc.push a config
  have hp : w.depots.size <
      { w with depots := w.depots.push { core := .empty a config } }.depots.size := by
    rw [Array.size_push]
    exact Nat.lt_succ_self _
  have hopened : Leads drained ticket [] w c x _ _ y := .step opens hpushed le_rfl fun p u hu =>
    (List.getElem?_append_left (List.getElem?_eq_some_iff.mp hu).1).trans hu
  have found := List.getElem?_concat_length (l := c.pools)
    (a := Stocking.start a config (w.links.toList.map (·.core.stage)))
  rw [hc.pools.length] at found
  obtain ⟨c', hleads, htied⟩ := PoolOpening.finish_leads ticket [] y
    (Replenishing.start_accompanies hp) (Replenishing.isLocal_start _) hpushed found rfl
    (Replenishing.lt_stamp_start hp) (.inr le_rfl)
  rw [PoolOpening.start_of_valid valid]
  have hall := hopened.trans hleads fun _ => .inl
  generalize (PoolOpening.finish _ _).run _ = started at *
  obtain ⟨_ | ⟨o, events⟩, w'⟩ := started
  · exact ⟨c', [], hall, .nil, fun key hkey => absurd hkey List.not_mem_nil⟩
  · exact ⟨c', _, hall, .single htied, fun key hkey => (List.mem_singleton.mp hkey) ▸ le_rfl⟩

/-! ### Applying a topology -/

namespace Reconciling

open PoolOpening (number?)

/-- The pools opened for addresses, leaving out those that could not be. -/
def opened (added : List Address) (numbers : List (Option ℕ)) : List (Address × ℕ) :=
  (added.zip numbers).filterMap fun e => e.2.map (e.1, ·)

theorem opened_of_results (added : List Address) (results : List (Except Fault ℕ)) :
    (added.zip results).filterMap (fun e => e.2.toOption.map (e.1, ·)) =
      opened added (results.map Except.toOption) := by
  rw [opened, List.zip_map_right, List.filterMap_map]
  rfl

/-- Where a party stands whose activity applies a topology. -/
inductive Stands (ticket : ℕ) (seen : Option ℕ) (w : World) (c : Site) :
    List (ℕ × ℕ) → Reconciling → Party → Prop
  | queued {t forced} :
    Stands ticket seen w c [] (.queued t forced ticket) (.applying seen (.queued t forced))
  | opening {t forced added removed work keys}
    (works : PoolOpening.WorksAll w c (work.filterMap Child.running?) keys) :
    Stands ticket seen w c keys (.opening t ticket added removed work)
      (.applying seen (.opening t forced added removed [] (opened added (work.map number?))))

/-- Where a party stands whose activity has applied a topology. -/
inductive Ends : Option ℕ → Reconciliation → Party → Prop
  | answered {t forced report} : Ends none report (.answered t forced report)
  | applied {seen report} : Ends (some seen) report (.waiting seen)

variable {seen : Option ℕ} {t : Topology} {forced : Bool} {added removed : List Address}

/-- What others do does not matter to the party. -/
theorem Stands.of_leads {r : Reconciling} {j : ℕ} {a b : Party}
    (h : Stands ticket seen w c keys r x) (leads : Leads drained j keys' w c a w' c' b)
    (others : ∀ key ∈ keys, key ∉ keys') : Stands ticket seen w' c' keys r x := by
  cases h with
  | queued => exact .queued
  | opening works => exact .opening (works.of_leads leads others)

theorem run_openEach_cons (config : ClientConfig) (a : Address) (rest : List Address) (w : World) :
    (openEach config (a :: rest)).run w =
      (((PoolOpening.start a config).run w).1.child ::
          ((openEach config rest).run ((PoolOpening.start a config).run w).2).1,
        ((openEach config rest).run ((PoolOpening.start a config).run w).2).2) := by
  rw [openEach, run_bind]
  cases ((PoolOpening.start a config).run w).1 <;> rfl

theorem undisturbed_start {config : ClientConfig} (h : config.poolFault? = none) (a : Address)
    (w : World) : Undisturbed { w with depots := w.depots.push { core := .empty a config } }
      ((PoolOpening.start a config).run w).2 := by
  rw [PoolOpening.start_of_valid h]
  exact (PoolOpening.isLocal_finish _ (Replenishing.isLocal_start _)).holds _

/-- A pool is opened for each of the addresses, or for none if the configuration is at fault. -/
theorem openEach_leads (ticket : ℕ) (seen : Option ℕ) (t : Topology) (forced : Bool)
    (added removed : List Address) {config : ClientConfig} (todo : List Address)
    (hc : Fits drained w c) (hconfig : c.manager.config = config) (before : List (Address × ℕ)) :
    ∃ c' keys, Leads drained ticket [] w c
        (.applying seen (.opening t forced added removed todo before))
        ((openEach config todo).run w).2 c'
        (.applying seen (.opening t forced added removed []
          (before ++ opened todo (((openEach config todo).run w).1.map number?)))) ∧
      PoolOpening.WorksAll ((openEach config todo).run w).2 c'
        (((openEach config todo).run w).1.filterMap Child.running?) keys ∧
      ∀ key ∈ keys, w.stamp ≤ key.2 := by
  induction todo generalizing w c before with
  | nil =>
    refine ⟨c, [], ?_, .nil, fun key hkey => absurd hkey List.not_mem_nil⟩
    rw [show opened [] _ = [] from rfl, List.append_nil]
    exact .refl hc
  | cons a rest ih =>
    rw [run_openEach_cons]
    cases hfault : config.poolFault? with
    | some fault =>
      have hfailed : Leads drained ticket [] w c
          (.applying seen (.opening t forced added removed (a :: rest) before)) w c
          (.applying seen (.opening t forced added removed rest before)) :=
        .step (.applying (.failed (hconfig ▸ hfault))) hc le_rfl fun _ _ => id
      rw [PoolOpening.start_of_invalid hfault]
      obtain ⟨c', keys, hleads, hworks, hfresh⟩ := ih hc hconfig before
      exact ⟨c', keys, hfailed.trans hleads fun _ => .inl, hworks, hfresh⟩
    | none =>
      have hopens : Party.Step c ticket
          (.applying seen (.opening t forced added removed (a :: rest) before)) _
          (.applying seen (.opening t forced added removed rest
            (before ++ [(a, c.pools.length)]))) :=
        .applying (.opened (w.links.toList.map (·.core.stage)) (hconfig ▸ hfault))
      rw [hconfig, hc.pools.length] at hopens
      obtain ⟨c₁, new, hfirst, hnew, hmine⟩ := PoolOpening.start_leads hfault a hc hopens
      have hnumber := PoolOpening.number?_start hfault a w
      have hcluster : ((PoolOpening.start a config).run w).2.cluster = w.cluster :=
        (undisturbed_start hfault a w).cluster
      generalize (PoolOpening.start a config).run w = started at *
      have hmanager : c₁.manager.config = config := by
        rw [hfirst.fits.manager, World.manager?, hcluster, ← hconfig, hc.manager]
        rfl
      obtain ⟨c', keys, hleads, hworks, hfresh⟩ :=
        ih hfirst.fits hmanager (before ++ [(a, w.depots.size)])
      have hlater : ∀ key ∈ keys, w.stamp ≤ key.2 :=
        fun key hkey => hfirst.stamp.trans (hfresh key hkey)
      refine ⟨c', new ++ keys, ?_, ?_, List.forall_mem_append.mpr ⟨hmine, hlater⟩⟩
      · have hall := hfirst.trans hleads fun _ => .inl
        rw [List.append_assoc] at hall
        rwa [List.map_cons, hnumber]
      · have happend := hnew.append hleads hworks hfresh
        rw [List.filterMap_cons]
        cases hrunning : started.1.child.running? <;> rw [hrunning] at happend <;> exact happend

/-- The pools let go of are handed to the background. -/
theorem spawn_leads (ticket : ℕ) (seen : Option ℕ) (t : Topology) (forced : Bool)
    (report : Reconciliation) (limit : Duration) (leaving : List ℕ) (hc : Fits drained w c) :
    ∃ c', Leads drained ticket [] w c (.applying seen (.parting t forced report leaving))
      ((leaving.forM fun p => spawn (.draining p limit)).run w).2 c'
      (.applying seen (.parting t forced report [])) := by
  induction leaving generalizing w c with
  | nil => exact ⟨c, .refl hc⟩
  | cons p rest ih =>
    have hhanded : Leads drained ticket [] w c
        (.applying seen (.parting t forced report (p :: rest))) _ _
        (.applying seen (.parting t forced report rest)) :=
      .step (.applying .handed) (hc.spawn_draining p limit) le_rfl fun _ _ => id
    obtain ⟨c', hrest⟩ := ih hhanded.fits
    exact ⟨c', hhanded.trans hrest fun _ => .inl⟩

/-- The lock is given back. -/
theorem withdraw_goesAlong (t : Topology) (forced : Bool) (report : Reconciliation)
    (hc : Fits drained w c) :
    GoesAlong drained ticket [] w c (.applying seen (.parting t forced report []))
      (Stands ticket seen) (Ends seen)
      (.done report, ((withdrawLock .manager ticket).run w).2) := by
  cases seen with
  | none => exact .done (.withdrawLock hc .answered) .answered
  | some seen => exact .done (.withdrawLock hc .applied) .applied

/-- All openings have ended: what has been opened is put in its place. -/
theorem install_goesAlong (forced : Bool) (results : List (Except Fault ℕ))
    (hc : Fits drained w c) :
    GoesAlong drained ticket [] w c
      (.applying seen (.opening t forced added removed []
        (opened added (results.map Except.toOption)))) (Stands ticket seen) (Ends seen)
      ((do
        let m ← manager
        let opened := (added.zip results).filterMap fun (a, r) => r.toOption.map (a, ·)
        setManager (m.install t.epoch removed opened)
        (m.leaving removed).forM fun p => spawn (.draining p m.config.requestTimeout)
        withdrawLock .manager ticket
        return .done ⟨t.epoch, added, removed, false⟩ : Step).run w) := by
  have hinstalled : Leads drained ticket [] w c
      (.applying seen (.opening t forced added removed []
        (opened added (results.map Except.toOption)))) _ _
      (.applying seen (.parting t forced ⟨t.epoch, added, removed, false⟩
        (c.manager.leaving removed))) :=
    .step (.applying .installed) (hc.setManager _ c.taken) le_rfl fun _ _ => id
  obtain ⟨c', hhanded⟩ := spawn_leads ticket seen t forced ⟨t.epoch, added, removed, false⟩
    c.manager.config.requestTimeout (c.manager.leaving removed) hinstalled.fits
  rw [← opened_of_results, hc.manager] at *
  exact .head (hinstalled.trans hhanded fun _ => .inl)
    (withdraw_goesAlong t forced _ hhanded.fits) fun _ => .inl

theorem await_goesAlong (forced : Bool) (work : List (Child PoolOpening (Except Fault ℕ)))
    (hc : Fits drained w c)
    (works : PoolOpening.WorksAll w c (work.filterMap Child.running?) keys) :
    GoesAlong drained ticket keys w c
      (.applying seen (.opening t forced added removed [] (opened added (work.map number?))))
      (Stands ticket seen) (Ends seen) ((await t ticket added removed work).run w) := by
  obtain ⟨c₁, keys', hleads, hworks, hsub, -⟩ := PoolOpening.drives.pollAll ticket
    (.applying seen (.opening t forced added removed [] (opened added (work.map number?))))
    work hc works
  have hnumbers := PoolOpening.number?_pollAll work w
  rw [await, Progress.andThen, Child.join, run_bind, run_bind]
  generalize (Child.pollAll PoolOpening.poll work).run w = polled at *
  obtain ⟨⟨children, events⟩, w₁⟩ := polled
  dsimp only at hleads hworks hnumbers ⊢
  rw [← hnumbers] at hleads ⊢
  cases hresults : Child.results? children with
  | none => exact .waits hleads (fun key hkey => .inl (hsub.subset hkey)) (.opening hworks)
  | some results =>
    rw [← PoolOpening.number?_of_results hresults] at hleads ⊢
    exact .head hleads (install_goesAlong forced results hleads.fits)
      fun key hkey => absurd hkey List.not_mem_nil

theorem launch_goesAlong (hc : Fits drained w c)
    (hheld : (w.lock .manager).isHeldBy ticket = true) :
    GoesAlong drained ticket [] w c (.applying seen (.queued t forced)) (Stands ticket seen)
      (Ends seen) ((launch t forced ticket).run w) := by
  rw [launch, run_manager_bind, ← hc.manager]
  rw [← hc.lock] at hheld
  cases hdecide : c.manager.decide t forced with
  | ignore =>
    exact .head (.step (.applying (.ignored hheld hdecide)) hc le_rfl fun _ _ => id)
      (withdraw_goesAlong t forced _ hc) fun _ => .inl
  | stale =>
    exact .head (.step (.applying (.stale hheld hdecide)) hc le_rfl fun _ _ => id)
      (withdraw_goesAlong t forced _ hc) fun _ => .inl
  | apply added removed =>
    dsimp only
    rw [run_bind]
    have hbegun : Leads drained ticket [] w c (.applying seen (.queued t forced)) w c
        (.applying seen (.opening t forced added removed added [])) :=
      .step (.applying (.begun hheld hdecide)) hc le_rfl fun _ _ => id
    obtain ⟨c', keys, hopened, hworks, hfresh⟩ := openEach_leads ticket seen t forced added
      removed added hc rfl []
    exact .head (hbegun.trans hopened fun _ => .inl)
      (await_goesAlong forced _ hopened.fits hworks) fun key hkey => .inr (hfresh key hkey)

/-- Whenever the activity goes on, so does a party that applies a topology. -/
theorem poll_goesAlong {r : Reconciling} (hstands : Stands ticket seen w c keys r x)
    (hc : Fits drained w c) :
    GoesAlong drained ticket keys w c x (Stands ticket seen) (Ends seen) (r.poll.run w) := by
  cases hstands with
  | opening works => exact await_goesAlong _ _ hc works
  | @queued t forced =>
    rw [poll, run_holdsLock_bind]
    cases hheld : (w.lock .manager).isHeldBy ticket with
    | false => exact .waits (.refl hc) (fun _ => .inl) .queued
    | true => exact launch_goesAlong hc hheld

/-- The activity begins as the party does, under the next ticket. -/
theorem start_goesAlong (seen : Option ℕ) (t : Topology) (forced : Bool) (hc : Fits drained w c) :
    GoesAlong drained w.stamp [] w c (.applying seen (.wanted t forced)) (Stands w.stamp seen)
      (Ends seen) ((start t forced).run w) := by
  rw [start, run_bind]
  have hasked : Leads drained w.stamp [] w c (.applying seen (.wanted t forced)) _ _
      (.applying seen (.queued t forced)) :=
    .step (.applying .requested) hc.requestLock (Nat.le_succ _) fun _ _ => id
  exact .head hasked (poll_goesAlong .queued hasked.fits) fun _ => .inl

end Reconciling

/-! ### Closing pools -/

namespace PoolClosing

/-- Parties of pools stand where the closings wait. -/
abbrev WorksAll : World → Site → List (ℕ × PoolClosing) → List (ℕ × ℕ) → Prop :=
  TiedAll Prod.fst fun k work => PoolClosing.Stands k work.2

/-- Whenever the closing of a pool goes on, so does a party of the pool. -/
theorem drives : Drives ClusterClosing.pollPool Prod.fst
    (fun k work => PoolClosing.Stands k work.2) (· = .closed) := by
  rintro drained ticket x w c ⟨_, work⟩ ⟨p, k⟩ hc ⟨rfl, hold, t, found, hstands⟩
  have hp := (hc.pools.tracks _ t found).known
  have hpolled := poll_accompanies hstands hp
  obtain ⟨pools', t', hleads, found', hrest⟩ := hpolled.leads ticket [(p, k)] x
    ((isLocal_poll ..).holds w) hc found rfl (hold.trans_le hpolled.stamp_le)
    (.inl (List.mem_singleton_self _))
  rw [ClusterClosing.pollPool, Progress.andThen, run_bind]
  dsimp only at hleads hrest ⊢
  generalize (poll p work).run w = polled at *
  obtain ⟨_ | ⟨r, events⟩, w'⟩ := polled
  · exact ⟨_, hleads, ⟨hold.trans_le hleads.stamp, t', found', hrest⟩⟩
  · exact ⟨_, hleads, ⟨rfl, hold.trans_le hleads.stamp, t', found', hrest⟩⟩

/-- It is the turn of a pool to be closed, and unless somebody else has begun to close it the end is
waited for. -/
theorem start_leads (ticket : ℕ) (rest : List ℕ) (begun : List (ℕ × ℕ)) (hc : Fits drained w c)
    (hp : p < c.pools.length) :
    ∃ c' new, Leads drained ticket [] w c (.closing (.sweeping (p :: rest) begun))
        ((start p).run w).2 c' (.closing (.sweeping rest (begun ++ new))) ∧
      WorksAll ((start p).run w).2 c'
        (((start p).run w).1.child.running?.map (p, ·)).toList new ∧
      ∀ key ∈ new, w.stamp ≤ key.2 := by
  have found := List.getElem?_eq_getElem hp
  generalize c.pools[p] = t at found
  have htracks := hc.pools.tracks p t found
  have hlocal := (isLocal_start p).holds w
  rw [run_start] at hlocal ⊢
  cases hbegin : (w.stock p).pool.beginClose? with
  | none =>
    have hagain : t.site.pool.closed = true := by
      rw [htracks.site]
      exact Pool.beginClose?_eq_none_iff.mp hbegin
    have hpassed : Leads drained ticket [] w c (.closing (.sweeping (p :: rest) begun)) w c
        (.closing (.sweeping rest begun)) :=
      .step (.closing (.passes found hagain)) hc le_rfl fun _ _ => id
    refine ⟨c, [], ?_, .nil, fun key hkey => absurd hkey List.not_mem_nil⟩
    rwa [List.append_nil]
  | some pool =>
    obtain ⟨hidle, hfirst, hstamp, t', hrun, htracks', hothers, helse, hrest⟩ :=
      proceed_marked htracks (hc.pools.reachable p t found) hbegin
    rw [hbegin] at hlocal
    dsimp only at hlocal ⊢
    generalize (proceed p).run _ = result at *
    have hturn : Party.Advances ticket c (.closing (.sweeping (p :: rest) begun))
        { c with pools := c.pools.set p (t.mark w.stamp) }
        (.closing (.sweeping rest (begun ++ [(p, w.stamp)]))) :=
      .single (.closing (.begins found hidle hfirst))
    obtain ⟨pools', hleads, hself⟩ := Leads.of_pool hc hlocal hstamp.le found
      (.snoc .nil (.mark hidle hfirst)) hturn hrun htracks' helse
      fun k hk (_ : (p, k) ∉ []) => hothers k hk.ne
    obtain ⟨_ | ⟨work, events⟩, w'⟩ := result
    · have hended : Leads drained ticket [] w' { c with pools := pools' }
          (.closing (.sweeping rest (begun ++ [(p, w.stamp)]))) w' { c with pools := pools' }
          (.closing (.sweeping rest (begun ++ []))) :=
        .step (.closing (.ended begun [] hself hrest)) hleads.fits le_rfl fun _ _ => id
      exact ⟨_, [], hleads.trans hended fun _ => .inl, .nil,
        fun key hkey => absurd hkey List.not_mem_nil⟩
    · exact ⟨_, [(p, w.stamp)], hleads, .single ⟨rfl, hstamp, t', hself, hrest⟩,
        fun key hkey => List.mem_singleton.mp hkey ▸ le_rfl⟩

end PoolClosing

/-! ### Closing the manager -/

namespace ClusterClosing

/-- Where a party stands whose activity closes the manager. -/
inductive Stands (ticket : ℕ) (w : World) (c : Site) :
    List (ℕ × ℕ) → ClusterClosing → Party → Prop
  | queued : Stands ticket w c [] (.queued ticket) (.closing .queued)
  | closing {pools work keys}
    (works : PoolClosing.WorksAll w c (work.filterMap Child.running?) keys) :
    Stands ticket w c keys (.closing ticket pools work) (.closing (.sweeping [] keys))

/-- What others do does not matter to the party. -/
theorem Stands.of_leads {work : ClusterClosing} {j : ℕ} {a b : Party}
    (h : Stands ticket w c keys work x) (leads : Leads drained j keys' w c a w' c' b)
    (others : ∀ key ∈ keys, key ∉ keys') : Stands ticket w' c' keys work x := by
  cases h with
  | queued => exact .queued
  | closing works => exact .closing (works.of_leads leads others)

theorem run_closeEach_cons (p : ℕ) (rest : List ℕ) (w : World) :
    ((closeEach (p :: rest)).run w).2 =
        ((closeEach rest).run ((PoolClosing.start p).run w).2).2 ∧
      ((closeEach (p :: rest)).run w).1.filterMap Child.running? =
        (((PoolClosing.start p).run w).1.child.running?.map (p, ·)).toList ++
          ((closeEach rest).run ((PoolClosing.start p).run w).2).1.filterMap Child.running? := by
  rw [closeEach, run_bind]
  cases ((PoolClosing.start p).run w).1 <;> exact ⟨rfl, rfl⟩

/-- All pools taken out of the manager have their turn. -/
theorem closeEach_leads (ticket : ℕ) (pools : List ℕ) (begun : List (ℕ × ℕ))
    (hc : Fits drained w c) (known : ∀ p ∈ pools, p < c.pools.length) :
    ∃ c' keys, Leads drained ticket [] w c (.closing (.sweeping pools begun))
        ((closeEach pools).run w).2 c' (.closing (.sweeping [] (begun ++ keys))) ∧
      PoolClosing.WorksAll ((closeEach pools).run w).2 c'
        (((closeEach pools).run w).1.filterMap Child.running?) keys ∧
      ∀ key ∈ keys, w.stamp ≤ key.2 := by
  induction pools generalizing w c begun with
  | nil =>
    refine ⟨c, [], ?_, .nil, fun key hkey => absurd hkey List.not_mem_nil⟩
    rw [List.append_nil]
    exact .refl hc
  | cons p rest ih =>
    obtain ⟨hworld, hrunning⟩ := run_closeEach_cons p rest w
    rw [hworld, hrunning]
    obtain ⟨c₁, new, hfirst, hnew, hmine⟩ :=
      PoolClosing.start_leads ticket rest begun hc (known p List.mem_cons_self)
    have hknown : ∀ q ∈ rest, q < c₁.pools.length := by
      intro q hq
      obtain ⟨u', hu', -⟩ := hfirst.stays q _
        (List.getElem?_eq_getElem (known q (List.mem_cons_of_mem _ hq)))
      exact (List.getElem?_eq_some_iff.mp hu').1
    obtain ⟨c', keys, hleads, hworks, hfresh⟩ := ih (begun ++ new) hfirst.fits hknown
    have hall := hfirst.trans hleads fun _ => .inl
    rw [List.append_assoc] at hall
    have hlater : ∀ key ∈ keys, w.stamp ≤ key.2 :=
      fun key hkey => hfirst.stamp.trans (hfresh key hkey)
    exact ⟨c', new ++ keys, hall, hnew.append hleads hworks hfresh,
      List.forall_mem_append.mpr ⟨hmine, hlater⟩⟩

/-- The ends of some closings have come. -/
theorem ended_leads (ticket : ℕ) (front : List (ℕ × ℕ)) (hc : Fits drained w c)
    (sub : keys'.Sublist keys) (nodup : keys.Nodup)
    (ends : ∀ key ∈ keys, key ∉ keys' → KnownAt (· = .closed) w c key) :
    Leads drained ticket [] w c (.closing (.sweeping [] (front ++ keys))) w c
      (.closing (.sweeping [] (front ++ keys'))) := by
  induction sub generalizing front with
  | slnil => exact .refl hc
  | @cons keys' keys key sub ih =>
    obtain ⟨hnew, hnodup⟩ := List.nodup_cons.mp nodup
    obtain ⟨-, t, found, hclosed⟩ := ends key List.mem_cons_self fun hmem => hnew (sub.subset hmem)
    have hended : Leads drained ticket [] w c (.closing (.sweeping [] (front ++ key :: keys))) w c
        (.closing (.sweeping [] (front ++ keys))) :=
      .step (.closing (.ended front keys found hclosed)) hc le_rfl fun _ _ => id
    exact hended.trans (ih front hnodup fun key' hkey' => ends key' (List.mem_cons_of_mem _ hkey'))
      fun _ => .inl
  | @cons_cons keys' keys key sub ih =>
    obtain ⟨hnew, hnodup⟩ := List.nodup_cons.mp nodup
    have hrest := ih (front ++ [key]) hnodup fun key' hkey' hnone =>
      ends key' (List.mem_cons_of_mem _ hkey') fun hmem => ?_
    · rwa [List.append_assoc, List.append_assoc] at hrest
    · rcases List.mem_cons.mp hmem with rfl | hmem
      · exact hnew hkey'
      · exact hnone hmem

theorem await_goesAlong (pools : List ℕ)
    (work : List (Child (ℕ × PoolClosing) (Except Fault Unit))) (hc : Fits drained w c)
    (works : PoolClosing.WorksAll w c (work.filterMap Child.running?) keys) :
    GoesAlong drained ticket keys w c (.closing (.sweeping [] keys)) (Stands ticket)
      (fun _ y => y = .closed) ((await ticket pools work).run w) := by
  obtain ⟨c', keys', hleads, hworks, hsub, hends⟩ :=
    PoolClosing.drives.pollAll ticket (.closing (.sweeping [] keys)) work hc works
  rw [await, Progress.andThen, Child.join, run_bind, run_bind]
  generalize (Child.pollAll pollPool work).run w = polled at *
  obtain ⟨⟨children, events⟩, w'⟩ := polled
  dsimp only at hleads hworks hends ⊢
  have hall := hleads.trans (ended_leads ticket [] hleads.fits hsub works.nodup hends)
    fun key hkey => absurd hkey List.not_mem_nil
  cases hresults : Child.results? children with
  | none => exact .waits hall (fun key hkey => .inl (hsub.subset hkey)) (.closing hworks)
  | some results =>
    -- nothing is waited for any longer
    rw [Child.running_of_results? hresults] at hworks
    obtain ⟨_ | _, -⟩ := hworks
    have hover := hall.trans (.withdrawLock hall.fits .closed) fun key (hkey : key ∈ keys) =>
      .inl hkey
    exact .done hover rfl

/-- Whenever the activity goes on, so does a party that closes the manager. -/
theorem poll_goesAlong {work : ClusterClosing} (hstands : Stands ticket w c keys work x)
    (hc : Fits drained w c) (known : ∀ e ∈ c.manager.pools, e.2 < c.pools.length) :
    GoesAlong drained ticket keys w c x (Stands ticket) (fun _ y => y = .closed)
      (work.poll.run w) := by
  cases hstands with
  | closing works => exact await_goesAlong _ _ hc works
  | queued =>
    rw [poll, run_holdsLock_bind]
    cases hheld : (w.lock .manager).isHeldBy ticket with
    | false => exact .waits (.refl hc) (fun _ => .inl) .queued
    | true =>
      rw [if_pos rfl, run_manager_bind, ← hc.manager]
      dsimp only
      rw [run_bind, run_bind]
      rw [← hc.lock] at hheld
      have htaken : Leads drained ticket [] w c (.closing .queued) _ _
          (.closing (.sweeping c.manager.takeAll.1 [])) :=
        .step (.closing (.taken hheld)) (hc.setManager _ (c.taken ++ c.manager.takeAll.1)) le_rfl
          fun _ _ => id
      have hknown : ∀ p ∈ c.manager.takeAll.1, p < c.pools.length := by
        intro p hp
        obtain ⟨e, he, rfl⟩ := List.mem_map.mp hp
        exact known e he
      obtain ⟨c', keys, hswept, hworks, hfresh⟩ :=
        closeEach_leads ticket c.manager.takeAll.1 [] htaken.fits hknown
      exact .head (htaken.trans hswept fun _ => .inl) (await_goesAlong _ _ hswept.fits hworks)
        fun key hkey => .inr (hfresh key hkey)

theorem stopFollowing_leads (hc : Fits drained w c) :
    Leads drained ticket keys w c x (stopFollowing.run w).2 c x := by
  refine ⟨.refl, ?_, le_rfl, fun _ t ht => ⟨t, ht, .nil, fun _ _ _ => rfl⟩⟩
  obtain ⟨now, stamp, network, links, depots, _ | cluster, provider, entry, signals⟩ := w
  · exact absurd hc.cluster Bool.false_ne_true
  · refine .of_untouched ?_ ((untouched_emit .managerStopped).holds _)
    exact ⟨rfl, hc.manager, hc.lock, hc.drained, hc.topology, hc.pools.of_eq rfl rfl le_rfl⟩

/-- The activity begins as the party does that has marked the manager as closed. -/
theorem start_goesAlong {m : Manager} (hc : Fits drained w c)
    (first : c.manager.beginClose? = some m)
    (known : ∀ e ∈ c.manager.pools, e.2 < c.pools.length) :
    GoesAlong drained w.stamp [] ((setManager m).run w).2 { c with manager := m }
      (.closing .marked) (Stands w.stamp) (fun _ y => y = .closed) (start.run w) := by
  have hknown : ∀ e ∈ m.pools, e.2 < c.pools.length := by
    unfold Manager.beginClose? at first
    split at first
    · cases first
    · cases first
      exact known
  rw [start, run_manager_bind, ← hc.manager, first]
  dsimp only
  rw [run_bind, run_bind, run_bind]
  have hstopped : Leads drained w.stamp [] _ { c with manager := m } (.closing .marked) _ _
      (.closing .marked) := stopFollowing_leads (hc.setManager m c.taken)
  have hasked : Leads drained w.stamp [] _ { c with manager := m } (.closing .marked) _ _
      (.closing .queued) :=
    .step (.closing .requested) hstopped.fits.requestLock (Nat.le_succ _) fun _ _ => id
  exact .head (hstopped.trans hasked fun _ => .inl) (poll_goesAlong .queued hasked.fits hknown)
    fun _ => .inl

/-- When closing the manager has ended, the pools that it had are closed and hold nothing, and what
they held is out of service, unless somebody else has begun to close them. -/
theorem empties {config : ClientConfig} {run : List Transition} {s : State}
    {work : ClusterClosing} {result : Except Fault Unit}
    (hrun : Run (Upkeep.start config) run s) (hc : Fits drained w s.site)
    (hstands : Stands ticket w s.site keys work (s.parties ticket))
    (hdone : work.poll.run w = (.done result, w')) :
    ∃ later s', Run s later s' ∧ Fits drained w' s'.site ∧ s'.parties ticket = .closed ∧
      ∀ p ∈ s'.site.taken, (w'.depots.getD p default).core.closed = true ∧
        ((w'.depots.getD p default).core.members = [] ∧
          (∀ x ∈ run ++ later, ∀ u, x.before.site.pools[p]? = some u →
            ∀ n ∈ u.site.pool.members, (w'.stage n).isEnding = true) ∨
          ∃ x ∈ run ++ later, x.Marks p) := by
  have hknown : ∀ e ∈ s.site.manager.pools, e.2 < s.site.pools.length := by
    intro e he
    obtain ⟨t, found, -⟩ := Option.map_eq_some_iff.mp ((Sound.of_run hrun).home e he)
    exact (List.getElem?_eq_some_iff.mp found).1
  have hgoes := poll_goesAlong hstands hc hknown
  rw [hdone] at hgoes
  obtain ⟨later, s', hlater, hleads, -, hclosed⟩ := hgoes.exists_run rfl
  have hall := hrun.append hlater
  refine ⟨later, s', hlater, hleads.fits, hclosed, fun p hp => ?_⟩
  obtain ⟨t, found, hshut, hspent, hby⟩ := hall.disposed hclosed hp
  -- the world shows what the pool's users have come to
  have htracks := hleads.fits.pools.tracks p t found
  have hcore : t.site.pool = (w'.depots.getD p default).core := congrArg _ htracks.site
  rw [← hcore]
  refine ⟨hshut, hby.imp_left fun ⟨j, hj⟩ => ?_⟩
  obtain ⟨hemptied, hended⟩ := hspent j hj
  refine ⟨hemptied.members, fun x hx u hu n hn => ?_⟩
  rw [← stage_stock w' p, ← htracks.site]
  exact hended x hx u hu n hn

end ClusterClosing

/-! ### Following the provider -/

namespace Reconciler

/-- Where a party stands whose activity follows the provider. -/
inductive Stands (ticket : ℕ) (w : World) (c : Site) : List (ℕ × ℕ) → Reconciler → Party → Prop
  | waiting {seen} : Stands ticket w c [] ⟨seen, none⟩ (.waiting seen)
  | applying {seen work keys x} (h : Reconciling.Stands ticket (some seen) w c keys work x) :
    Stands ticket w c keys ⟨seen, some work⟩ x

/-- When there is news the follower reads the latest topology and applies it as a party does that
begins to follow.  If it can do so at once it finds nothing new afterwards. -/
theorem wait_goesAlong {seen : ℕ} (hc : Fits drained w c)
    (hfollows : ¬(w.cluster.map (·.stopping)).getD true = true)
    (hnews : w.topology.isUnseen seen = true) :
    GoesAlong drained w.stamp [] w c .looking (Stands w.stamp)
      (fun _ y => ∃ seen, y = .waiting seen) ((wait 2 seen).run w) := by
  rw [wait, run_get_bind, if_neg hfollows, if_pos hnews]
  dsimp only
  rw [Progress.andThen, run_bind]
  have hstarted :=
    Reconciling.start_goesAlong (some w.topology.version) w.topology.value false hc
  have hlooked : Leads drained w.stamp [] w c .looking w c
      (.applying (some w.topology.version) (.wanted w.topology.value false)) := by
    rw [← hc.topology]
    exact .step .looked hc le_rfl fun _ _ => id
  generalize (Reconciling.start w.topology.value false).run w = started at hstarted
  cases hstarted with
  | waits leads owned rest =>
    exact .waits (hlooked.trans leads fun _ => .inl) owned (.applying rest)
  | @done report w' c' y leads rest =>
    cases rest
    have hall := hlooked.trans leads fun _ => .inl
    have hsame : w'.topology = w.topology := by
      rw [← leads.fits.topology, leads.advances.topology_eq, hc.topology]
    -- it looks once more
    dsimp only
    rw [wait, run_get_bind, hsame, Watch.isUnseen_version]
    split
    · exact .done hall ⟨_, rfl⟩
    · exact .waits hall (fun _ => .inl) .waiting

end Reconciler

/-! ### Publishing -/

namespace Polling

theorem fits_publish (hc : Fits drained w c) (h : w.provider.isSome) (t : Watch Topology) :
    Fits drained ((publish t).run w).2 { c with topology := t } := by
  obtain ⟨now, stamp, network, links, depots, cluster, _ | provider, entry, signals⟩ := w
  · cases h
  · rw [publish, run_bind]
    refine .of_untouched ?_ ((untouched_emit .published).holds _)
    exact ⟨hc.cluster, hc.manager, hc.lock, hc.drained, rfl, hc.pools.of_eq rfl rfl le_rfl⟩

theorem fits_withdrawLock (hc : Fits drained w c) :
    Fits drained ((withdrawLock .provider ticket).run w).2 c := by
  have hset (l : Lock) : Fits drained ((setLock .provider l).run w).2 c := by
    refine ⟨hc.cluster, hc.manager, hc.lock, hc.drained, ?_, hc.pools.of_eq rfl rfl le_rfl⟩
    obtain ⟨now, stamp, network, links, depots, cluster, _ | provider, entry, signals⟩ := w <;>
      exact hc.topology
  rw [withdrawLock, run_get_bind]
  dsimp only
  rw [run_bind]
  split
  · exact (hset _).of_untouched ((untouched_emit _).holds _)
  · exact hset _

/-- The end of a poll is a step of the provider that publishes addresses, if anything happens. -/
theorem await_publishes {config : DiscoveryConfig} {answer : Outcome} {delay : Timer} {s : State}
    (h : w.provider.isSome) (hc : Fits drained w s.site) :
    Fits drained ((await config ticket answer delay).run w).2 s.site ∨
      ∃ t s', Upkeep.Step s (.publish t) s' ∧ Transition.Follows ⟨s, .publish t, s'⟩ ∧
        Fits drained ((await config ticket answer delay).run w).2 s'.site := by
  have hchecked := (untouched_check delay).holds w
  rw [await, run_bind]
  generalize delay.check.run w = checked at hchecked
  obtain ⟨_ | delay, w'⟩ := checked
  · rw [← hchecked.provider] at h
    have hfits := hc.of_untouched hchecked
    dsimp only at h hfits ⊢
    rw [run_get_bind]
    rcases Discovery.poll_cases config w'.topology answer with hsame | ⟨addresses, hset, hpublish⟩
    · rw [hsame, Watch.isUnseen_version]
      exact .inl (fits_withdrawLock hfits)
    · have hnew := Discovery.publish_eq hpublish
      rw [hnew] at hpublish ⊢
      rw [Watch.isUnseen_set]
      refine .inr ⟨_, _, .publish hset, ⟨addresses, hfits.topology ▸ hpublish⟩, ?_⟩
      rw [State.withSite, hfits.topology]
      exact fits_withdrawLock (fits_publish hfits h _)
  · exact .inl (hc.of_untouched hchecked)

end Polling

end Simulation

end Switchboard
