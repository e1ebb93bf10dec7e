import Switchboard.Proofs.Pools.Invariant
import Switchboard.Proofs.Pools.Worlds

/-!
# Activities of those who use a pool

Each time that an activity is given the chance to go on it takes some of its party's steps.  So what
holds of all runs holds of the activities, in whatever order the scheduler lets them go on.

## Main definitions

- `Simulation.Accompanies` — a party has taken steps as its activity has
- `Simulation.Replenishing.Stands`, `Simulation.PoolClosing.Stands` — where a party stands whose
  activity waits
- `Simulation.Maintenance.Maintains` — a run goes on with the maintenance of a pool

## Main statements

- `Simulation.Replenishing.start_accompanies`, `Simulation.Replenishing.poll_accompanies` — opening
  the missing connections
- `Simulation.PoolClosing.start_accompanies`, `Simulation.PoolClosing.poll_accompanies` — closing
  the pool
- `Simulation.PoolClosing.proceed_marked` — what follows once the pool has been marked as closed
- `Simulation.Maintenance.poll_maintains` — opening the missing connections from time to time
- `Simulation.PoolOpening.start_tracks` — a run begins with the opening of a pool
- `Simulation.Tracks.le_connections` — a pool keeps to its size
-/

namespace Switchboard.Simulation

open Stocking

/-- A party has taken steps as its activity has: it stands where the activity waits, or has ended as
the activity has. -/
inductive Accompanies {σ α : Type} (p k : ℕ) (w : World) (x : Party) (stands : σ → Party → Prop)
    (ends : α → Party → Prop) : Progress σ α × World → Prop
  | waits {r events w' y} (moves : Moves p k w x w' y) (rest : stands r y) :
    Accompanies p k w x stands ends (.wait r events, w')
  | done {a w' y} (moves : Moves p k w x w' y) (rest : ends a y) :
    Accompanies p k w x stands ends (.done a, w')

theorem Accompanies.head {σ α : Type} {p k : ℕ} {w w' : World} {x x' : Party}
    {stands : σ → Party → Prop} {ends : α → Party → Prop} {result : Progress σ α × World}
    (first : Moves p k w x w' x') (rest : Accompanies p k w' x' stands ends result) :
    Accompanies p k w x stands ends result := by
  cases rest with
  | waits moves rest => exact .waits (first.trans moves) rest
  | done moves rest => exact .done (first.trans moves) rest

theorem Accompanies.stamp_le {σ α : Type} {p k : ℕ} {w : World} {x : Party}
    {stands : σ → Party → Prop} {ends : α → Party → Prop} {result : Progress σ α × World}
    (h : Accompanies p k w x stands ends result) : w.stamp ≤ result.2.stamp := by
  cases h with
  | waits moves | done moves => exact moves.stamp

variable {p k : ℕ} {w w' : World}

/-! ### Opening the missing connections -/

namespace Replenishing

/-- What has come of an attempt that is under way or has ended. -/
def outcome : Child Attempt (Except Fault ℕ) → Stocking.Attempt
  | .running _ => .running
  | .ended (.ok n) => .opened n
  | .ended (.error _) => .failed

/-- Where a party stands whose activity opens the missing connections. -/
inductive Stands (k : ℕ) : Replenishing → Party → Prop
  | queued : Stands k (.queued k) (.replenishing .queued)
  | opening {live work} :
    Stands k (.opening k work) (.replenishing (.opening live (work.map outcome)))

/-- The connections opened are taken in, and the lock is given up. -/
theorem install_accompanies (hp : p < w.depots.size) (live : List ℕ)
    (results : List (Except Fault ℕ)) :
    Accompanies p k w (.replenishing (.opening live ((results.map Child.ended).map outcome)))
      (Stands k) (fun n y => y = .replenished n)
      ((do
        let opened := results.filterMap Except.toOption
        setPool p ((← depot p).core.install (← get).stage opened)
        withdrawLock (.pool p) k
        return .done opened.length : Step).run w) := by
  have hnumbers : ((results.map Child.ended).map outcome).filterMap Stocking.Attempt.number? =
      results.filterMap Except.toOption := by
    rw [List.map_map, List.filterMap_map]
    refine List.filterMap_congr fun r _ => ?_
    cases r <;> rfl
  have hfinished : Stocking.Attempt.running ∉ (results.map Child.ended).map outcome := by
    rw [List.map_map]
    rintro hmem
    obtain ⟨r, -, hr⟩ := List.mem_map.mp hmem
    cases r <;> cases hr
  have hinstalled := @Replenishing.Step.installed (w.stock p) k live _ hfinished
  rw [hnumbers, stage_stock] at hinstalled
  have hset := moves_setPool hp (.replenishing hinstalled)
  exact .done (hset.trans (moves_withdrawLock (hset.size ▸ hp) .replenished)) rfl

/-- Each attempt that goes on may open its connection or fail. -/
theorem moves_pollAll (live : List ℕ) (front : List Stocking.Attempt)
    (work : List (Child Attempt (Except Fault ℕ))) (w : World) :
    Moves p k w (.replenishing (.opening live (front ++ work.map outcome)))
      ((Child.pollAll Attempt.poll work).run w).2
      (.replenishing (.opening live
        (front ++ ((Child.pollAll Attempt.poll work).run w).1.1.map outcome))) := by
  -- `front` are the outcomes of those that have had their chance already
  induction work generalizing front w with
  | nil => exact .refl
  | cons child rest ih =>
    cases child with
    | ended result =>
      have hrest := ih (front ++ [outcome (.ended result)]) w
      rw [List.append_assoc, List.append_assoc] at hrest
      exact hrest
    | running a =>
      have hopens := (Attempt.opens_poll a).opens w
      rw [Child.pollAll, run_bind]
      generalize a.poll.run w = polled at hopens
      obtain ⟨progress, w'⟩ := polled
      cases hopens with
      | waits untouched =>
        have hrest := ih (front ++ [.running]) w'
        rw [List.append_assoc, List.append_assoc] at hrest
        exact .trans (.of_untouched untouched) hrest
      | failed untouched =>
        have hrest := ih (front ++ [.failed]) w'
        rw [List.append_assoc, List.append_assoc] at hrest
        have hfailed : Moves p k w
            (.replenishing (.opening live (front ++ .running :: rest.map outcome))) w
            (.replenishing (.opening live (front ++ .failed :: rest.map outcome))) :=
          .stay (.replenishing (.failed front (rest.map outcome)))
        exact .trans hfailed (.trans (.of_untouched untouched) hrest)
      | @opened l _ ready untouched =>
        have hrest := ih (front ++ [.opened w.links.size]) w'
        rw [List.append_assoc, List.append_assoc] at hrest
        have hopened : Moves p k w
            (.replenishing (.opening live (front ++ .running :: rest.map outcome)))
            { w with links := w.links.push l }
            (.replenishing
              (.opening live (front ++ .opened w.links.size :: rest.map outcome))) := by
          refine .step rfl (Nat.le_refl _) ?_ fun _ _ _ => elsewhere_pushLink ready
          rw [stock_pushLink ready, ← length_stages_stock (p := p)]
          exact .replenishing (.opened front (rest.map outcome))
        exact hopened.trans (.trans (.of_untouched untouched) hrest)

theorem await_accompanies (hp : p < w.depots.size) (live : List ℕ)
    (work : List (Child Attempt (Except Fault ℕ))) :
    Accompanies p k w (.replenishing (.opening live (work.map outcome))) (Stands k)
      (fun n y => y = .replenished n) ((await p k work).run w) := by
  have hmoves := moves_pollAll (p := p) (k := k) live [] work w
  rw [await, Progress.andThen, Child.join, run_bind, run_bind]
  generalize (Child.pollAll Attempt.poll work).run w = polled at hmoves
  obtain ⟨⟨children, events⟩, w'⟩ := polled
  dsimp only [List.nil_append] at hmoves ⊢
  cases hresults : Child.results? children with
  | none => exact .waits hmoves .opening
  | some results =>
    obtain rfl := Child.eq_of_results? hresults
    have hp' : p < w'.depots.size := hmoves.size ▸ hp
    exact .head hmoves (install_accompanies hp' live results)

/-- Beginning attempts takes no time and changes nothing. -/
theorem run_beginAttempts (address : Address) (config : ClientConfig) (numbers : List ℕ)
    (w : World) : ∃ work : List (Child Attempt (Except Fault ℕ)),
      (numbers.mapM fun _ => return Child.running (← Attempt.start address config) :
        Sim (List (Child Attempt (Except Fault ℕ)))).run w = (work, w) ∧
      work.map outcome = List.replicate numbers.length .running := by
  induction numbers with
  | nil => exact ⟨[], rfl, rfl⟩
  | cons n rest ih =>
    obtain ⟨work, hrun, hwork⟩ := ih
    refine ⟨.running ((Attempt.start address config).run w).1 :: work, ?_, ?_⟩
    · rw [List.mapM_cons, run_bind, run_bind]
      exact congrArg (fun r : List _ × World => (_ :: r.1, r.2)) hrun
    · rw [List.map_cons, hwork]
      rfl

theorem launch_accompanies (hp : p < w.depots.size)
    (granted : (w.stock p).lock.isHeldBy k = true) :
    Accompanies p k w (.replenishing .queued) (Stands k) (fun n y => y = .replenished n)
      ((launch p k).run w) := by
  rw [launch, run_depot_bind]
  dsimp only
  cases hstopping : (w.depots.getD p default).core.stopping with
  | true =>
    have hrefused := Moves.stay (w := w) (.replenishing (.refused granted hstopping))
    exact .done (hrefused.trans (moves_withdrawLock hp .replenished)) rfl
  | false =>
    obtain ⟨work, hrun, hwork⟩ := run_beginAttempts (w.depots.getD p default).core.address
      (w.depots.getD p default).core.config
      (List.range ((w.depots.getD p default).core.missing w.stage)) w
    have hall : work.map outcome =
        List.replicate ((w.stock p).pool.missing (w.stock p).stage) .running := by
      rw [hwork, List.length_range, stage_stock]
      rfl
    have hbegun := Moves.stay (w := w) (.replenishing (.begun granted hstopping))
    rw [← hall] at hbegun
    rw [if_neg Bool.false_ne_true, run_get_bind, run_bind, hrun]
    exact .head hbegun (await_accompanies hp ..)

/-- Whenever the activity goes on, so does a party that opens the missing connections. -/
theorem poll_accompanies {r : Replenishing} {x : Party} (hstands : Stands k r x)
    (hp : p < w.depots.size) :
    Accompanies p k w x (Stands k) (fun n y => y = .replenished n) ((r.poll p).run w) := by
  cases hstands with
  | opening => exact await_accompanies hp ..
  | queued =>
    rw [poll, run_holdsLock_bind]
    cases hheld : (w.lock (.pool p)).isHeldBy k with
    | false => exact .waits .refl .queued
    | true => exact launch_accompanies hp hheld

/-- The activity begins as the party does, under the next ticket. -/
theorem start_accompanies (hp : p < w.depots.size) :
    Accompanies p w.stamp w .idle (Stands w.stamp) (fun n y => y = .replenished n)
      ((start p).run w) := by
  have hasked := moves_requestLock hp .asks
  exact .head hasked (poll_accompanies .queued (hasked.size ▸ hp))

theorem lt_stamp_start (hp : p < w.depots.size) : w.stamp < ((start p).run w).2.stamp := by
  have hasked := moves_requestLock hp .asks
  exact (poll_accompanies .queued (hasked.size ▸ hp)).stamp_le

/-- If the activity is given up the party goes away. -/
theorem moves_cancel {r : Replenishing} {x : Party} (hstands : Stands k r x)
    (hp : p < w.depots.size) : Moves p k w x ((r.cancel p).run w).2 .gone := by
  cases hstands with
  | queued => exact moves_withdrawLock hp .leaves
  | @opening live work =>
    have hgiven : Within Untouched ((work.filterMap Child.running?).forM Attempt.cancel) :=
      .forM fun a => Attempt.untouched_cancel a.phase
    have hgone := Moves.of_untouched (p := p) (k := k)
      (x := .replenishing (.opening live (work.map outcome))) (hgiven.holds w)
    exact hgone.trans (moves_withdrawLock (hgone.size ▸ hp) .leaves)

end Replenishing

/-! ### Closing the pool -/

/-- Where a party stands whose activity closes the pool. -/
inductive PoolClosing.Stands (k : ℕ) : PoolClosing → Party → Prop
  | queued : Stands k (.queued k) (.closing .queued)
  | closing {connections work} :
    Stands k (.closing k connections work)
      (.closing (.sweeping [] (work.filterMap Child.running?)))

namespace Closing

/-- A connection whose writer has ended is closed. -/
theorem moves_poll (rest front back : List ℕ) (c : ℕ) (w : World) :
    Moves p k w (.closing (.sweeping rest (front ++ c :: back))) ((poll c).run w).2
      (.closing (.sweeping rest
        (front ++ (((poll c).run w).1.child.running?.toList ++ back)))) := by
  have hfinished : Moves p k w (.closing (.sweeping rest (front ++ c :: back)))
      ((setConnection c (w.links.getD c default).core.finishClose).run w).2
      (.closing (.sweeping rest (front ++ back))) := by
    refine moves_setConnection (.closing (.finished front back)) fun hs _ => ?_
    -- what is waited for is being closed, so its life goes on to its end
    obtain ⟨s, hreach, hsite, hx⟩ := hs
    have hcloses := hreach.closes_of_begun hx (List.mem_append_right _ List.mem_cons_self)
    rw [hsite, stage_stock] at hcloses
    rcases hcloses with hclosing | hclosed
    · rw [hclosing]
      exact .inr .ends
    · exact .inl hclosed.symm
  rw [poll, run_link_bind]
  cases (w.links.getD c default).writer with
  | none => exact .refl
  | some ending =>
    dsimp only
    rw [run_bind]
    cases ending <;> exact hfinished

/-- A connection that is taken out of the pool is closed, unless somebody has begun to end its life.
-/
theorem moves_start (rest begun : List ℕ) (c : ℕ) (w : World) :
    Moves p k w (.closing (.sweeping (c :: rest) begun)) ((start c).run w).2
      (.closing (.sweeping rest (begun ++ ((start c).run w).1.child.running?.toList))) := by
  rw [start, run_link_bind]
  cases hbegin : (w.links.getD c default).core.beginClose? with
  | none =>
    have hending : ((w.stock p).stage c).isEnding = true := by
      rw [stage_stock]
      exact Connection.beginClose?_eq_none_iff.mp hbegin
    show Moves p k w _ w (.closing (.sweeping rest (begun ++ [])))
    rw [List.append_nil]
    exact .stay (.closing (.passes hending))
  | some core =>
    obtain ⟨hserves, hstage⟩ := Connection.stage_of_beginClose? hbegin
    have hclosed : Moves p k w (.closing (.sweeping (c :: rest) begun))
        ((setConnection c core).run w).2 (.closing (.sweeping rest (begun ++ [c]))) := by
      refine moves_setConnection ?_ fun _ _ => .inr ?_ <;> rw [hstage]
      · refine .closing (.closes ?_)
        rw [stage_stock]
        exact hserves
      · exact .closes hserves
    have hrest := moves_poll (p := p) (k := k) rest begun [] c
    dsimp only
    rw [run_bind, ← List.append_nil (Option.toList _)]
    exact .trans hclosed (.trans (.of_untouched (untouched_sweep c core w)) (hrest _))

end Closing

namespace PoolClosing

/-- All connections taken out of the pool are closed, and the ends of some are waited for. -/
theorem moves_closeEach (connections begun : List ℕ) (w : World) :
    Moves p k w (.closing (.sweeping connections begun)) ((closeEach connections).run w).2
      (.closing (.sweeping []
        (begun ++ ((closeEach connections).run w).1.filterMap Child.running?))) := by
  induction connections generalizing begun w with
  | nil =>
    show Moves p k w _ w (.closing (.sweeping [] (begun ++ [])))
    rw [List.append_nil]
    exact .refl
  | cons c rest ih =>
    have hfirst := Closing.moves_start (p := p) (k := k) rest begun c w
    have hrest := ih (begun ++ ((Closing.start c).run w).1.child.running?.toList)
      ((Closing.start c).run w).2
    refine .trans hfirst ?_
    rw [List.append_assoc] at hrest
    rw [closeEach, run_bind]
    cases hprogress : ((Closing.start c).run w).1 <;> rw [hprogress] at hrest <;> exact hrest

/-- The ends of some connections have come. -/
theorem moves_pollAll (front : List ℕ) (work : List (Child ℕ (Except Fault Unit))) (w : World) :
    Moves p k w (.closing (.sweeping [] (front ++ work.filterMap Child.running?)))
      ((Child.pollAll Closing.poll work).run w).2
      (.closing (.sweeping []
        (front ++ ((Child.pollAll Closing.poll work).run w).1.1.filterMap Child.running?))) := by
  induction work generalizing front w with
  | nil => exact .refl
  | cons child rest ih =>
    cases child with
    | ended result => exact ih front w
    | running c =>
      have hfirst :=
        Closing.moves_poll (p := p) (k := k) [] front (rest.filterMap Child.running?) c w
      have hrest := ih (front ++ ((Closing.poll c).run w).1.child.running?.toList)
        ((Closing.poll c).run w).2
      rw [List.append_assoc, List.append_assoc] at hrest
      refine .trans hfirst ?_
      rw [Child.pollAll, run_bind]
      cases hprogress : ((Closing.poll c).run w).1 <;> rw [hprogress] at hrest <;> exact hrest

theorem await_accompanies (hp : p < w.depots.size) (connections : List ℕ)
    (work : List (Child ℕ (Except Fault Unit))) :
    Accompanies p k w (.closing (.sweeping [] (work.filterMap Child.running?))) (Stands k)
      (fun _ y => y = .closed) ((await p k connections work).run w) := by
  have hmoves := moves_pollAll (p := p) (k := k) [] work w
  rw [await, Progress.andThen, Child.join, run_bind, run_bind]
  generalize (Child.pollAll Closing.poll work).run w = polled at hmoves
  obtain ⟨⟨children, events⟩, w'⟩ := polled
  dsimp only [List.nil_append] at hmoves ⊢
  cases hresults : Child.results? children with
  | none => exact .waits hmoves .closing
  | some results =>
    rw [Child.running_of_results? hresults] at hmoves
    exact .done (hmoves.trans (moves_withdrawLock (hmoves.size ▸ hp) .closed)) rfl

/-- Whenever the activity goes on, so does a party that closes the pool. -/
theorem poll_accompanies {work : PoolClosing} {x : Party} (hstands : Stands k work x)
    (hp : p < w.depots.size) :
    Accompanies p k w x (Stands k) (fun _ y => y = .closed) ((work.poll p).run w) := by
  cases hstands with
  | closing => exact await_accompanies hp ..
  | queued =>
    rw [poll, run_holdsLock_bind]
    cases hheld : (w.lock (.pool p)).isHeldBy k with
    | false => exact .waits .refl .queued
    | true =>
      rw [if_pos rfl, run_depot_bind]
      dsimp only
      rw [run_bind, run_bind]
      have htaken := moves_setPool hp (.closing (.taken hheld))
      have hclosed := htaken.trans (moves_closeEach _ [] _)
      exact .head hclosed (await_accompanies (hclosed.size ▸ hp) ..)

/-- Who marks the pool as closed also says at once that it stops. -/
theorem moves_mark (hp : p < w.depots.size) {pool : Pool}
    (hbegin : (w.stock p).pool.beginClose? = some pool) :
    Moves p k w .idle ((setPool p pool).run w).2 (.closing .stopped) := by
  obtain ⟨hfirst, rfl⟩ := Pool.beginClose?_eq_some_iff.mp hbegin
  -- two steps of the party, and no state of the world in between
  refine ⟨Array.size_setIfInBounds .., Nat.le_refl _, fun s hs hx => ?_,
    fun _ _ hq => .of_stock_eq (stock_setPool_of_ne hq _)⟩
  rw [← hs] at hfirst
  have hmarked := Stocking.Step.of_party hx (.marks hfirst)
  refine ⟨_, .snoc (.snoc .nil hmarked) (.of_party (State.move_self ..) (.closing .stopped)), ?_,
    State.move_self .., fun j hj => ?_⟩
  · rw [stock_setPool hp, ← hs]
    rfl
  · rw [State.move_of_ne hj, State.move_of_ne hj]

/-- What is done once everybody has been told to stop. -/
def proceed (p : ℕ) : Step := do
  emit (.poolStopped p)
  poll p (.queued (← requestLock (.pool p)))

theorem run_start (p : ℕ) (w : World) : (start p).run w =
    match (w.stock p).pool.beginClose? with
    | none => (.done (.ok ()), w)
    | some pool => (proceed p).run ((setPool p pool).run w).2 := by
  rw [start, run_depot_bind]
  show _ = match (w.depots.getD p default).core.beginClose? with
    | none => _
    | some pool => _
  cases (w.depots.getD p default).core.beginClose? <;> rfl

theorem proceed_accompanies (hp : p < w.depots.size) :
    Accompanies p w.stamp w (.closing .stopped) (Stands w.stamp) (fun _ y => y = .closed)
      ((proceed p).run w) := by
  rw [proceed, run_bind, run_bind]
  have htold : Moves p w.stamp w (.closing .stopped) ((emit (.poolStopped p)).run w).2
      (.closing .stopped) := .of_untouched ((untouched_emit (.poolStopped p)).holds _)
  have hrequested := moves_requestLock (w := ((emit (.poolStopped p)).run w).2) (htold.size ▸ hp)
    (.closing .requested)
  have hall := htold.trans hrequested
  exact .head hall (poll_accompanies .queued (hall.size ▸ hp))

/-- The activity begins as the party does, under the next ticket.  If somebody else has begun to
close the pool it ends at once. -/
theorem start_accompanies (hp : p < w.depots.size) :
    (w.stock p).pool.closed = true ∧ (start p).run w = (.done (.ok ()), w) ∨
      Accompanies p w.stamp w .idle (Stands w.stamp) (fun _ y => y = .closed)
        ((start p).run w) := by
  rw [run_start]
  cases hbegin : (w.stock p).pool.beginClose? with
  | none => exact .inl ⟨Pool.beginClose?_eq_none_iff.mp hbegin, rfl⟩
  | some pool =>
    have hmarked := moves_mark (k := w.stamp) hp hbegin
    exact .inr (.head hmarked (proceed_accompanies (hmarked.size ▸ hp)))

theorem lt_stamp_proceed (hp : p < w.depots.size) :
    w.stamp < ((proceed p).run w).2.stamp := by
  rw [proceed, run_bind, run_bind]
  have hrequested := moves_requestLock (w := ((emit (.poolStopped p)).run w).2) hp
    (.closing .requested)
  exact (poll_accompanies .queued (hrequested.size ▸ hp)).stamp_le

/-- The activity begins as the party does that marks the pool as closed, and the others see nothing
but the ends of connections. -/
theorem proceed_marked {s : State} {pool : Pool} (hs : Tracks p w s) (reach : Reachable s)
    (hbegin : (w.stock p).pool.beginClose? = some pool) :
    s.parties w.stamp = .idle ∧ s.site.pool.closed = false ∧
      w.stamp < ((proceed p).run ((setPool p pool).run w).2).2.stamp ∧
      ∃ s', Run (s.mark w.stamp) s' ∧
        Tracks p ((proceed p).run ((setPool p pool).run w).2).2 s' ∧
        (∀ j ≠ w.stamp, s'.parties j = s.parties j) ∧
        (∀ q ≠ p, Elsewhere q w ((proceed p).run ((setPool p pool).run w).2).2) ∧
        match ((proceed p).run ((setPool p pool).run w).2).1 with
        | .wait work _ => Stands w.stamp work (s'.parties w.stamp)
        | .done _ => s'.parties w.stamp = .closed := by
  rw [← hs.site] at hbegin
  obtain ⟨hfirst, rfl⟩ := Pool.beginClose?_eq_some_iff.mp hbegin
  let core : Pool := { s.site.pool with closed := true, stopping := true }
  let told : State := (s.mark w.stamp).move w.stamp { s.site with pool := core } (.closing .stopped)
  have htold : Run (s.mark w.stamp) told :=
    .snoc .nil (.of_party (State.move_self ..) (.closing .stopped))
  have hsame : ∀ j ≠ w.stamp, told.parties j = s.parties j := fun j hj =>
    (State.move_of_ne hj ..).trans (State.move_of_ne hj ..)
  have hsite : told.site = ((setPool p core).run w).2.stock p := by
    rw [stock_setPool hs.known, ← hs.site]
    rfl
  have hp : p < ((setPool p core).run w).2.depots.size := by
    show p < (w.depots.setIfInBounds p _).size
    rw [Array.size_setIfInBounds]
    exact hs.known
  have hfresh : ∀ j ≠ w.stamp, w.stamp ≤ j → told.parties j = .idle := fun j hj hlater =>
    (hsame j hj).trans (hs.fresh j hlater)
  have hidle := hs.fresh w.stamp le_rfl
  have hreach : Reachable told := (reach.run (.snoc .nil (.mark hidle hfirst))).run htold
  have hgoes := proceed_accompanies hp
  have hstamp := lt_stamp_proceed hp
  refine ⟨hidle, hfirst, hstamp, ?_⟩
  generalize (proceed p).run ((setPool p core).run w).2 = result at hgoes hstamp ⊢
  cases hgoes with
  | waits moves rest | done moves rest =>
    obtain ⟨s', hrun, htracks, rfl, hothers⟩ :=
      moves.exists_run_of_fresh hp hsite (State.move_self ..) hfresh hstamp
    refine ⟨s', htold.trans hrun, htracks, fun j hj => (hothers j hj).trans (hsame j hj),
      fun q hq => ?_, rest⟩
    have hset : Elsewhere q w ((setPool p core).run w).2 := .of_stock_eq (stock_setPool_of_ne hq _)
    exact hset.trans (moves.others ⟨told, hreach, hsite, State.move_self ..⟩ q hq)

/-- If the activity is given up the party goes away. -/
theorem moves_cancel {work : PoolClosing} {x : Party} (hstands : Stands k work x)
    (hp : p < w.depots.size) : Moves p k w x ((work.cancel p).run w).2 .gone := by
  cases hstands with
  | queued | closing => exact moves_withdrawLock hp .drops

end PoolClosing

/-! ### Maintenance -/

namespace Maintenance

/-- Where a run stands whose maintenance waits. -/
inductive Stands (w : World) (s : State) : Maintenance → Prop
  | starting : Stands w s .starting
  | waiting {t} : Stands w s (.waiting t)
  | working {due r k} (old : k < w.stamp) (stands : Replenishing.Stands k r (s.parties k)) :
    Stands w s (.working due r)

/-- A run goes on with the maintenance of a pool, which opens connections as one party after the
other. -/
inductive Maintains (p : ℕ) (s : State) : Progress Maintenance Unit × World → Prop
  | waits {m events w' s'} (run : Run s s') (tracks : Tracks p w' s') (stands : Stands w' s' m) :
    Maintains p s (.wait m events, w')
  | done {w' s'} (run : Run s s') (tracks : Tracks p w' s') : Maintains p s (.done (), w')

variable {s : State}

theorem Maintains.head {s' : State} {result : Progress Maintenance Unit × World} (first : Run s s')
    (h : Maintains p s' result) : Maintains p s result := by
  cases h with
  | waits run tracks stands => exact .waits (first.trans run) tracks stands
  | done run tracks => exact .done (first.trans run) tracks

/-- Whatever has become of opening connections, maintenance goes on from there. -/
theorem maintains_andThen {x : Party} {due : ℕ} {work : Replenishing.Step}
    {next : ℕ → Step} (hs : Tracks p w s) (hx : s.parties k = x)
    (hwork : Accompanies p k w x (Replenishing.Stands k) (fun n y => y = .replenished n)
      (work.run w)) (hk : k < (work.run w).2.stamp)
    (hnext : ∀ n w' s', Tracks p w' s' → Maintains p s' ((next n).run w')) :
    Maintains p s ((Progress.andThen work (.working due) next).run w) := by
  rw [Progress.andThen, run_bind]
  generalize work.run w = worked at hwork hk
  cases hwork with
  | waits moves rest =>
    obtain ⟨s', hrun, htracks, hy, -⟩ := moves.exists_run hs hx hk
    exact .waits hrun htracks (.working hk (hy ▸ rest))
  | done moves rest =>
    obtain ⟨s', hrun, htracks, -, -⟩ := moves.exists_run hs hx hk
    exact .head hrun (hnext _ _ _ htracks)

theorem wait_maintains (fuel : ℕ) (t : Timer) (hs : Tracks p w s) :
    Maintains p s ((wait p fuel t).run w) := by
  induction fuel generalizing t w s with
  | zero => exact .waits .nil hs .waiting
  | succ fuel ih =>
    rw [wait, run_depot_bind]
    dsimp only
    cases (w.depots.getD p default).core.stopping with
    | true => exact .done .nil hs
    | false =>
      have hchecked := (untouched_check t).holds w
      rw [if_neg Bool.false_ne_true, run_bind]
      generalize t.check.run w = checked at hchecked
      obtain ⟨_ | t, w'⟩ := checked
      · have hs' : Tracks p w' s := hs.of_untouched hchecked
        dsimp only
        rw [run_now_bind]
        exact maintains_andThen hs' (hs'.fresh _ (Nat.le_refl _))
          (Replenishing.start_accompanies hs'.known) (Replenishing.lt_stamp_start hs'.known)
          fun _ _ _ htracks => ih _ htracks
      · exact .waits .nil (hs.of_untouched hchecked) .waiting

/-- Whenever maintenance goes on, so does a run. -/
theorem poll_maintains {m : Maintenance} (hs : Tracks p w s) (hstands : Stands w s m) :
    Maintains p s ((m.poll p).run w) := by
  cases hstands with
  | starting =>
    rw [poll, run_depot_bind, run_bind]
    exact wait_maintains mostTicks _ hs
  | waiting =>
    rw [poll]
    exact wait_maintains mostTicks _ hs
  | working old stands =>
    have hpolled := Replenishing.poll_accompanies stands hs.known
    have hold := Nat.lt_of_lt_of_le old hpolled.stamp_le
    rw [poll]
    exact maintains_andThen hs rfl hpolled hold
      fun _ _ _ htracks => wait_maintains mostTicks _ htracks

end Maintenance

/-! ### Pools that come to be -/

/-- A run begins with the opening of a pool. -/
theorem PoolOpening.start_tracks {address : Address} {config : ClientConfig}
    (hvalid : config.poolFault? = none) (w : World) :
    ∃ s, Run (Stocking.start address config (w.links.toList.map (·.core.stage))) s ∧
      Tracks w.depots.size ((start address config).run w).2 s := by
  have hpushed := tracks_push w address config
  have hstarted := Replenishing.start_accompanies hpushed.known
  have hnew := Replenishing.lt_stamp_start hpushed.known
  rw [start_of_valid hvalid, finish, Progress.andThen, run_bind]
  generalize (Replenishing.start w.depots.size).run _ = started at hstarted hnew
  cases hstarted with
  | waits moves rest =>
    obtain ⟨s, hrun, htracks, -, -⟩ := moves.exists_run hpushed rfl hnew
    exact ⟨s, hrun, htracks⟩
  | done moves rest =>
    obtain ⟨s, hrun, htracks, -, -⟩ := moves.exists_run hpushed rfl hnew
    have hspawned := untouched_spawn (s := .maintenance w.depots.size) nofun
    exact ⟨s, hrun, htracks.of_untouched (hspawned.holds _)⟩

/-- In every world that a run of parties fits, the pool keeps to its size. -/
theorem Tracks.le_connections {address : Address} {config : ClientConfig} {stages : List Stage}
    {s : State} (hrun : Run (Stocking.start address config stages) s) (hs : Tracks p w s) :
    (w.depots.getD p default).core.members.length ≤ config.connections ∧
      (w.depots.getD p default).core.members.Nodup := by
  have hsound := hrun.sound
  have hconfig : s.site.pool.config = config := hsound.config
  have hpool : s.site.pool = (w.depots.getD p default).core := congrArg Site.pool hs.site
  rw [← hpool, ← hconfig]
  exact ⟨hsound.site.le, hsound.site.nodup⟩

end Switchboard.Simulation
