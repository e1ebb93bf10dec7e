import Switchboard.Proofs.Pools.Pending

/-!
# Draining a pool

Whoever closes a pool gracefully looks for pending requests from time to time, and closes the pool
once a look has found none, or once the time limit and all deadlines found have come.  A look takes
one connection after the other, and meanwhile others do as they like: requests are answered, time
out and are registered, connections come and go, and time passes.

## Main definitions

- `Simulation.Drainer` — how far a graceful close has come
- `Simulation.Drainer.act` — its steps
- `Simulation.Drain.Run` — these, with what others do in between
- `Simulation.Meanwhile`, `Simulation.OnTime` — what others do

## Main statements

- `Simulation.Drainer.acts` — what one step comes to
- `Simulation.Drain.reaches_start`, `Simulation.Drain.reaches_poll` — without interruption these are
  the steps of `Draining.start` and `Draining.poll`

## Design notes

Steps of activities are not interrupted, so `Draining.look` sees one world.  On several threads it
does not, for each connection has a lock of its own: so a look takes a step for each connection.
-/

namespace Switchboard

namespace Simulation

/-! ### Those who drain a pool -/

/-- How far somebody has come who drains a pool and closes it.  The wait may be over at `floor`. -/
inductive Drainer where
  /-- the pool is about to be drained -/
  | calling
  /-- pending requests are about to be looked for -/
  | listing (floor : ℕ)
  /-- so many requests were pending on the connections seen, and these connections are left -/
  | counting (floor : ℕ) (rest : List ℕ) (count : ℕ)
  /-- requests were pending, and their deadlines are about to be looked at -/
  | relisting (floor : ℕ)
  /-- this is the latest deadline on the connections seen, and these connections are left -/
  | reading (floor : ℕ) (rest : List ℕ) (latest : Option ℕ)
  /-- nobody waits any longer, and the pool is about to be closed -/
  | leaving
  | waiting (d : Draining)
  | returned (result : Except Fault Unit)

namespace Drainer

/-- Somebody who has had the chance to go on. -/
def ofProgress : Progress Draining (Except Fault Unit) → Drainer
  | .wait d _ => .waiting d
  | .done result => .returned result

/-- Begins to drain the pool, or goes on. -/
def act (p : ℕ) (limit : Duration) : Drainer → Sim Drainer
  | .calling => return .listing ((← now) + limit.millisUp)
  | .listing floor => return .counting floor (← depot p).core.members 0
  | .counting floor [] count => return if count = 0 then .leaving else .relisting floor
  | .counting floor (c :: rest) count =>
    return .counting floor rest (count + (← link c).core.pendingCount)
  | .relisting floor => return .reading floor (← depot p).core.members none
  | .reading floor [] latest => do
    if max floor (latest.getD floor) ≤ (← now) then return .leaving
    else return .waiting (.sleeping floor (← setTimer Pool.drainInterval))
  | .reading floor (c :: rest) latest =>
    return .reading floor rest (latest.merge max (← link c).core.inflight.latestDeadline)
  | .leaving =>
    return ofProgress (← Progress.andThen (PoolClosing.start p) .closing fun r => return .done r)
  | .waiting (.sleeping floor t) => do
    match ← t.check with
    | some t => return .waiting (.sleeping floor t)
    | none => return .listing floor
  | .waiting (.closing work) =>
    return ofProgress (← Progress.andThen (work.poll p) .closing fun r => return .done r)
  | .returned result => return .returned result

/-- Looks for pending requests, or is to look again. -/
def Loops : Drainer → Prop
  | .leaving | .waiting (.closing _) | .returned _ => False
  | _ => True

/-- When the wait may be over, for somebody who waits. -/
def floor? : Drainer → Option ℕ
  | .listing floor | .counting floor .. | .relisting floor | .reading floor ..
  | .waiting (.sleeping floor _) => some floor
  | _ => none

/-- When somebody goes on who loses no time. -/
def due (w : World) : Drainer → ℕ
  | .waiting (.sleeping _ t) => t.due
  | _ => w.now

/-- The connections whose deadlines are still to be looked at. -/
def unread : Drainer → List ℕ
  | .reading _ rest _ => rest
  | _ => []

/-- What is kept of the worlds of a look for pending requests: a new look begins as the connections
are listed. -/
def keep : Drainer → List World → List World
  | .listing _, _ => []
  | _, check => check

end Drainer

/-! ### The others -/

/-- What others do while a pool is drained: time passes, and no request comes back that was pending
at the call.  It has ended, or its connection is no longer one of the pool. -/
structure Meanwhile (p : ℕ) (call w w' : World) : Prop where
  clock : w.now ≤ w'.now
  gone : ∀ c e, call.Pends p c e → w'.Pends p c e → w.Pends p c e

/-- What others do if nothing is registered and no time is lost: a look takes none, and whoever
sleeps goes on before time passes the moment at which it wakes. -/
structure OnTime (p : ℕ) (x : Drainer) (w w' : World) : Prop where
  clock : w.now ≤ w'.now
  pends : ∀ c e, w'.Pends p c e → w.Pends p c e
  unread : ∀ c ∈ x.unread, (w'.table c).entries ⊆ (w.table c).entries
  punctual : x.Loops → w'.now ≤ x.due w

/-! ### Runs -/

/-- A pool that is drained: how far that has come, the world, and all worlds since the present look
for pending requests has begun. -/
structure Drain where
  drainer : Drainer
  world : World
  check : List World

namespace Drain

/-- Somebody is about to drain a pool. -/
def called (call : World) : Drain := ⟨.calling, call, []⟩

/-- Whoever drains the pool takes a step. -/
def own (p : ℕ) (limit : Duration) (s : Drain) : Drain :=
  let (x, w) := (s.drainer.act p limit).run s.world
  ⟨x, w, w :: s.drainer.keep s.check⟩

/-- Others change the world. -/
def passed (s : Drain) (w : World) : Drain := ⟨s.drainer, w, w :: s.check⟩

/-- Steps of somebody who drains the pool, with what others do in between: they get from one world
to another, as the relation says. -/
inductive Run (p : ℕ) (limit : Duration) (others : Drainer → World → World → Prop) (first : Drain) :
    Drain → Prop
  | nil : Run p limit others first first
  | own {s} (init : Run p limit others first s) : Run p limit others first (s.own p limit)
  | others {s w} (init : Run p limit others first s) (begun : s.drainer ≠ .calling)
    (step : others s.drainer s.world w) : Run p limit others first (s.passed w)

variable {p : ℕ} {limit : Duration} {others others' : Drainer → World → World → Prop}
  {s₀ s s' : Drain}

theorem Run.trans (h : Run p limit others s₀ s) (h' : Run p limit others s s') :
    Run p limit others s₀ s' := by
  induction h' with
  | nil => exact h
  | own _ ih => exact ih.own
  | others _ begun step ih => exact ih.others begun step

theorem Run.mono (h : Run p limit others s₀ s) (hsub : ∀ x w w', others x w w' → others' x w w') :
    Run p limit others' s₀ s := by
  induction h with
  | nil => exact .nil
  | own _ ih => exact ih.own
  | others _ begun step ih => exact ih.others begun (hsub _ _ _ step)

end Drain

namespace Drainer

/-! ### One step -/

/-- The limit and the latest deadline found have come. -/
def Past (floor now : ℕ) (latest : Option ℕ) : Prop :=
  floor ≤ now ∧ ∀ d ∈ latest, d ≤ now

theorem past_iff {floor now : ℕ} {latest : Option ℕ} :
    Past floor now latest ↔ max floor (latest.getD floor) ≤ now := by
  cases latest <;> simp [Past]

/-- The pool is being closed, and nobody looks for pending requests again. -/
structure Leaves (p : ℕ) (w : World) (y : Drainer) (w' : World) : Prop where
  left : ¬y.Loops
  sweeps : Sweeps p (w.members p) w w'

/-- What a step comes to. -/
inductive Acts (p : ℕ) (limit : Duration) (w : World) : Drainer → Drainer → World → Prop
  | begins : Acts p limit w .calling (.listing (w.now + limit.millisUp)) w
  | lists {floor} : Acts p limit w (.listing floor) (.counting floor (w.members p) 0) w
  | counts {floor c rest count} :
    Acts p limit w (.counting floor (c :: rest) count)
      (.counting floor rest (count + (w.table c).size)) w
  | empty {floor} : Acts p limit w (.counting floor [] 0) .leaving w
  | busy {floor count} (found : 0 < count) :
    Acts p limit w (.counting floor [] count) (.relisting floor) w
  | relists {floor} : Acts p limit w (.relisting floor) (.reading floor (w.members p) none) w
  | reads {floor c rest latest} :
    Acts p limit w (.reading floor (c :: rest) latest)
      (.reading floor rest (latest.merge max (w.table c).latestDeadline)) w
  | expired {floor latest} (past : Past floor w.now latest) :
    Acts p limit w (.reading floor [] latest) .leaving w
  | pauses {floor latest t w'} (early : ¬Past floor w.now latest)
    (due : t.due = w.now + Pool.drainInterval) (sweeps : Sweeps p [] w w') :
    Acts p limit w (.reading floor [] latest) (.waiting (.sleeping floor t)) w'
  | sleeps {floor t t' w'} (early : w.now < t.due) (due : t'.due = t.due)
    (sweeps : Sweeps p [] w w') :
    Acts p limit w (.waiting (.sleeping floor t)) (.waiting (.sleeping floor t')) w'
  | wakes {floor t} (due : t.due ≤ w.now) :
    Acts p limit w (.waiting (.sleeping floor t)) (.listing floor) w
  | leaves {y w'} (leaves : Leaves p w y w') : Acts p limit w .leaving y w'
  | closes {work y w'} (leaves : Leaves p w y w') : Acts p limit w (.waiting (.closing work)) y w'
  | rests {result} : Acts p limit w (.returned result) (.returned result) w

variable {p c : ℕ} {limit : Duration} {w w' : World} {x y : Drainer}

theorem run_ofProgress (step : Draining.Step) (w : World) :
    (return ofProgress (← step) : Sim Drainer).run w =
      (ofProgress (step.run w).1, (step.run w).2) :=
  rfl

theorem floor?_of_not_loops (h : ¬x.Loops) : x.floor? = none := by
  rcases x with _ | _ | _ | _ | _ | _ | (_ | _) | _
  all_goals first | rfl | exact absurd trivial h

/-- Whatever closing the pool comes to, nobody looks for pending requests again. -/
theorem leaves_of_sweeps {step : PoolClosing.Step} (h : Sweeps p (w.members p) w (step.run w).2)
    {closing : Draining.Step}
    (hclosing : closing = Progress.andThen step .closing fun result => return .done result) :
    Leaves p w (ofProgress (closing.run w).1) (closing.run w).2 := by
  rw [hclosing, Progress.andThen, run_bind]
  cases (step.run w).1 <;> exact ⟨id, h⟩

/-- Each step has one of the forms. -/
theorem acts (p : ℕ) (limit : Duration) (x : Drainer) (w : World) :
    Acts p limit w x ((x.act p limit).run w).1 ((x.act p limit).run w).2 := by
  cases x with
  | calling => exact .begins
  | listing => exact .lists
  | relisting => exact .relists
  | returned => exact .rests
  | leaving => exact .leaves (leaves_of_sweeps (PoolClosing.sweeps_start w) rfl)
  | counting floor rest count =>
    cases rest with
    | cons c rest => exact .counts
    | nil =>
      cases count with
      | zero => exact .empty
      | succ count => exact .busy count.succ_pos
  | reading floor rest latest =>
    cases rest with
    | cons c rest => exact .reads
    | nil =>
      rw [act, run_now_bind]
      by_cases hpast : Past floor w.now latest
      · rw [if_pos (past_iff.mp hpast)]
        exact .expired hpast
      · rw [if_neg (mt past_iff.mpr hpast)]
        exact .pauses hpast rfl (.of_links_eq rfl (List.Subset.refl _) rfl)
  | waiting d =>
    cases d with
    | closing work => exact .closes (leaves_of_sweeps (PoolClosing.sweeps_poll work w) rfl)
    | sleeping floor t =>
      rw [act, run_bind, Timer.check, run_now_bind]
      by_cases hdue : t.due ≤ w.now
      · rw [if_pos hdue]
        exact .wakes hdue
      · rw [if_neg hdue]
        have hearly := Nat.lt_of_not_le hdue
        cases t.order with
        | some order => exact .sleeps hearly rfl (refl_of _ w)
        | none => exact .sleeps hearly rfl (.of_links_eq rfl (List.Subset.refl _) rfl)

/-- No step lets time pass or makes a request pending. -/
theorem Acts.sweeps (h : Acts p limit w x y w') : Sweeps p (w.members p) w w' := by
  cases h with
  | pauses _ _ sweeps | sleeps _ _ sweeps => exact sweeps.mono (List.nil_subset _)
  | leaves leaves | closes leaves => exact leaves.sweeps
  | _ => exact refl_of _ w

/-- The steps of a look change nothing, and neither does lying down or getting up. -/
theorem Acts.table_eq (h : Acts p limit w x y w') (hloops : x.Loops) :
    w'.table c = w.table c := by
  cases h with
  | pauses _ _ sweeps | sleeps _ _ sweeps => exact sweeps.others c List.not_mem_nil
  | leaves | closes | rests => exact hloops.elim
  | _ => rfl

end Drainer

namespace Drain

open Drainer

/-- Whatever holds after each thing that a step may come to holds after the step. -/
@[elab_as_elim]
theorem own_cases {p : ℕ} {limit : Duration} {motive : Drain → Prop} (s : Drain)
    (h : ∀ y w, Acts p limit s.world s.drainer y w → motive ⟨y, w, w :: s.drainer.keep s.check⟩) :
    motive (s.own p limit) :=
  h _ _ (acts p limit s.drainer s.world)

/-! ### Without interruption -/

variable {p : ℕ} {limit : Duration} {w w' w'' : World} {check : List World} {x y : Drainer}

/-- Somebody who drains a pool gets so far, and the world with it, while nobody else does
anything. -/
def Reaches (p : ℕ) (limit : Duration) (s : Drain) (y : Drainer) (w : World) : Prop :=
  ∃ check, Run p limit (fun _ _ _ => False) s ⟨y, w, check⟩

theorem Reaches.exists_run {s : Drain} (h : Reaches p limit s y w)
    (others : Drainer → World → World → Prop) : ∃ check, Run p limit others s ⟨y, w, check⟩ := by
  obtain ⟨check, hrun⟩ := h
  exact ⟨check, hrun.mono fun _ _ _ => False.elim⟩

theorem Reaches.of_own {x' y : Drainer} (hact : (x.act p limit).run w = (x', w'))
    (h : ∀ check, Reaches p limit ⟨x', w', check⟩ y w'') : Reaches p limit ⟨x, w, check⟩ y w'' := by
  obtain ⟨check', hrun⟩ := h _
  have hown : Run p limit (fun _ _ _ => False) ⟨x, w, check⟩ _ := .own .nil
  rw [Drain.own, hact] at hown
  exact ⟨check', hown.trans hrun⟩

theorem reaches_act (p : ℕ) (limit : Duration) (x : Drainer) (w : World) (check : List World) :
    Reaches p limit ⟨x, w, check⟩ ((x.act p limit).run w).1 ((x.act p limit).run w).2 :=
  ⟨_, Run.nil.own⟩

theorem Reaches.count {floor count : ℕ} {rest : List ℕ}
    (h : ∀ check, Reaches p limit
      ⟨.counting floor [] (rest.foldl (fun n c => n + (w.table c).size) count), w, check⟩ y w') :
    Reaches p limit ⟨.counting floor rest count, w, check⟩ y w' := by
  induction rest generalizing count check with
  | nil => exact h check
  | cons c rest ih => exact .of_own rfl fun _ => ih h

theorem merge_max?_append (latest d : Option ℕ) (rest : List ℕ) :
    (latest.merge max d).merge max rest.max? = latest.merge max (d.toList ++ rest).max? := by
  cases d with
  | none => cases latest <;> rfl
  | some d =>
    rw [Option.toList_some, List.singleton_append, List.max?_cons]
    cases latest <;> cases rest.max? <;> simp [Option.merge, Nat.max_assoc]

theorem Reaches.read {floor : ℕ} {latest : Option ℕ} {rest : List ℕ}
    (h : ∀ check, Reaches p limit
      ⟨.reading floor []
        (latest.merge max (rest.filterMap fun c => (w.table c).latestDeadline).max?), w, check⟩
      y w') :
    Reaches p limit ⟨.reading floor rest latest, w, check⟩ y w' := by
  induction rest generalizing latest check with
  | nil =>
    rw [List.filterMap_nil, List.max?_nil, Option.merge_none_right] at h
    exact h check
  | cons c rest ih =>
    have hcons : (c :: rest).filterMap (fun c => (w.table c).latestDeadline) =
        (w.table c).latestDeadline.toList ++
          rest.filterMap fun c => (w.table c).latestDeadline := by
      cases hlatest : (w.table c).latestDeadline with
      | none => exact List.filterMap_cons_none hlatest
      | some d => exact List.filterMap_cons_some hlatest
    have hread : ((act p limit (.reading floor (c :: rest) latest)).run w) =
        (.reading floor rest (latest.merge max (w.table c).latestDeadline), w) := rfl
    refine .of_own hread fun _ => ih fun check => ?_
    rw [merge_max?_append, ← hcons]
    exact h check

/-- `Draining.look` looks at all connections at once. -/
theorem reaches_look (p floor : ℕ) (limit : Duration) (w : World) (check : List World) :
    Reaches p limit ⟨.listing floor, w, check⟩ (ofProgress ((Draining.look p floor).run w).1)
      ((Draining.look p floor).run w).2 := by
  have hlists : (act p limit (.listing floor)).run w = (.counting floor (w.members p) 0, w) := rfl
  have hrelists : (act p limit (.relisting floor)).run w = (.reading floor (w.members p) none, w) :=
    rfl
  have hcloses := fun check => reaches_act p limit .leaving w check
  simp only [act, run_ofProgress] at hcloses
  have hcounted : (w.members p).foldl (fun n c => n + (w.table c).size) 0 = w.inFlight p := rfl
  have hread : ((w.members p).filterMap fun c => (w.table c).latestDeadline).max? =
      w.latestDeadline p := rfl
  have hover : Pool.drainOver w.now floor (w.inFlight p) (w.latestDeadline p) = true ↔
      w.inFlight p = 0 ∨ max floor ((w.latestDeadline p).getD floor) ≤ w.now := by
    simp [Pool.drainOver]
  rw [Draining.look, run_get_bind]
  refine .of_own hlists fun _ => .count fun check => ?_
  rw [hcounted]
  by_cases hcount : w.inFlight p = 0
  · have hempty : (act p limit (.counting floor [] 0)).run w = (.leaving, w) := rfl
    rw [if_pos (hover.mpr (.inl hcount)), hcount]
    exact .of_own hempty hcloses
  · have hbusy : (act p limit (.counting floor [] (w.inFlight p))).run w =
        (.relisting floor, w) := by
      rw [act, if_neg hcount]
      rfl
    refine .of_own hbusy fun _ => .of_own hrelists fun _ => .read fun check => ?_
    rw [hread, Option.merge_none_left]
    by_cases hpast : max floor ((w.latestDeadline p).getD floor) ≤ w.now
    · have hleaves : (act p limit (.reading floor [] (w.latestDeadline p))).run w =
          (.leaving, w) := by
        rw [act, run_now_bind, if_pos hpast]
        rfl
      rw [if_pos (hover.mpr (.inr hpast))]
      exact .of_own hleaves hcloses
    · have hpauses := reaches_act p limit (.reading floor [] (w.latestDeadline p)) w check
      rw [act, run_now_bind, if_neg hpast] at hpauses
      rw [if_neg fun h => (hover.mp h).elim hcount hpast]
      exact hpauses

/-- `Draining.start` is made of steps of the drainer. -/
theorem reaches_start (p : ℕ) (limit : Duration) (w : World) :
    Reaches p limit (called w) (ofProgress ((Draining.start p limit).run w).1)
      ((Draining.start p limit).run w).2 := by
  have hbegins : (act p limit .calling).run w = (.listing (w.now + limit.millisUp), w) := rfl
  rw [Draining.start, run_now_bind]
  exact .of_own hbegins fun check => reaches_look p _ limit w check

/-- `Draining.poll` is made of steps of the drainer. -/
theorem reaches_poll (p : ℕ) (limit : Duration) (d : Draining) (w : World) (check : List World) :
    Reaches p limit ⟨.waiting d, w, check⟩ (ofProgress ((d.poll p).run w).1)
      ((d.poll p).run w).2 := by
  cases d with
  | closing work => exact reaches_act p limit (.waiting (.closing work)) w check
  | sleeping floor t =>
    have hacts := reaches_act p limit (.waiting (.sleeping floor t)) w check
    rw [act, run_bind] at hacts
    rw [Draining.poll, run_bind]
    generalize hchecked : t.check.run w = checked at hacts
    obtain ⟨left, w'⟩ := checked
    cases left with
    | some t => exact hacts
    | none =>
      have hwakes : (act p limit (.waiting (.sleeping floor t))).run w = (.listing floor, w') := by
        rw [act, run_bind, hchecked]
        rfl
      exact .of_own hwakes fun check => reaches_look p floor limit w' check

end Drain

end Simulation

end Switchboard
