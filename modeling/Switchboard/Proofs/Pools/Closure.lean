import Switchboard.Proofs.Pools.Activities

/-!
# Closed pools

Whoever closes a pool tells everybody to stop before it waits for the lock, and takes the
connections out once it has the lock.  Those who open connections look at the signal with the lock
in their hands.  So whoever had begun before has put its connections into the pool by then, where
they are found, and nobody begins later.

## Main definitions

- `Stocking.Emptied` — the pool holds nothing, and nobody is about to put anything into it
- `Stocking.Shutting` — what holds of those who close a pool
- `Stocking.Doomed` — a connection whose life is ended by whoever closes the pool

## Main statements

- `Stocking.Emptied.step`, `Stocking.Shutting.step`, `Stocking.Doomed.step` — what every step
  preserves
- `Stocking.Run.stays_closed` — a pool that has been closed stays so
- `Simulation.PoolClosing.empties` — the pool of a world is empty when closing it has ended
-/

namespace Switchboard

namespace Stocking

variable {first s s' : State} {c c' : Site} {k n : ℕ} {x y : Party}

/-! ### Empty pools -/

/-- The pool is closed and holds nothing, and nobody is about to put anything into it. -/
structure Emptied (s : State) : Prop where
  closed : s.site.pool.closed = true
  stopping : s.site.pool.stopping = true
  members : s.site.pool.members = []
  nobody : ∀ k live attempts, s.parties k ≠ .replenishing (.opening live attempts)

/-- A pool once emptied stays empty. -/
theorem Emptied.step (h : Emptied s) (last : Step s s') : Emptied s' := by
  have hlasts := last.lasts
  refine ⟨hlasts.closed h.closed, hlasts.stopping h.stopping, ?_, ?_⟩
  · cases last with
    | @party k _ _ step =>
      have hnobody := h.nobody k
      generalize s.parties k = x at step hnobody
      cases step with
      | replenishing step =>
        cases step with
        | installed => exact (hnobody _ _ rfl).elim
        | _ => exact h.members
      | closing step =>
        cases step with
        | taken => rfl
        | _ => exact h.members
      | _ => exact h.members
    | life | elsewhere | abandoned => exact h.members
    | acquire shard draw =>
      obtain ⟨selector, hpool⟩ := s.site.pool.acquire_snd s.site.stage shard draw
      rw [hpool]
      exact h.members
  · cases last with
    | @party k _ y step =>
      intro j live attempts
      by_cases hj : j = k
      · subst hj
        rw [State.move_self]
        rintro rfl
        have hnobody := h.nobody j
        generalize s.parties j = x at step hnobody
        cases step with
        | replenishing step =>
          cases step with
          | begun granted stopping =>
            rw [h.stopping] at stopping
            cases stopping
          | opened | failed => exact hnobody _ _ rfl
      · rw [State.move_of_ne hj]
        exact h.nobody j live attempts
    | life | elsewhere | acquire | abandoned => exact h.nobody

/-- Whatever the party has come to, it has taken nothing into the pool. -/
def Party.TakesNothing : Party → Prop
  | .replenishing (.opening ..) => False
  | .replenishing (.installed count) | .replenished count => count = 0
  | _ => True

theorem Party.TakesNothing.step (hx : x.TakesNothing) (hstopping : c.pool.stopping = true)
    (h : Party.Step c k x c' y) : y.TakesNothing := by
  cases h with
  | replenishing step =>
    cases step with
    | refused => rfl
    | begun granted stopping =>
      rw [hstopping] at stopping
      cases stopping
    | opened | failed | installed => exact hx.elim
  | replenished => exact hx
  | _ => trivial

/-! ### Those who close -/

/-- The party has marked the pool as closed, and has not gone away. -/
def Party.Closes : Party → Prop
  | .closing _ | .closed => True
  | _ => False

/-- The party has told everybody to stop, too. -/
def Party.Stops : Party → Prop
  | .closing .stopped | .closing .queued | .closing (.sweeping ..) | .closed => True
  | _ => False

/-- The party has taken the connections out of the pool, too. -/
def Party.Empties : Party → Prop
  | .closing (.sweeping ..) | .closed => True
  | _ => False

theorem Party.Step.closes_cases (h : Party.Step c k x c' y) (hy : y.Closes) :
    x.Closes ∨ c.pool.closed = false ∧ c'.pool.closed = true := by
  cases h with
  | closing | closed => exact .inl trivial
  | marks unmarked => exact .inr ⟨unmarked, rfl⟩
  | _ => exact hy.elim

theorem Party.Step.stops_cases (h : Party.Step c k x c' y) (hy : y.Stops) :
    x.Stops ∨ c'.pool.stopping = true := by
  cases h with
  | closing step =>
    cases step with
    | stopped => exact .inr rfl
    | _ => exact .inl trivial
  | closed => exact .inl trivial
  | _ => exact hy.elim

theorem Party.Step.empties_cases (h : Party.Step c k x c' y) (hy : y.Empties) :
    x.Empties ∨ x = .closing .queued ∧ c.lock.isHeldBy k = true ∧
      c' = { c with pool := c.pool.takeAll.2 } := by
  cases h with
  | closing step =>
    cases step with
    | taken granted => exact .inr ⟨rfl, granted, rfl⟩
    | stopped | requested => exact hy.elim
    | closes | passes | finished => exact .inl trivial
  | closed => exact .inl trivial
  | _ => exact hy.elim

/-- One party at most closes the pool, and how far it has come shows. -/
structure Shutting (s : State) : Prop where
  closed : ∀ k, (s.parties k).Closes → s.site.pool.closed = true
  only : ∀ j k, (s.parties j).Closes → (s.parties k).Closes → j = k
  stopping : ∀ k, (s.parties k).Stops → s.site.pool.stopping = true
  emptied : ∀ k, (s.parties k).Empties → Emptied s

/-- Whoever takes the connections out of the pool has the lock, so nobody else is about to put
others into it. -/
theorem Shutting.emptied_of_taken (h : Shutting s) (hs : Invariant first s)
    (hx : s.parties k = .closing .queued) (granted : s.site.lock.isHeldBy k = true) :
    Emptied (s.move k { s.site with pool := s.site.pool.takeAll.2 } y) ∨
      ∃ live attempts, y = .replenishing (.opening live attempts) := by
  by_cases hy : ∃ live attempts, y = .replenishing (.opening live attempts)
  · exact .inr hy
  · refine .inl ⟨h.closed k (hx ▸ trivial), h.stopping k (hx ▸ trivial), rfl, ?_⟩
    intro j live attempts hj
    by_cases hne : j = k
    · subst hne
      rw [State.move_self] at hj
      exact hy ⟨live, attempts, hj⟩
    · rw [State.move_of_ne hne] at hj
      have hknown := hs.parties j
      rw [hj] at hknown
      exact hne (Lock.eq_of_isHeldBy hknown.1 granted)

theorem Shutting.step (h : Shutting s) (hs : Invariant first s) (last : Step s s') :
    Shutting s' := by
  have hlasts := last.lasts
  cases last with
  | @party k c' y step =>
    have hself : (s.move k c' y).parties k = y := State.move_self ..
    have hothers : ∀ {j}, j ≠ k → (s.move k c' y).parties j = s.parties j :=
      fun hj => State.move_of_ne hj ..
    constructor
    · intro j hj
      by_cases hne : j = k
      · subst hne
        rw [hself] at hj
        rcases step.closes_cases hj with hbefore | ⟨-, hmarked⟩
        · exact hlasts.closed (h.closed j hbefore)
        · exact hmarked
      · rw [hothers hne] at hj
        exact hlasts.closed (h.closed j hj)
    · -- nobody marks a pool that somebody else has marked
      have hmine : ∀ j ≠ k, (s.parties j).Closes → ¬y.Closes := by
        intro j hne hj hy
        rcases step.closes_cases hy with hbefore | ⟨hunmarked, -⟩
        · exact hne (h.only j k hj hbefore)
        · rw [h.closed j hj] at hunmarked
          cases hunmarked
      intro i j hi hj
      by_cases hik : i = k <;> by_cases hjk : j = k
      · rw [hik, hjk]
      · rw [hik, hself] at hi
        rw [hothers hjk] at hj
        exact absurd hi (hmine j hjk hj)
      · rw [hothers hik] at hi
        rw [hjk, hself] at hj
        exact absurd hj (hmine i hik hi)
      · rw [hothers hik] at hi
        rw [hothers hjk] at hj
        exact h.only i j hi hj
    · intro j hj
      by_cases hne : j = k
      · subst hne
        rw [hself] at hj
        rcases step.stops_cases hj with hbefore | htold
        · exact hlasts.stopping (h.stopping j hbefore)
        · exact htold
      · rw [hothers hne] at hj
        exact hlasts.stopping (h.stopping j hj)
    · intro j hj
      by_cases hne : j = k
      · subst hne
        rw [hself] at hj
        rcases step.empties_cases hj with hbefore | ⟨hx, granted, rfl⟩
        · exact (h.emptied j hbefore).step (.party step)
        · refine (h.emptied_of_taken hs hx granted).resolve_right ?_
          rintro ⟨live, attempts, rfl⟩
          exact hj.elim
      · rw [hothers hne] at hj
        exact (h.emptied j hj).step (.party step)
  | life exist next =>
    exact ⟨h.closed, h.only, h.stopping, fun k hk => (h.emptied k hk).step (.life exist next)⟩
  | elsewhere => exact ⟨h.closed, h.only, h.stopping, fun k hk => (h.emptied k hk).step .elsewhere⟩
  | acquire shard draw =>
    exact ⟨fun k hk => hlasts.closed (h.closed k hk), h.only,
      fun k hk => hlasts.stopping (h.stopping k hk),
      fun k hk => (h.emptied k hk).step (.acquire shard draw)⟩
  | abandoned =>
    exact ⟨h.closed, h.only, fun _ _ => rfl, fun k hk => (h.emptied k hk).step .abandoned⟩

variable {address : Address} {config : ClientConfig} {stages : List Stage}

theorem Run.shutting (h : Run (start address config stages) s) : Shutting s := by
  induction h with
  | nil => exact ⟨fun _ => False.elim, fun _ _ => False.elim, fun _ => False.elim,
      fun _ => False.elim⟩
  | snoc init last ih => exact ih.step init.sound last

/-! ### Connections in and on the way into the pool -/

/-- Whoever closes the pool ends the life of the connection, unless somebody else has begun to. -/
inductive Doomed (s : State) (n : ℕ) : Prop
  | held (mem : n ∈ s.site.pool.members)
  | taken {k rest begun} (turn : s.parties k = .closing (.sweeping rest begun)) (mem : n ∈ rest)
  | ending (ending : (s.site.stage n).isEnding = true)
  /-- whoever closed the pool has gone away, and nobody else ever will -/
  | forsaken (closed : s.site.pool.closed = true) (nobody : ∀ k, ¬(s.parties k).Closes)

namespace Doomed

theorem of_held (mem : n ∈ s.site.pool.members) (last : Step s s') : Doomed s' n := by
  cases last with
  | @party k _ _ step =>
    generalize s.parties k = x at step
    cases step with
    | replenishing step =>
      cases step with
      | installed =>
        cases hover : (s.site.stage n).isTerminal with
        | false =>
          have hlive : n ∈ s.site.live := List.mem_filter.mpr ⟨mem, by rw [hover, Bool.not_false]⟩
          exact .held (List.mem_append_left _ hlive)
        | true =>
          have hending : (s.site.stage n).isEnding = true := by
            rw [Stage.isEnding, hover, Bool.or_true]
          exact .ending hending
      | _ => exact .held mem
    | closing step =>
      cases step with
      | taken => exact .taken (State.move_self ..) mem
      | _ => exact .held mem
    | _ => exact .held mem
  | life | elsewhere | abandoned => exact .held mem
  | acquire shard draw =>
    refine .held ?_
    obtain ⟨selector, hpool⟩ := s.site.pool.acquire_snd s.site.stage shard draw
    rw [hpool]
    exact mem

/-- Whoever closes the pool gets to all connections in turn. -/
theorem of_turn {rest begun : List ℕ} (hs : Shutting s) (exist : n < s.site.stages.length)
    (turn : s.parties k = .closing (.sweeping rest begun)) (mem : n ∈ rest)
    (step : Party.Step s.site k (s.parties k) c' y) : Doomed (s.move k c' y) n := by
  have hlasts := step.lasts
  have hcloses : (s.parties k).Closes := turn ▸ trivial
  have hclosed := hs.closed k hcloses
  rw [turn] at step
  cases step with
  | closing step =>
    cases step with
    | closes =>
      rcases List.mem_cons.mp mem with rfl | hrest
      · refine .ending ?_
        show ((s.site.setStage _ _).stage _).isEnding = true
        rw [Site.stage_setStage exist, if_pos rfl]
        rfl
      · exact .taken (State.move_self ..) hrest
    | passes ending =>
      rcases List.mem_cons.mp mem with rfl | hrest
      · exact .ending ending
      · exact .taken (State.move_self ..) hrest
    | finished => exact .taken (State.move_self ..) mem
  | closed => cases mem
  | drops =>
    refine .forsaken (hlasts.closed hclosed) fun j hj => ?_
    by_cases hne : j = k
    · subst hne
      rw [State.move_self] at hj
      exact hj
    · rw [State.move_of_ne hne] at hj
      exact hne (hs.only j k hj hcloses)

theorem step (h : Doomed s n) (hs : Shutting s) (exist : n < s.site.stages.length)
    (last : Step s s') : Doomed s' n := by
  have hlasts := last.lasts
  cases h with
  | held mem => exact of_held mem last
  | ending ending => exact .ending (hlasts.ending n exist ending)
  | @taken k _ _ turn mem =>
    cases last with
    | @party j _ _ step =>
      by_cases hj : j = k
      · subst hj
        exact of_turn hs exist turn mem step
      · exact .taken ((State.move_of_ne (Ne.symm hj) ..).trans turn) mem
    | _ => exact .taken turn mem
  | forsaken closed nobody =>
    refine .forsaken (hlasts.closed closed) fun j hj => ?_
    cases last with
    | @party k _ _ step =>
      by_cases hne : j = k
      · subst hne
        rw [State.move_self] at hj
        rcases step.closes_cases hj with hbefore | ⟨hunmarked, -⟩
        · exact nobody j hbefore
        · rw [closed] at hunmarked
          cases hunmarked
      · rw [State.move_of_ne hne] at hj
        exact nobody j hj
    | _ => exact nobody j hj

/-- Once the pool has been closed the life of the connection is being ended. -/
theorem isEnding (h : Doomed s n) (hs : Shutting s) (returned : s.parties k = .closed) :
    (s.site.stage n).isEnding = true := by
  have hcloses : (s.parties k).Closes := returned ▸ trivial
  cases h with
  | ending ending => exact ending
  | held mem =>
    rw [(hs.emptied k (returned ▸ trivial)).members] at mem
    cases mem
  | @taken j _ _ turn =>
    obtain rfl := hs.only j k (turn ▸ trivial) hcloses
    rw [returned] at turn
    cases turn
  | forsaken _ nobody => exact absurd hcloses (nobody k)

end Doomed

/-- What becomes of a connection that the party has opened for the pool. -/
inductive Bound (s : State) (k n : ℕ) : Prop
  | opening {live attempts} (turn : s.parties k = .replenishing (.opening live attempts))
    (mem : n ∈ numbers attempts)
  | gone (gone : s.parties k = .gone)
  | doomed (doomed : Doomed s n)

namespace Bound

theorem step (h : Bound s k n) (hs : Shutting s) (exist : n < s.site.stages.length)
    (last : Step s s') : Bound s' k n := by
  cases h with
  | doomed doomed => exact .doomed (doomed.step hs exist last)
  | gone gone =>
    cases last with
    | @party j _ _ step =>
      by_cases hj : k = j
      · subst hj
        rw [gone] at step
        cases step
      · exact .gone ((State.move_of_ne hj ..).trans gone)
    | _ => exact .gone gone
  | opening turn mem =>
    cases last with
    | @party j _ _ step =>
      by_cases hj : k = j
      · subst hj
        rw [turn] at step
        cases step with
        | leaves => exact .gone (State.move_self ..)
        | replenishing step =>
          cases step with
          | installed => exact .doomed (.held (List.mem_append_right _ mem))
          | opened =>
            refine .opening (State.move_self ..) ?_
            rw [numbers_insert] at mem ⊢
            exact List.mem_append.mpr ((List.mem_append.mp mem).imp_right (List.mem_append_right _))
          | failed =>
            refine .opening (State.move_self ..) ?_
            rw [numbers_insert] at mem ⊢
            exact mem
      · exact .opening ((State.move_of_ne hj ..).trans turn) mem
    | _ => exact .opening turn mem

end Bound

/-! ### Closed for good -/

namespace Run

theorem emptied (h : Run s s') (hs : Emptied s) : Emptied s' := by
  induction h with
  | nil => exact hs
  | snoc init last ih => exact ih.step last

/-- Nobody who has closed the pool does anything else. -/
theorem parties_closed (h : Run s s') (hk : s.parties k = .closed) : s'.parties k = .closed := by
  induction h with
  | nil => exact hk
  | snoc init last ih =>
    cases last with
    | @party j _ _ step =>
      by_cases hj : k = j
      · subst hj
        rw [ih] at step
        cases step
      · rwa [State.move_of_ne hj]
    | _ => exact ih

/-- Whoever asks for connections once everybody has been told to stop gets none. -/
theorem takesNothing {j : ℕ} (h : Run s s') (hs : Emptied s) (hj : (s.parties j).TakesNothing) :
    (s'.parties j).TakesNothing := by
  induction h with
  | nil => exact hj
  | snoc init last ih =>
    cases last with
    | @party k _ _ step =>
      by_cases hne : j = k
      · subst hne
        rw [State.move_self]
        exact ih.step (init.emptied hs).stopping step
      · rwa [State.move_of_ne hne]
    | _ => exact ih

theorem doomed (init : Run (start address config stages) s) (h : Run s s')
    (exist : n < s.site.stages.length) (hn : Doomed s n) : Doomed s' n := by
  induction h with
  | nil => exact hn
  | snoc before last ih =>
    exact ih.step (init.trans before).shutting (exist.trans_le before.lasts.length) last

theorem bound (init : Run (start address config stages) s) (h : Run s s')
    (exist : n < s.site.stages.length) (hn : Bound s k n) : Bound s' k n := by
  induction h with
  | nil => exact hn
  | snoc before last ih =>
    exact ih.step (init.trans before).shutting (exist.trans_le before.lasts.length) last

/-- A life that is being ended is not in service again. -/
theorem stage_ne_ready (h : Run s s') (exist : n < s.site.stages.length)
    (ending : (s.site.stage n).isEnding = true) : s'.site.stage n ≠ .ready := by
  intro hready
  have hlater := h.lasts.ending n exist ending
  rw [hready] at hlater
  cases hlater

/-- Once the call has returned that was the first to close the pool, the pool holds no connection,
nobody is opening connections for it, whoever had not begun takes none in, and nobody is given one.
All that the pool held at any time before, and all that somebody was about to put into it, is out of
service, unless that somebody has gone away. -/
theorem stays_closed (h : Run (start address config stages) s) (returned : s.parties k = .closed) :
    (∀ s', Run s s' →
      s'.site.pool.members = [] ∧
      (∀ j live attempts, s'.parties j ≠ .replenishing (.opening live attempts)) ∧
      (∀ j count, s.parties j = .idle ∨ s.parties j = .replenishing .queued →
        s'.parties j = .replenished count → count = 0) ∧
      ∀ shard draw, (s'.site.pool.acquire s'.site.stage shard draw).1 =
        .error (.noAvailableConnection
          ("no ready connection to " ++ s'.site.pool.address.display))) ∧
    ∀ v, Run (start address config stages) v → Run v s → ∀ s', Run s s' →
      (∀ n ∈ v.site.pool.members, s'.site.stage n ≠ .ready) ∧
      ∀ j live attempts, v.parties j = .replenishing (.opening live attempts) →
        s.parties j = .gone ∨ ∀ n ∈ numbers attempts, s'.site.stage n ≠ .ready := by
  have hshutting := h.shutting
  have hemptied := hshutting.emptied k (returned ▸ trivial)
  refine ⟨fun s' later => ?_, fun v init before s' later => ⟨fun n mem => ?_, ?_⟩⟩
  · have hempty := later.emptied hemptied
    refine ⟨hempty.members, hempty.nobody, fun j count hj hcount => ?_, fun shard draw => ?_⟩
    · have hnothing : (s.parties j).TakesNothing := by
        rcases hj with hidle | hqueued
        · exact hidle ▸ trivial
        · exact hqueued ▸ trivial
      have hlater := later.takesNothing hemptied hnothing
      rw [hcount] at hlater
      exact hlater
    · rcases s'.site.pool.acquire_cases s'.site.stage shard draw with
        ⟨n, hready, -⟩ | ⟨-, hrefused⟩
      · have hmem := ((Pool.mem_ready ..).mp hready).1
        rw [hempty.members] at hmem
        cases hmem
      · exact hrefused
  · have hexist := init.sound.site.known n mem
    have hdoomed := init.doomed before hexist (.held mem)
    exact later.stage_ne_ready (hexist.trans_le before.lasts.length)
      (hdoomed.isEnding hshutting returned)
  · intro j live attempts turn
    refine or_iff_not_imp_left.mpr fun hstays n mem => ?_
    have hknown := init.sound.parties j
    rw [turn] at hknown
    obtain ⟨-, u, -, -, -, -, hopening⟩ := hknown
    have hexist := (hopening.fresh n mem).2
    refine later.stage_ne_ready (hexist.trans_le before.lasts.length) ?_
    cases init.bound before hexist (.opening turn mem) with
    | opening turn' => exact (hemptied.nobody _ _ _ turn').elim
    | gone gone => exact absurd gone hstays
    | doomed doomed => exact doomed.isEnding hshutting returned

/-- Somebody closes the pool while a connection is on its way into it, and waits until it is there.
-/
theorem stays_closed_meanwhile :
    ∃ v s, Run (start default { connections := 1 } []) v ∧ Run v s ∧
      v.parties 0 = .replenishing (.opening [] [.opened 0]) ∧ v.parties 1 = .closing .marked ∧
      s.parties 0 = .replenished 1 ∧ s.parties 1 = .closed ∧
      ∀ s', Run s s' → s'.site.pool.members = [] ∧ s'.site.stage 0 ≠ .ready ∧
        s'.parties 2 ≠ .replenished 1 := by
  obtain ⟨⟨site, parties⟩, hv, rfl, hopening, hmarked, hidle⟩ :
      ∃ v, Run (start default { connections := 1 } []) v ∧
        v.site = ⟨{ Pool.empty default { connections := 1 } with closed := true },
          Lock.free.request 0, [.ready], false⟩ ∧
        v.parties 0 = .replenishing (.opening [] [.opened 0]) ∧
        v.parties 1 = .closing .marked ∧ v.parties 2 = .idle := by
    have h₁ := Run.nil.snoc
      (.of_party (s := start default { connections := 1 } []) (k := 0) rfl .asks)
    have h₂ := h₁.snoc (.of_party (k := 0) rfl (.replenishing (.begun rfl rfl)))
    have h₃ := h₂.snoc (.of_party (k := 0) rfl (.replenishing (.opened [] [])))
    have h := h₃.snoc (.of_party (k := 1) rfl (.marks rfl))
    exact ⟨_, h, rfl, rfl, rfl, rfl⟩
  have h₁ := Run.nil.snoc (.of_party (s := ⟨_, parties⟩) hmarked (.closing .stopped))
  have h₂ := h₁.snoc (.of_party (k := 1) rfl (.closing .requested))
  have h₃ := h₂.snoc (.of_party (k := 0) hopening (.replenishing (.installed (by decide))))
  have h₄ := h₃.snoc (.of_party (k := 0) rfl .replenished)
  have h₅ := h₄.snoc (.of_party (k := 1) rfl (.closing (.taken rfl)))
  have h₆ := h₅.snoc (.of_party (k := 1) rfl (.closing (.closes rfl)))
  have h₇ := h₆.snoc (.of_party (k := 1) rfl (.closing (.finished [] [])))
  have h := h₇.snoc (.of_party (k := 1) rfl .closed)
  obtain ⟨hempty, hout⟩ := (hv.trans h).stays_closed (k := 1) rfl
  refine ⟨_, _, hv, h, hopening, hmarked, rfl, rfl, fun s' later => ?_⟩
  obtain ⟨hmembers, -, hnone, -⟩ := hempty s' later
  refine ⟨hmembers, ?_, fun hcount => ?_⟩
  · rcases (hout _ hv h s' later).2 0 _ _ hopening with hgone | hready
    · cases hgone
    · exact hready 0 (List.mem_singleton.mpr rfl)
  · cases hnone 2 1 (.inl hidle) hcount

end Run

end Stocking

namespace Simulation

open Stocking

/-- When the activity ends that was the first to close the pool, so does its party, and the pool
holds nothing. -/
theorem PoolClosing.empties {address : Address} {config : ClientConfig} {stages : List Stage}
    {s : State} {p k : ℕ} {w w' : World} {work : PoolClosing} {result : Except Fault Unit}
    (hrun : Run (Stocking.start address config stages) s) (hs : Tracks p w s) (old : k < w.stamp)
    (hstands : Stands k work (s.parties k)) (hdone : (work.poll p).run w = (.done result, w')) :
    ∃ s', Run s s' ∧ Tracks p w' s' ∧ s'.parties k = .closed ∧
      (w'.depots.getD p default).core.members = [] := by
  have hpolled := poll_accompanies hstands hs.known
  rw [hdone] at hpolled
  cases hpolled with
  | done moves rest =>
    obtain ⟨s', hlater, htracks, hclosed, -⟩ :=
      moves.exists_run hs rfl (old.trans_le moves.stamp)
    rw [rest] at hclosed
    refine ⟨s', hlater, htracks, hclosed, ?_⟩
    have hempty := (hrun.trans hlater).shutting.emptied k (hclosed ▸ trivial)
    rw [← hempty.members, htracks.site]
    rfl

end Simulation

end Switchboard
