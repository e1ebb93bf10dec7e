import Mathlib.Data.List.Nodup
import Switchboard.Proofs.Cluster.Invariant

/-!
# No pool is lost

Between reconciliations every pool that has ever been opened is in exactly one of three places: in
the manager, in the background where it is drained and closed, or with the party that closes the
manager.  When that party has returned, no pool is left in the manager, nothing is left of the pools
that it had, and none is opened again.

## Main definitions

- `Upkeep.Site.InPlace` — the manager has the pool under its own address
- `Upkeep.Site.Placed` — the pool is in exactly one of three places
- `Upkeep.Served` — what becomes of a pool that is taken out of the manager
- `Upkeep.Spent` — nothing is left of a pool
- `Upkeep.Settled` — nothing has been done to the manager, and no pool has come to be

## Main statements

- `Upkeep.Traced.step` — each pool taken out of the manager has its turn
- `Upkeep.Sound.settled_of_closed` — nothing changes once the manager's closing has returned
- `Upkeep.no_pool_is_lost` — where the pools are
-/

namespace Switchboard

namespace Upkeep

/-- The manager has the pool under its own address. -/
def Site.InPlace (c : Site) (p : ℕ) : Prop :=
  ∃ a, c.home? p = some a ∧ c.manager.pool? a = some p

/-- The pool is in exactly one of three places: in the manager, in the background, where it has been
handed to once, or with the party that closes the manager. -/
def Site.Placed (c : Site) (p : ℕ) : Prop :=
  (c.InPlace p ∧ p ∉ c.drained ∧ p ∉ c.taken) ∨
    (¬c.InPlace p ∧ c.drained.count p = 1 ∧ p ∉ c.taken) ∨
    (¬c.InPlace p ∧ p ∉ c.drained ∧ c.taken.count p = 1)

/-- No pool has been opened, taken in, let go of or handed on, and nothing else about the manager is
different. -/
structure Settled (c c' : Site) : Prop where
  manager : c'.manager = c.manager
  pools : c'.pools.length = c.pools.length
  drained : c'.drained = c.drained
  taken : c'.taken = c.taken
  kept : PoolsKept c c'

theorem Settled.refl (c : Site) : Settled c c :=
  ⟨rfl, rfl, rfl, rfl, .of_pools_eq rfl⟩

theorem Settled.trans {c c' c'' : Site} (h : Settled c c') (h' : Settled c' c'') :
    Settled c c'' :=
  ⟨h'.manager.trans h.manager, h'.pools.trans h.pools, h'.drained.trans h.drained,
    h'.taken.trans h.taken, h.kept.trans h'.kept⟩

namespace Transition

/-- The moment at which the pools are taken out of the manager to be closed. -/
def Takes (x : Transition) (k : ℕ) : Prop :=
  x.before.parties k = .closing .queued ∧
    ∃ rest begun, x.after.parties k = .closing (.sweeping rest begun)

/-- Somebody who uses the pool begins to close it, and not whoever closes the manager. -/
def Marks (x : Transition) (p : ℕ) : Prop :=
  x.action = .use p ∧ ∃ t t', x.before.site.pools[p]? = some t ∧ t.site.pool.closed = false ∧
    x.after.site.pools[p]? = some t' ∧ t'.site.pool.closed = true

end Transition

namespace Sound

variable {s s' : State}

/-! ### Counting -/

theorem inPlace_iff (hs : Sound s) {p : ℕ} :
    s.site.InPlace p ↔ p ∈ s.site.manager.pools.map (·.2) := by
  rw [List.mem_map]
  constructor
  · rintro ⟨a, -, ha⟩
    exact ⟨(a, p), (Manager.pool?_eq_some_iff hs.sorted).mp ha, rfl⟩
  · rintro ⟨⟨a, q⟩, he, rfl⟩
    exact ⟨a, hs.home _ he, (Manager.pool?_eq_some_iff hs.sorted).mpr he⟩

/-- Some party, if any, has the pools in hand that nobody else knows. -/
theorem exists_accounts (hs : Sound s) : ∃ k, s.site.Accounts (s.parties k).hand := by
  by_cases h : ∃ k, (s.parties k).Busy
  · obtain ⟨k, hk⟩ := h
    refine ⟨k, hs.accounts k fun j hj => Party.hand_eq_nil fun hbusy => ?_⟩
    exact hj (hs.eq_of_holds hbusy.holds hk.holds)
  · exact ⟨0, hs.accounts 0 fun j _ => Party.hand_eq_nil fun hbusy => h ⟨j, hbusy⟩⟩

theorem count_le_one (hs : Sound s) (p : ℕ) :
    (s.site.manager.pools.map (·.2)).count p + s.site.drained.count p + s.site.taken.count p ≤
      1 := by
  obtain ⟨k, hacc⟩ := hs.exists_accounts
  have hp := hacc p
  split at hp <;> omega

theorem nodup_drained_taken (hs : Sound s) : (s.site.drained ++ s.site.taken).Nodup := by
  rw [List.nodup_iff_count_le_one]
  intro p
  have hp := hs.count_le_one p
  rw [List.count_append]
  omega

theorem not_inPlace (hs : Sound s) {p : ℕ} (hp : p ∈ s.site.drained ++ s.site.taken) :
    ¬s.site.InPlace p := by
  rw [hs.inPlace_iff, ← List.count_pos_iff]
  have hpos := List.count_pos_iff.mpr hp
  have hle := hs.count_le_one p
  rw [List.count_append] at hpos
  omega

/-- While nobody has pools in hand, every pool is in one of the three places. -/
theorem placed (hs : Sound s) (hidle : ∀ k, ¬(s.parties k).Busy) {p : ℕ}
    (hp : p < s.site.pools.length) : s.site.Placed p := by
  have hacc := hs.accounts 0 (fun j _ => Party.hand_eq_nil (hidle j)) p
  rw [Party.hand_eq_nil (hidle 0), List.count_nil, if_pos hp] at hacc
  simp only [Site.Placed, hs.inPlace_iff, ← List.count_pos_iff]
  omega

/-! ### Pools that have been taken out -/

theorem taken_subset (hs : Sound s) {a : Action} (h : Step s a s') :
    s.site.taken ⊆ s'.site.taken := by
  obtain ⟨k, c, y, rfl, hmoved⟩ := hs.moved h
  rw [State.move_site]
  cases hrest : y.rest? with
  | none => rw [(hmoved.untaken hrest).1]; exact fun _ => id
  | some rest =>
    rcases hmoved.sweeps rest hrest with ⟨-, -, -, -, htaken⟩ | ⟨hcalm, -⟩
    · rw [htaken]
      exact List.subset_append_left ..
    · rw [hcalm.taken]
      exact fun _ => id

/-- The pools that are in the manager when they are taken out are those taken. -/
theorem taken_of_takes {a : Action} (h : Step s a s') {k : ℕ}
    (htakes : Transition.Takes ⟨s, a, s'⟩ k) {e : Address × ℕ}
    (he : e ∈ s.site.manager.pools) : e.2 ∈ s'.site.taken := by
  obtain ⟨hbefore, rest, begun, hafter⟩ := htakes
  have hmem : e.2 ∈ s.site.taken ++ s.site.manager.takeAll.1 :=
    List.mem_append_right _ (List.mem_map_of_mem he)
  cases h with
  | @call j call c y idle begins =>
    by_cases hk : k = j
    · subst hk
      rw [idle] at hbefore
      cases hbefore
    · rw [State.move_of_ne hk, hbefore] at hafter
      cases hafter
  | @proceed j c y step =>
    by_cases hk : k = j
    · subst hk
      rw [State.move_self] at hafter
      rw [hbefore, hafter] at step
      cases step with
      | closing step =>
        cases step with
        | taken => exact hmem
    · rw [State.move_of_ne hk, hbefore] at hafter
      cases hafter
  | publish | use =>
    rw [State.withSite, hbefore] at hafter
    cases hafter

theorem mem_taken_of_run {config : ClientConfig} {run : List Transition}
    (h : Run (Upkeep.start config) run s) {x : Transition} (hx : x ∈ run) {k : ℕ}
    (htakes : x.Takes k)
    {e : Address × ℕ} (he : e ∈ x.before.site.manager.pools) : e.2 ∈ s.site.taken := by
  induction h with
  | nil => cases hx
  | snoc init last ih =>
    rcases List.mem_append.mp hx with hx | hx
    · exact (of_run init).taken_subset last (ih hx)
    · rw [List.mem_singleton] at hx
      subst hx
      exact taken_of_takes last htakes he

end Sound

/-! ### The turns of the pools -/

/-- What the party does next that closes the pools, if anything. -/
inductive Sweeps (s s' : State) (k : ℕ) : List ℕ → List (ℕ × ℕ) → Prop
  | stays {rest begun} (next : s'.parties k = .closing (.sweeping rest begun)) :
    Sweeps s s' k rest begun
  | begins {p j rest begun}
    (next : s'.parties k = .closing (.sweeping rest (begun ++ [(p, j)]))) :
    Sweeps s s' k (p :: rest) begun
  | passes {p t rest begun} (found : s.site.pools[p]? = some t)
    (again : t.site.pool.closed = true) (next : s'.parties k = .closing (.sweeping rest begun)) :
    Sweeps s s' k (p :: rest) begun
  | ended {p j t rest front back} (found : s.site.pools[p]? = some t)
    (returned : t.parties j = .closed)
    (next : s'.parties k = .closing (.sweeping rest (front ++ back))) :
    Sweeps s s' k rest (front ++ (p, j) :: back)
  | closed : Sweeps s s' k [] []

theorem Step.sweeps {s s' : State} {a : Action} (h : Step s a s') {k : ℕ} {rest : List ℕ}
    {begun : List (ℕ × ℕ)} (turn : s.parties k = .closing (.sweeping rest begun)) :
    Sweeps s s' k rest begun := by
  cases h with
  | @call j call c y idle begins =>
    have hj : k ≠ j := by
      rintro rfl
      rw [idle] at turn
      cases turn
    exact .stays ((State.move_of_ne hj ..).trans turn)
  | @proceed j c y step =>
    by_cases hj : k = j
    · subst hj
      rw [turn] at step
      cases step with
      | closed => exact .closed
      | closing step =>
        cases step with
        | begins => exact .begins (State.move_self ..)
        | passes found again => exact .passes found again (State.move_self ..)
        | ended front back found returned => exact .ended found returned (State.move_self ..)
    · exact .stays ((State.move_of_ne hj ..).trans turn)
  | publish | use => exact .stays turn

/-- Who has begun to close a pool. -/
theorem Step.closed_cases {s s' : State} {a : Action} (h : Step s a s') {p : ℕ}
    {t' : Stocking.State} (found : s'.site.pools[p]? = some t')
    (closed : t'.site.pool.closed = true) :
    (∃ t, s.site.pools[p]? = some t ∧ t.site.pool.closed = true) ∨
      Transition.Marks ⟨s, a, s'⟩ p ∨
      ∃ k rest begun begun', s.parties k = .closing (.sweeping (p :: rest) begun) ∧
        s'.parties k = .closing (.sweeping rest begun') := by
  cases h with
  | call idle begins =>
    refine .inl ⟨t', ?_, closed⟩
    cases begins <;> exact found
  | @proceed k c y step =>
    generalize hx : s.parties k = x at step
    cases step with
    | applying step =>
      cases step with
      | opened stages =>
        by_cases hp : p < s.site.pools.length
        · exact .inl ⟨t', (List.getElem?_append_left hp).symm.trans found, closed⟩
        · -- nobody has closed a pool that has just come to be
          rw [State.move_site, List.getElem?_append_right (Nat.le_of_not_lt hp)] at found
          rw [List.mem_singleton.mp (List.mem_of_getElem? found)] at closed
          cases closed
      | _ => exact .inl ⟨t', found, closed⟩
    | closing step =>
      cases step with
      | @begins q j t rest begun =>
        by_cases hp : p = q
        · subst hp
          exact .inr (.inr ⟨k, rest, begun, _, hx, State.move_self ..⟩)
        · rw [State.move_site, List.getElem?_set_ne (Ne.symm hp)] at found
          exact .inl ⟨t', found, closed⟩
      | _ => exact .inl ⟨t', found, closed⟩
    | _ => exact .inl ⟨t', found, closed⟩
  | publish => exact .inl ⟨t', found, closed⟩
  | @use q t u held step =>
    by_cases hp : p = q
    · subst hp
      cases hopen : t.site.pool.closed with
      | true => exact .inl ⟨t, held, hopen⟩
      | false => exact .inr (.inl ⟨rfl, t, t', held, hopen, found, closed⟩)
    · rw [State.withSite, List.getElem?_set_ne (Ne.symm hp)] at found
      exact .inl ⟨t', found, closed⟩

/-- Whoever has closed the pool has returned. -/
def Site.IsClosed (c : Site) (p : ℕ) : Prop :=
  ∃ t j, c.pools[p]? = some t ∧ t.parties j = .closed

theorem Site.IsClosed.of_kept {c c' : Site} {p : ℕ} (h : c.IsClosed p) (hkept : PoolsKept c c') :
    c'.IsClosed p := by
  obtain ⟨t, j, ht, hj⟩ := h
  obtain ⟨t', ht', hrun⟩ := hkept p t ht
  exact ⟨t', j, ht', hrun.parties_closed hj⟩

/-- What becomes of a pool that has been taken out of the manager. -/
inductive Served (run : List Transition) (s : State) (p : ℕ) : Prop
  /-- it is still to be closed -/
  | waits {k rest begun} (turn : s.parties k = .closing (.sweeping rest begun)) (mem : p ∈ rest)
  /-- the end of its closing is waited for -/
  | begun {k rest begun j} (turn : s.parties k = .closing (.sweeping rest begun))
    (mem : (p, j) ∈ begun)
  | closed (closed : s.site.IsClosed p)
  /-- somebody else had begun to close it -/
  | marked {x} (mem : x ∈ run) (marks : x.Marks p)

/-- Each pool taken out of the manager has its turn, and nobody else closes a pool unseen. -/
structure Traced (run : List Transition) (s : State) : Prop where
  closed : ∀ (p : ℕ) t, s.site.pools[p]? = some t → t.site.pool.closed = true →
    (∃ x ∈ run, x.Marks p) ∨
      p ∈ s.site.taken ∧ ∀ k rest, (s.parties k).rest? = some rest → p ∉ rest
  served : ∀ p ∈ s.site.taken, Served run s p

/-- A party with pools left to close is still closing them. -/
theorem Party.eq_sweeping {x : Party} {rest : List ℕ} {p : ℕ} (h : x.rest? = some rest)
    (hp : p ∈ rest) : ∃ begun, x = .closing (.sweeping rest begun) := by
  unfold Party.rest? at h
  split at h
  · next begun =>
    cases h
    exact ⟨begun, rfl⟩
  · cases h
    cases hp
  · cases h

namespace Traced

variable {run : List Transition} {s s' : State} {a : Action} {p : ℕ}

/-- A pool whose turn has come does not get another one. -/
theorem not_mem_rest (hs : Sound s) (last : Step s a s') (htaken : p ∈ s.site.taken)
    (hnever : ∀ k rest, (s.parties k).rest? = some rest → p ∉ rest) (k : ℕ) (rest : List ℕ)
    (hrest : (s'.parties k).rest? = some rest) : p ∉ rest := by
  obtain ⟨j, c, y, rfl, hmoved⟩ := hs.moved last
  by_cases hk : k = j
  · subst hk
    rw [State.move_self] at hrest
    rcases hmoved.sweeps rest hrest with ⟨hfirst, hcloses, -⟩ | ⟨-, before, hbefore, hsuffix⟩
    · rw [hs.taken_eq_nil hcloses hfirst] at htaken
      cases htaken
    · exact fun hmem => hnever k before hbefore (hsuffix.subset hmem)
  · rw [State.move_of_ne hk] at hrest
    exact hnever k rest hrest

/-- Whoever closes a pool is known, or it is the turn of the pool. -/
theorem closed_step (h : Traced run s) (hs : Sound s) (last : Step s a s') {t : Stocking.State}
    (found : s'.site.pools[p]? = some t) (closed : t.site.pool.closed = true) :
    (∃ x ∈ run ++ [⟨s, a, s'⟩], x.Marks p) ∨
      p ∈ s'.site.taken ∧ ∀ k rest, (s'.parties k).rest? = some rest → p ∉ rest := by
  rcases last.closed_cases found closed with ⟨t, hfound, hclosed⟩ | hmarks |
    ⟨k, rest, begun, begun', hbefore, hafter⟩
  · rcases h.closed p t hfound hclosed with ⟨x, hx, hmarks⟩ | ⟨htaken, hnever⟩
    · exact .inl ⟨x, List.mem_append_left _ hx, hmarks⟩
    · exact .inr ⟨hs.taken_subset last htaken, not_mem_rest hs last htaken hnever⟩
  · exact .inl ⟨_, List.mem_append_right _ (List.mem_singleton_self _), hmarks⟩
  · -- it has had its turn just now, and no pool has been taken out twice
    have hrest : (s.parties k).rest? = some (p :: rest) := by
      rw [hbefore]
      rfl
    have hsuffix := (hs.ended k _ hrest).2.2
    have htaken : p ∈ s.site.taken := hsuffix.subset List.mem_cons_self
    have hnodup : (p :: rest).Nodup :=
      hsuffix.sublist.nodup (List.nodup_append.mp hs.nodup_drained_taken).2.1
    refine .inr ⟨hs.taken_subset last htaken, fun j rest' hrest' => ?_⟩
    have hnext : (s'.parties k).rest? = some rest := by
      rw [hafter]
      rfl
    obtain rfl := (hs.step last).closers j k (Party.closes_of_rest? hrest')
      (Party.closes_of_rest? hnext)
    rw [hnext] at hrest'
    cases hrest'
    exact (List.nodup_cons.mp hnodup).1

theorem served_step (h : Traced run s) (hs : Sound s) (last : Step s a s')
    (hp : Served run s p) : Served (run ++ [⟨s, a, s'⟩]) s' p := by
  obtain ⟨j, c, y, hs', hmoved⟩ := hs.moved last
  have hkept : PoolsKept s.site s'.site := hs' ▸ hmoved.kept
  cases hp with
  | marked mem marks => exact .marked (List.mem_append_left _ mem) marks
  | closed closed => exact .closed (closed.of_kept hkept)
  | @waits k rest begun turn mem =>
    cases last.sweeps turn with
    | stays next => exact .waits next mem
    | ended found returned next => exact .waits next mem
    | closed => cases mem
    | begins next =>
      rcases List.mem_cons.mp mem with rfl | mem
      · exact .begun next (List.mem_append_right _ (List.mem_singleton_self _))
      · exact .waits next mem
    | passes found again next =>
      rcases List.mem_cons.mp mem with rfl | hmem
      · -- it is closed, but not because it was its turn
        rcases h.closed p _ found again with ⟨x, hx, hmarks⟩ | ⟨-, hnever⟩
        · exact .marked (List.mem_append_left _ hx) hmarks
        · exact absurd mem (hnever k _ (by rw [turn]; rfl))
      · exact .waits next hmem
  | @begun k rest begun i turn mem =>
    cases last.sweeps turn with
    | stays next => exact .begun next mem
    | begins next => exact .begun next (List.mem_append_left _ mem)
    | passes found again next => exact .begun next mem
    | closed => cases mem
    | ended found returned next =>
      rcases List.mem_append.mp mem with hfront | hback
      · exact .begun next (List.mem_append_left _ hfront)
      · rcases List.mem_cons.mp hback with heq | hback
        · cases heq
          exact .closed (Site.IsClosed.of_kept ⟨_, _, found, returned⟩ hkept)
        · exact .begun next (List.mem_append_right _ hback)

theorem step (h : Traced run s) (hs : Sound s) (last : Step s a s') :
    Traced (run ++ [⟨s, a, s'⟩]) s' := by
  refine ⟨fun p t => h.closed_step hs last, fun p hp => ?_⟩
  by_cases htaken : p ∈ s.site.taken
  · exact h.served_step hs last (h.served p htaken)
  · -- it has been taken out just now
    obtain ⟨k, c, y, rfl, hmoved⟩ := hs.moved last
    rw [State.move_site] at hp
    cases hrest : y.rest? with
    | none => exact absurd ((hmoved.untaken hrest).1 ▸ hp) htaken
    | some rest =>
      rcases hmoved.sweeps rest hrest with ⟨-, -, -, -, hall⟩ | ⟨hcalm, -⟩
      · rw [hall] at hp
        have hmem := (List.mem_append.mp hp).resolve_left htaken
        obtain ⟨begun, rfl⟩ := Party.eq_sweeping hrest hmem
        exact .waits (State.move_self ..) hmem
      · exact absurd (hcalm.taken ▸ hp) htaken

theorem of_run {config : ClientConfig} (h : Run (Upkeep.start config) run s) : Traced run s := by
  induction h with
  | nil => exact ⟨nofun, nofun⟩
  | snoc init last ih => exact ih.step (.of_run init) last

end Traced

namespace Sound

variable {s s' : State}

/-! ### After the end -/

theorem over_of_closed (hs : Sound s) {k : ℕ} (hk : s.parties k = .closed) :
    s.site.manager.pools = [] ∧ ∀ j, ¬(s.parties j).Busy := by
  obtain ⟨hnone, hidle, -⟩ := hs.ended k [] (by rw [hk]; rfl)
  exact ⟨hnone, hidle⟩

/-- A move of anybody else changes nothing about the manager and its pools. -/
theorem settled_of_moved (hs : Sound s) {k : ℕ} (hk : s.parties k = .closed) {j : ℕ}
    (hj : j ≠ k) {c : Site} {y : Party} (h : Moved s.site j (s.parties j) c y) :
    Settled s.site c := by
  have hcloses : (s.parties k).Closes := by
    rw [hk]
    trivial
  have hclosed := (hs.party k).closed hcloses
  obtain ⟨hcalm, -⟩ := h.rests hclosed ((hs.over_of_closed hk).2 j)
    fun hjc => hj (hs.closers j k hjc hcloses)
  refine ⟨?_, hcalm.pools, hcalm.drained, hcalm.taken, h.kept⟩
  rw [hcalm.manager, h.closed hclosed, ← hclosed]

theorem settled_of_step (hs : Sound s) {k : ℕ} (hk : s.parties k = .closed) {a : Action}
    (h : Step s a s') : s'.parties k = .closed ∧ Settled s.site s'.site := by
  cases h with
  | @call j call c y idle begins =>
    have hj : j ≠ k := by
      rintro rfl
      rw [idle] at hk
      cases hk
    rw [State.move_of_ne (Ne.symm hj)]
    have hmoved := Moved.of_begins (k := j) hs.topology begins
    rw [← idle] at hmoved
    exact ⟨hk, hs.settled_of_moved hk hj hmoved⟩
  | @proceed j c y step =>
    have hj : j ≠ k := by
      rintro rfl
      rw [hk] at step
      cases step
    rw [State.move_of_ne (Ne.symm hj)]
    exact ⟨hk, hs.settled_of_moved hk hj (.of_step hs.topology (hs.party j) step)⟩
  | publish => exact ⟨hk, rfl, rfl, rfl, rfl, .of_pools_eq rfl⟩
  | use found step =>
    exact ⟨hk, rfl, List.length_set .., rfl, rfl, .set found (Stocking.Run.nil.snoc step)⟩

/-- Nothing changes once the manager's closing has returned. -/
theorem settled_of_closed (hs : Sound s) {k : ℕ} (hk : s.parties k = .closed)
    {later : List Transition} (h : Run s later s') :
    s'.parties k = .closed ∧ Settled s.site s'.site := by
  induction h with
  | nil => exact ⟨hk, .refl _⟩
  | snoc init last ih =>
    obtain ⟨hclosed, hsettled⟩ := ih
    obtain ⟨hclosed', hsettled'⟩ := (hs.run init).settled_of_step hclosed last
    exact ⟨hclosed', hsettled.trans hsettled'⟩

end Sound

/-! ### What is left of a pool -/

/-- Nothing is left of the pool: it holds nothing and never will, and whatever it has held is out of
service. -/
structure Spent (run : List Transition) (p : ℕ) (t : Stocking.State) : Prop where
  emptied : Stocking.Emptied t
  ended : ∀ x ∈ run, ∀ u, x.before.site.pools[p]? = some u →
    ∀ n ∈ u.site.pool.members, (t.site.stage n).isEnding = true

/-- The pool is closed, and nothing is left of it once whoever has closed it has returned.  That has
happened unless it is somebody else than the manager. -/
def Disposed (run : List Transition) (s : State) (p : ℕ) : Prop :=
  ∃ t, s.site.pools[p]? = some t ∧ t.site.pool.closed = true ∧
    (∀ j, t.parties j = .closed → Spent run p t) ∧
    ((∃ j, t.parties j = .closed) ∨ ∃ x ∈ run, x.Marks p)

section

variable {config : ClientConfig} {run : List Transition} {s : State} {p k : ℕ}

theorem Run.kept_of_mem (h : Run (start config) run s) {x : Transition} (hx : x ∈ run) :
    Sound x.before ∧ PoolsKept x.before.site s.site ∧ PoolsKept x.after.site s.site := by
  induction h with
  | nil => cases hx
  | @snoc run s a s' init last ih =>
    obtain ⟨j, c, y, hs', hmoved⟩ := (Sound.of_run init).moved last
    have hkept : PoolsKept s.site s'.site := hs' ▸ hmoved.kept
    rcases List.mem_append.mp hx with hx | hx
    · obtain ⟨hsound, hbefore, hafter⟩ := ih hx
      exact ⟨hsound, hbefore.trans hkept, hafter.trans hkept⟩
    · rw [List.mem_singleton.mp hx]
      exact ⟨.of_run init, hkept, .of_pools_eq rfl⟩

/-- Whoever has closed a pool and has returned leaves nothing of it. -/
theorem Run.spent (h : Run (start config) run s) {t : Stocking.State}
    (found : s.site.pools[p]? = some t) {j : ℕ} (returned : t.parties j = .closed) :
    Spent run p t := by
  constructor
  · obtain ⟨address, config, stages, hrun⟩ := (Sound.of_run h).pools p t found
    exact hrun.shutting.emptied j (returned ▸ trivial)
  · intro x hx u hu n hn
    obtain ⟨hsound, hbefore, -⟩ := h.kept_of_mem hx
    obtain ⟨t', ht', hlater⟩ := hbefore p u hu
    rw [found] at ht'
    cases ht'
    -- who closes the pool ends the life of all that it holds
    obtain ⟨address, config, stages, hrun⟩ := hsound.pools p u hu
    have hdoomed := hrun.doomed hlater (hrun.sound.site.known n hn) (.held hn)
    exact hdoomed.isEnding (hrun.trans hlater).shutting returned

/-- When the manager's closing has returned, each pool taken out of it has been disposed of. -/
theorem Run.disposed (h : Run (start config) run s) (hk : s.parties k = .closed)
    (hp : p ∈ s.site.taken) : Disposed run s p := by
  have hs := Sound.of_run h
  -- nobody closes the manager any longer
  have hover : ∀ j rest begun, s.parties j ≠ .closing (.sweeping rest begun) := by
    intro j rest begun hj
    obtain rfl := hs.closers j k (hj ▸ trivial) (hk ▸ trivial)
    rw [hk] at hj
    cases hj
  cases (Traced.of_run h).served p hp with
  | waits turn | begun turn => exact (hover _ _ _ turn).elim
  | closed closed =>
    obtain ⟨t, j, found, returned⟩ := closed
    have hspent := h.spent found returned
    exact ⟨t, found, hspent.emptied.closed, fun _ => h.spent found, .inl ⟨j, returned⟩⟩
  | @marked x mem marks =>
    have ⟨_, _, t, _, _, hafter, hclosed⟩ := marks
    obtain ⟨t', found, hlater⟩ := (h.kept_of_mem mem).2.2 p t hafter
    exact ⟨t', found, hlater.lasts.closed hclosed, fun _ => h.spent found, .inr ⟨x, mem, marks⟩⟩

end

/-- Nobody is handed a pool twice, and no pool is handed on while it is in place.  While nobody has
pools to open or to hand on, each pool ever opened is in exactly one of three places.  Each of those
taken out to be closed has its turn and is waited for, unless somebody else has begun to close it.
Once closing the manager has returned, the manager has no pools, those that it had when they were
taken out are closed and nothing is left of them, and nothing that happens later opens a pool or
changes the manager. -/
theorem no_pool_is_lost {config : ClientConfig} {run : List Transition} {s : State}
    (h : Run (start config) run s) :
    ((s.site.drained ++ s.site.taken).Nodup ∧
      ∀ p ∈ s.site.drained ++ s.site.taken, ¬s.site.InPlace p) ∧
    ((∀ k, ¬(s.parties k).Busy) → ∀ p < s.site.pools.length, s.site.Placed p) ∧
    (∀ p ∈ s.site.taken, Served run s p) ∧
    ∀ k, s.parties k = .closed →
      s.site.manager.pools = [] ∧
      (∀ x ∈ run, x.Takes k → ∀ e ∈ x.before.site.manager.pools, Disposed run s e.2) ∧
      ∀ later s', Run s later s' → Settled s.site s'.site := by
  have hs := Sound.of_run h
  refine ⟨⟨hs.nodup_drained_taken, fun p => hs.not_inPlace⟩, fun hidle p => hs.placed hidle,
    (Traced.of_run h).served, fun k hk => ?_⟩
  refine ⟨(hs.over_of_closed hk).1, fun x hx htakes e he => ?_, fun later s' hlater => ?_⟩
  · exact h.disposed hk (Sound.mem_taken_of_run h hx htakes he)
  · exact (hs.settled_of_closed hk hlater).2

/-- Somebody closes the manager while another party opens a pool: the pool is put in its place with
a connection, and then it is taken out and closed. -/
theorem no_pool_is_lost_closed_meanwhile :
    ∃ run s, Run (start { connections := 1 }) run s ∧ s.parties 1 = .closed ∧
      s.site.pools.length = 1 ∧ s.site.manager.pools = [] ∧ s.site.Placed 0 ∧
      ∃ t, s.site.pools[0]? = some t ∧ t.site.pool.members = [] ∧ t.site.stage 0 = .closed ∧
        Spent run 0 t := by
  have nothing : Run (start { connections := 1 }) [] (start { connections := 1 }) := .nil
  have called := nothing.snoc (.call (k := 0) rfl
    (.reconcile (t := .ofList [⟨"a", 3301⟩] 1) (Topology.isSet_ofList ..)))
  have queued := called.snoc (.of_party (k := 0) rfl (.applying .requested))
  have begun := queued.snoc (.of_party (k := 0) rfl (.applying (.begun rfl rfl)))
  have closing := begun.snoc (.call (k := 1) rfl (.close rfl))
  have waits := closing.snoc (.of_party (k := 1) rfl (.closing .requested))
  have opened := waits.snoc (.of_party (k := 0) rfl (.applying (.opened [] rfl)))
  have asks := opened.snoc (.use (p := 0) rfl (.of_party (k := 0) rfl .asks))
  have tries := asks.snoc
    (.use (p := 0) rfl (.of_party (k := 0) rfl (.replenishing (.begun rfl rfl))))
  have succeeds := tries.snoc
    (.use (p := 0) rfl (.of_party (k := 0) rfl (.replenishing (.opened [] []))))
  have taken := succeeds.snoc
    (.use (p := 0) rfl (.of_party (k := 0) rfl (.replenishing (.installed (by decide)))))
  have filled := taken.snoc (.use (p := 0) rfl (.of_party (k := 0) rfl .replenished))
  have installed := filled.snoc (.of_party (k := 0) rfl (.applying .installed))
  have answered := installed.snoc (.of_party (k := 0) rfl .answered)
  have swept := answered.snoc (.of_party (k := 1) rfl (.closing (.taken rfl)))
  have marked := swept.snoc (.of_party (k := 1) rfl (.closing (.begins (k := 1) rfl rfl rfl)))
  have told := marked.snoc (.use (p := 0) rfl (.of_party (k := 1) rfl (.closing .stopped)))
  have asked := told.snoc (.use (p := 0) rfl (.of_party (k := 1) rfl (.closing .requested)))
  have emptied := asked.snoc (.use (p := 0) rfl (.of_party (k := 1) rfl (.closing (.taken rfl))))
  have closes := emptied.snoc
    (.use (p := 0) rfl (.of_party (k := 1) rfl (.closing (.closes rfl))))
  have finished := closes.snoc
    (.use (p := 0) rfl (.of_party (k := 1) rfl (.closing (.finished [] []))))
  have shut := finished.snoc (.use (p := 0) rfl (.of_party (k := 1) rfl .closed))
  have ended := shut.snoc (.of_party (k := 1) rfl (.closing (.ended [] [] rfl rfl)))
  have closed := ended.snoc (.of_party (k := 1) rfl .closed)
  obtain ⟨-, hplaced, -, hover⟩ := no_pool_is_lost closed
  obtain ⟨hnone, hdisposed, -⟩ := hover 1 rfl
  obtain ⟨t, found, -, hspent, -⟩ := hdisposed ⟨_, _, _⟩ (by
    iterate 9 apply List.mem_append_left
    exact List.mem_append_right _ (List.mem_singleton_self _)) ⟨rfl, _, _, rfl⟩ (⟨"a", 3301⟩, 0)
    (List.mem_singleton_self _)
  cases found
  refine ⟨_, _, closed, rfl, rfl, hnone, hplaced ?_ 0 (by decide), _, rfl, ?_, rfl, hspent 1 rfl⟩
  · intro k
    match k with
    | 0 | 1 | k + 2 => exact id
  · exact (hspent 1 rfl).emptied.members

end Upkeep

end Switchboard
