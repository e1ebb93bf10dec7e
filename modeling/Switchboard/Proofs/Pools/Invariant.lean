import Mathlib.Data.List.GetD
import Mathlib.Data.List.Nodup
import Mathlib.Order.Nat
import Switchboard.Proofs.Pools.Steps

/-!
# What a pool holds

A pool never holds more connections than it is meant to, and none of them twice.  Connections are
counted before others are opened and let go of after that, while their lives go on underneath; what
saves the bound is that no life goes on that is over, and that nobody else touches the pool
meanwhile.

## Main definitions

- `Stocking.Site.Sound` — the bound, and that connections are told apart
- `Stocking.Quiet` — a change that those need not care about who open connections
- `Stocking.Opening` — what holds from counting the connections until others are taken in
- `Stocking.Replenishment` — what opening the missing connections has done
- `Stocking.Invariant` — the invariant of a run
- `Stocking.Lasts` — what no step takes back

## Main statements

- `Stocking.Opening.install` — taking in what has been opened keeps the bound
- `Stocking.Invariant.step` — what every step preserves
- `Stocking.Run.sound` — the invariant holds in every state of a run
- `Stocking.Step.lasts` — what every step leaves as it was
- `Stocking.Run.attends` — whoever closes connections knows how far they are
-/

namespace Switchboard

/-! ### Lives of connections -/

/-- However the life of a connection in service goes on, it is being ended. -/
theorem Stage.Next.isEnding_eq {s s' : Stage} (h : Next s s') : s'.isEnding = true := by
  cases h <;> rfl

/-- The connection is being closed, or it has been. -/
def Stage.Closes (s : Stage) : Prop :=
  s = .closing ∨ s = .closed

theorem Stage.Closes.isEnding {s : Stage} (h : s.Closes) : s.isEnding = true := by
  rcases h with rfl | rfl <;> rfl

/-- A connection that is being closed does not fail. -/
theorem Stage.Next.closes_of_closes {s s' : Stage} (h : Next s s') (hs : s.Closes) : s'.Closes := by
  cases h with
  | fails serves | closes serves =>
    rw [hs.isEnding] at serves
    cases serves
  | ends => exact .inr rfl

namespace Stocking

/-! ### Sites -/

/-- The pool holds no more connections than it is meant to, none twice, and only such as exist.  It
has not been told to stop but by those who close it or let go of it. -/
structure Site.Sound (c : Site) : Prop where
  le : c.pool.members.length ≤ c.pool.config.connections
  nodup : c.pool.members.Nodup
  known : ∀ n ∈ c.pool.members, n < c.stages.length
  stops : c.pool.stopping = true → c.pool.closed = true ∨ c.abandoned = true

/-- A change that those need not care about who open connections: the pool holds what it held, and
lives that are over stay so. -/
structure Quiet (c c' : Site) : Prop where
  members : c'.pool.members = c.pool.members
  config : c'.pool.config = c.pool.config
  length : c.stages.length ≤ c'.stages.length
  ended : ∀ n < c.stages.length, (c.stage n).isTerminal = true → (c'.stage n).isTerminal = true

variable {c c' c'' : Site} {m n : ℕ}

theorem Site.live_sublist : c.live.Sublist c.pool.members :=
  List.filter_sublist

theorem Site.stage_setStage (h : n < c.stages.length) (s : Stage) :
    (c.setStage n s).stage m = if m = n then s else c.stage m := by
  simp only [stage, setStage, List.getD_eq_getElem?_getD, List.getElem?_set]
  by_cases hmn : n = m
  · subst hmn
    rw [if_pos rfl, if_pos rfl, if_pos h, Option.getD_some]
  · rw [if_neg hmn, if_neg (Ne.symm hmn)]

/-- The lives of other connections go on as they were. -/
theorem Site.stage_append (h : n < c.stages.length) (s : Stage) :
    { c with stages := c.stages ++ [s] }.stage n = c.stage n :=
  List.getD_append _ _ _ _ h

namespace Quiet

theorem of_stages_eq (members : c'.pool.members = c.pool.members)
    (config : c'.pool.config = c.pool.config) (stages : c'.stages = c.stages) : Quiet c c' := by
  refine ⟨members, config, stages ▸ le_rfl, fun n _ h => ?_⟩
  rwa [Site.stage, stages]

theorem refl (c : Site) : Quiet c c :=
  .of_stages_eq rfl rfl rfl

theorem trans (h : Quiet c c') (h' : Quiet c' c'') : Quiet c c'' where
  members := h'.members.trans h.members
  config := h'.config.trans h.config
  length := h.length.trans h'.length
  ended n hn ht := h'.ended n (hn.trans_le h.length) (h.ended n hn ht)

theorem setStage {s : Stage} (hs : (c.stage n).isTerminal = true → s.isTerminal = true) :
    Quiet c (c.setStage n s) := by
  refine ⟨rfl, rfl, (List.length_set ..).ge, fun m hm h => ?_⟩
  by_cases hn : n < c.stages.length
  · rw [Site.stage_setStage hn]
    split
    · next hmn => exact hs (hmn ▸ h)
    · exact h
  · rwa [Site.stage, Site.setStage, List.set_eq_of_length_le (Nat.le_of_not_lt hn)]

theorem append (c : Site) (s : Stage) : Quiet c { c with stages := c.stages ++ [s] } := by
  refine ⟨rfl, rfl, ?_, fun n hn h => ?_⟩
  · rw [List.length_append]
    exact Nat.le_add_right ..
  · rwa [Site.stage_append hn]

/-- The connections that count become fewer as time goes on. -/
theorem live_eq (h : Quiet c c') (hc : c.Sound) :
    c'.live = c.live.filter fun n => !(c'.stage n).isTerminal := by
  rw [Site.live, h.members, Site.live, List.filter_filter]
  refine List.filter_congr fun n hn => ?_
  -- a life that was over when the connections were counted still is
  cases hover : (c.stage n).isTerminal with
  | false => rw [Bool.not_false, Bool.and_true]
  | true => rw [h.ended n (hc.known n hn) hover, Bool.not_true, Bool.false_and]

theorem length_live_le (h : Quiet c c') (hc : c.Sound) : c'.live.length ≤ c.live.length := by
  rw [h.live_eq hc]
  exact List.length_filter_le ..

end Quiet

/-! ### Opening connections -/

/-- The connections that attempts have opened. -/
def numbers (attempts : List Attempt) : List ℕ :=
  attempts.filterMap Attempt.number?

theorem numbers_insert (front back : List Attempt) (a : Attempt) :
    numbers (front ++ a :: back) = numbers front ++ (a.number?.toList ++ numbers back) := by
  rw [numbers, List.filterMap_append, List.filterMap_cons]
  cases a.number? <;> rfl

/-- What holds from counting the connections, when the site was `counted`, until those are taken in
that the attempts have opened.  Nobody else has taken connections in or out. -/
structure Opening (counted c : Site) (attempts : List Attempt) : Prop where
  sound : counted.Sound
  quiet : Quiet counted c
  length : attempts.length = counted.pool.missing counted.stage
  nodup : (numbers attempts).Nodup
  fresh : ∀ n ∈ numbers attempts, counted.stages.length ≤ n ∧ n < c.stages.length

namespace Opening

variable {counted : Site} {attempts front back : List Attempt}

theorem start (h : c.Sound) :
    Opening c c (List.replicate (c.pool.missing c.stage) .running) := by
  have hnone : numbers (List.replicate (c.pool.missing c.stage) .running) = [] :=
    List.filterMap_replicate_of_none rfl
  refine ⟨h, .refl c, List.length_replicate .., ?_, ?_⟩ <;> rw [hnone]
  · exact List.nodup_nil
  · exact nofun

theorem of_quiet (h : Opening counted c attempts) (hq : Quiet c c') :
    Opening counted c' attempts :=
  { h with
    quiet := h.quiet.trans hq
    fresh := fun n hn => ⟨(h.fresh n hn).1, (h.fresh n hn).2.trans_le hq.length⟩ }

theorem failed (h : Opening counted c (front ++ .running :: back)) :
    Opening counted c (front ++ .failed :: back) := by
  have hsame : numbers (front ++ .failed :: back) = numbers (front ++ .running :: back) := by
    rw [numbers_insert, numbers_insert]
    rfl
  refine ⟨h.sound, h.quiet, ?_, hsame ▸ h.nodup, hsame ▸ h.fresh⟩
  rw [← h.length, List.length_append, List.length_append]
  rfl

/-- The connection that an attempt opens has a number of its own. -/
theorem opened (h : Opening counted c (front ++ .running :: back)) :
    Opening counted { c with stages := c.stages ++ [.ready] }
      (front ++ .opened c.stages.length :: back) := by
  have hlater := h.of_quiet (.append c .ready)
  have hfresh := h.fresh
  rw [numbers_insert] at hfresh
  refine ⟨h.sound, hlater.quiet, ?_, ?_, fun n hn => ?_⟩
  · rw [← h.length, List.length_append, List.length_append]
    rfl
  · have hnodup := h.nodup
    rw [numbers_insert] at hnodup ⊢
    refine List.nodup_middle.mpr (List.nodup_cons.mpr ⟨fun hmem => ?_, hnodup⟩)
    -- the other attempts have opened connections with smaller numbers
    exact Nat.lt_irrefl _ (hfresh _ hmem).2
  · rw [numbers_insert] at hn
    rcases List.mem_cons.mp (List.perm_middle.mem_iff.mp hn) with rfl | hn
    · exact ⟨h.quiet.length, by simp⟩
    · have hlater' := hlater.fresh n
      rw [numbers_insert] at hlater'
      exact hlater' hn

theorem notMem (h : Opening counted c attempts) (hn : n ∈ numbers attempts) :
    n ∉ c.pool.members := by
  rw [h.quiet.members]
  intro hmem
  exact Nat.not_lt_of_le (h.fresh n hn).1 (h.sound.known n hmem)

/-- As many attempts are begun as there is room for. -/
theorem length_add (h : Opening counted c attempts) :
    counted.live.length + attempts.length = c.pool.config.connections := by
  have hle : counted.live.length ≤ counted.pool.config.connections :=
    counted.live_sublist.length_le.trans h.sound.le
  rw [h.length, h.quiet.config]
  exact Nat.add_sub_of_le hle

/-- Taking in what has been opened keeps the bound. -/
theorem install (h : Opening counted c attempts) (hc : c.Sound) :
    Site.Sound { c with pool := c.pool.install c.stage (numbers attempts) } := by
  refine ⟨?_, ?_, fun n hn => ?_, hc.stops⟩
  · show (c.live ++ numbers attempts).length ≤ c.pool.config.connections
    have hfewer := h.quiet.length_live_le h.sound
    have hopened : (numbers attempts).length ≤ attempts.length := List.length_filterMap_le ..
    rw [← h.length_add, List.length_append]
    exact Nat.add_le_add hfewer hopened
  · refine List.nodup_append'.mpr ⟨c.live_sublist.nodup hc.nodup, h.nodup, ?_⟩
    intro n hlive hnew
    exact h.notMem hnew (c.live_sublist.subset hlive)
  · rcases List.mem_append.mp hn with hlive | hnew
    · exact hc.known n (c.live_sublist.subset hlive)
    · exact (h.fresh n hnew).2

/-- If all attempts succeed, and none of the connections that counted has failed, the pool is full.
-/
theorem full (h : Opening counted c attempts) (hover : .running ∉ attempts)
    (hnone : .failed ∉ attempts) (hlive : ∀ n ∈ counted.live, (c.stage n).isTerminal = false) :
    (c.live ++ numbers attempts).length = c.pool.config.connections := by
  have hkept : c.live = counted.live := by
    rw [h.quiet.live_eq h.sound]
    refine List.filter_eq_self.mpr fun n hn => ?_
    rw [hlive n hn, Bool.not_false]
  have hopened : (numbers attempts).length = attempts.length := by
    refine List.filterMap_length_eq_length.mpr fun a ha => ?_
    cases a with
    | running => exact absurd ha hover
    | failed => exact absurd ha hnone
    | opened n => rfl
  rw [List.length_append, hkept, hopened, h.length_add]

end Opening

/-! ### Calls -/

/-- A party counts the connections in the state `u` and takes in those that the attempts have opened
in the step from `v` to `w`. -/
structure Replenishment (k : ℕ) (u v w : State) (attempts : List Attempt) : Prop where
  counts : u.parties k = .replenishing .queued
  opens : Run u v
  begun : attempts.length = u.site.pool.missing u.site.stage
  finished : v.parties k = .replenishing (.opening u.site.live attempts) ∧ .running ∉ attempts
  last : Step v w
  installs : w.parties k = .replenishing (.installed (numbers attempts).length)
  /-- nobody has taken connections in or out meanwhile -/
  held : v.site.pool.members = u.site.pool.members
  /-- connections whose lives are not over stay, the others go, and those just opened come -/
  members : w.site.pool.members = v.site.live ++ numbers attempts
  fresh : ∀ n ∈ numbers attempts, n ∉ v.site.pool.members
  /-- no attempt has failed, and none of the connections that counted -/
  full : .failed ∉ attempts → (∀ n ∈ u.site.live, (v.site.stage n).isTerminal = false) →
    w.site.pool.members.length = u.site.pool.config.connections

/-- What a party that opens the missing connections has come to on the way from one state to
another. -/
inductive Answered (first s : State) (k count : ℕ) : Prop
  /-- when it was its turn the pool was being closed, or everybody had let go of it -/
  | refused {u} (before : Run first u) (after : Run u s)
    (turn : u.parties k = .replenishing .queued)
    (forsaken : u.site.pool.closed = true ∨ u.site.abandoned = true) (none : count = 0)
  | replenished {u v w attempts} (before : Run first u) (after : Run w s)
    (work : Replenishment k u v w attempts) (all : count = (numbers attempts).length)

variable {first s s' : State} {k : ℕ} {x y : Party}

theorem Answered.snoc {count : ℕ} (h : Answered first s k count) (last : Step s s') :
    Answered first s' k count := by
  cases h with
  | refused before after turn forsaken none =>
    exact .refused before (after.snoc last) turn forsaken none
  | replenished before after work all => exact .replenished before (after.snoc last) work all

/-! ### Parties -/

/-- What is known of a party on the way from one state to another. -/
def Party.Known (first s : State) (k : ℕ) : Party → Prop
  | .replenishing (.opening live attempts) =>
    s.site.lock.isHeldBy k = true ∧ ∃ u, Run first u ∧ Run u s ∧
      u.parties k = .replenishing .queued ∧ live = u.site.live ∧ Opening u.site s.site attempts
  | .replenishing (.installed count) =>
    s.site.lock.isHeldBy k = true ∧ Answered first s k count
  | .replenished count => Answered first s k count
  | .closing _ => s.site.pool.closed = true
  | _ => True

/-- What a party does to the site: those who have the lock keep it, and without it the party does
nothing that they need care about. -/
structure Moved (c : Site) (k : ℕ) (c' : Site) : Prop where
  sound : c'.Sound
  config : c'.pool.config = c.pool.config
  closed : c.pool.closed = true → c'.pool.closed = true
  lock : ∀ j ≠ k, c.lock.isHeldBy j = true → c'.lock.isHeldBy j = true
  exclusive : Quiet c c' ∨ c.lock.isHeldBy k = true

namespace Moved

theorem of_quiet (hc : c.Sound) (hq : Quiet c c')
    (closed : c.pool.closed = true → c'.pool.closed = true)
    (stops : c'.pool.stopping = true → c'.pool.closed = true ∨ c'.abandoned = true)
    (lock : ∀ j ≠ k, c.lock.isHeldBy j = true → c'.lock.isHeldBy j = true) : Moved c k c' := by
  refine ⟨⟨?_, hq.members ▸ hc.nodup, fun n hn => ?_, stops⟩, hq.config, closed, lock, .inl hq⟩
  · rw [hq.members, hq.config]
    exact hc.le
  · exact (hc.known n (hq.members ▸ hn)).trans_le hq.length

/-- Lives go on, or the lock changes hands. -/
theorem of_pool_eq (hc : c.Sound) (hq : Quiet c c') (pool : c'.pool = c.pool)
    (abandoned : c'.abandoned = c.abandoned)
    (lock : ∀ j ≠ k, c.lock.isHeldBy j = true → c'.lock.isHeldBy j = true) : Moved c k c' := by
  refine .of_quiet hc hq (fun h => pool ▸ h) ?_ lock
  rw [pool, abandoned]
  exact hc.stops

theorem refl (hc : c.Sound) (k : ℕ) : Moved c k c :=
  .of_pool_eq hc (.refl c) rfl rfl fun _ _ h => h

theorem request (hc : c.Sound) (k : ℕ) : Moved c k { c with lock := c.lock.request k } :=
  .of_pool_eq hc (.of_stages_eq rfl rfl rfl) rfl rfl fun _ _ h => Lock.isHeldBy_request h

theorem withdraw (hc : c.Sound) (k : ℕ) : Moved c k (c.withdraw k) :=
  .of_pool_eq hc (.of_stages_eq rfl rfl rfl) rfl rfl fun _ hne h => Lock.isHeldBy_withdraw h hne

end Moved

theorem Replenishing.Step.moved {work work' : Replenishing} (hs : s.site.Sound)
    (hx : (Party.replenishing work).Known first s k)
    (h : Replenishing.Step s.site k work c' work') : Moved s.site k c' := by
  cases h with
  | refused | begun | failed => exact .refl hs k
  | opened => exact .of_pool_eq hs (.append ..) rfl rfl fun _ _ h => h
  | installed finished =>
    obtain ⟨hheld, u, -, -, -, -, hopening⟩ := hx
    exact ⟨hopening.install hs, rfl, id, fun _ _ h => h, .inr hheld⟩

theorem Closing.Step.moved {work work' : Closing} (hs : s.site.Sound)
    (hx : (Party.closing work).Known first s k)
    (h : Closing.Step s.site k work c' work') : Moved s.site k c' := by
  cases h with
  | stopped =>
    exact .of_quiet hs (.of_stages_eq rfl rfl rfl) id (fun _ => .inl hx) fun _ _ h => h
  | requested => exact .request hs k
  | taken granted =>
    exact ⟨⟨Nat.zero_le _, List.nodup_nil, nofun, hs.stops⟩, rfl, id, fun _ _ h => h, .inr granted⟩
  | closes serves =>
    refine .of_pool_eq hs (.setStage fun hover => ?_) rfl rfl fun _ _ h => h
    rw [Stage.isEnding, hover, Bool.or_true] at serves
    cases serves
  | passes => exact .refl hs k
  | finished => exact .of_pool_eq hs (.setStage fun _ => rfl) rfl rfl fun _ _ h => h

/-- What the steps of a party do to the site. -/
theorem Party.Step.moved (hs : s.site.Sound) (hx : x.Known first s k)
    (h : Party.Step s.site k x c' y) : Moved s.site k c' := by
  cases h with
  | asks => exact .request hs k
  | replenishing step => exact step.moved hs hx
  | closing step => exact step.moved hs hx
  | marks =>
    exact .of_quiet hs (.of_stages_eq rfl rfl rfl) (fun _ => rfl) (fun _ => .inl rfl) fun _ _ h => h
  | turnedAway => exact .refl hs k
  | replenished | closed | leaves | drops => exact .withdraw hs k

/-- What is known of a party remains so when others do something. -/
theorem Party.Known.mono (hx : x.Known first s k) (last : Stocking.Step s s')
    (closed : s.site.pool.closed = true → s'.site.pool.closed = true)
    (lock : s.site.lock.isHeldBy k = true → s'.site.lock.isHeldBy k = true)
    (quiet : s.site.lock.isHeldBy k = true → Quiet s.site s'.site) : x.Known first s' k := by
  unfold Party.Known at hx ⊢
  split at hx
  · obtain ⟨hheld, u, hbefore, hafter, hturn, hlive, hopening⟩ := hx
    exact ⟨lock hheld, u, hbefore, hafter.snoc last, hturn, hlive, hopening.of_quiet (quiet hheld)⟩
  · exact ⟨lock hx.1, hx.2.snoc last⟩
  · exact hx.snoc last
  · exact closed hx
  · trivial

/-! ### Runs -/

/-- The invariant of a run. -/
structure Invariant (first s : State) : Prop where
  site : s.site.Sound
  config : s.site.pool.config = first.site.pool.config
  parties : ∀ k, (s.parties k).Known first s k

/-- A party takes in what its attempts have opened. -/
theorem Invariant.replenishment {live : List ℕ} {attempts : List Attempt} (hs : Invariant first s)
    (hx : s.parties k = .replenishing (.opening live attempts)) (finished : .running ∉ attempts) :
    ∃ u, Run first u ∧ Replenishment k u s
      (s.move k { s.site with pool := s.site.pool.install s.site.stage (numbers attempts) }
        (.replenishing (.installed (numbers attempts).length))) attempts := by
  have hknown := hs.parties k
  rw [hx] at hknown
  obtain ⟨hheld, u, hbefore, hafter, hturn, rfl, hopening⟩ := hknown
  refine ⟨u, hbefore, hturn, hafter, hopening.length, ⟨hx, finished⟩,
    .of_party hx (.replenishing (.installed finished)), State.move_self ..,
    hopening.quiet.members, rfl, fun n hn => hopening.notMem hn, fun hnone hlive => ?_⟩
  rw [← hopening.quiet.config]
  exact hopening.full finished hnone hlive

theorem Replenishing.Step.known {work work' : Replenishing} (hs : Invariant first s)
    (hrun : Run first s) (hx : s.parties k = .replenishing work)
    (h : Replenishing.Step s.site k work c' work') :
    (Party.replenishing work').Known first (s.move k c' (.replenishing work')) k := by
  have hlast : Stocking.Step s (s.move k c' (.replenishing work')) := .of_party hx (.replenishing h)
  have hknown := hs.parties k
  rw [hx] at hknown
  cases h with
  | refused granted stopping =>
    exact ⟨granted, .refused hrun (.snoc .nil hlast) hx (hs.site.stops stopping) rfl⟩
  | begun granted stopping =>
    exact ⟨granted, s, hrun, .snoc .nil hlast, hx, rfl, .start hs.site⟩
  | opened =>
    obtain ⟨hheld, u, hbefore, hafter, hturn, hlive, hopening⟩ := hknown
    exact ⟨hheld, u, hbefore, hafter.snoc hlast, hturn, hlive, hopening.opened⟩
  | failed =>
    obtain ⟨hheld, u, hbefore, hafter, hturn, hlive, hopening⟩ := hknown
    exact ⟨hheld, u, hbefore, hafter.snoc hlast, hturn, hlive, hopening.failed⟩
  | installed finished =>
    obtain ⟨u, hbefore, hwork⟩ := hs.replenishment hx finished
    exact ⟨hknown.1, .replenished hbefore .nil hwork rfl⟩

/-- What is known of a party that has done something. -/
theorem Party.Step.known (hs : Invariant first s) (hrun : Run first s) (hx : s.parties k = x)
    (h : Party.Step s.site k x c' y) : y.Known first (s.move k c' y) k := by
  have hlast : Stocking.Step s (s.move k c' y) := .of_party hx h
  have hknown := hs.parties k
  rw [hx] at hknown
  cases h with
  | replenishing step => exact step.known hs hrun hx
  | replenished => exact hknown.2.snoc hlast
  | marks => rfl
  | closing step => exact (step.moved hs.site hknown).closed hknown
  | _ => trivial

/-- Nobody has to care about what happens to the site. -/
theorem Invariant.withSite (hs : Invariant first s) (last : Step s (s.withSite c'))
    (quiet : Quiet s.site c') (lock : c'.lock = s.site.lock) (moved : ∀ k, Moved s.site k c') :
    Invariant first (s.withSite c') := by
  refine ⟨(moved 0).sound, quiet.config.trans hs.config, fun k => ?_⟩
  refine (hs.parties k).mono last (moved k).closed (fun h => ?_) fun _ => quiet
  rwa [State.withSite, lock]

/-- Whatever happens, the invariant remains. -/
theorem Invariant.step (hs : Invariant first s) (hrun : Run first s) (h : Step s s') :
    Invariant first s' := by
  cases h with
  | @party k c' y step =>
    have hmoved := step.moved hs.site (hs.parties k)
    refine ⟨hmoved.sound, hmoved.config.trans hs.config, fun j => ?_⟩
    by_cases hj : j = k
    · subst hj
      rw [State.move_self]
      exact step.known hs hrun rfl
    · rw [State.move_of_ne hj]
      refine (hs.parties j).mono (.party step) hmoved.closed (hmoved.lock j hj) fun hheld => ?_
      -- two parties cannot both have the lock
      exact hmoved.exclusive.resolve_right fun hk => hj (Lock.eq_of_isHeldBy hheld hk)
  | @life n stage exist next =>
    have hq : Quiet s.site (s.site.setStage n stage) := by
      refine .setStage fun hover => ?_
      rw [next.isTerminal_eq] at hover
      cases hover
    exact hs.withSite (.life exist next) hq rfl
      fun k => .of_pool_eq hs.site hq rfl rfl fun _ _ h => h
  | elsewhere =>
    exact hs.withSite .elsewhere (.append ..) rfl
      fun k => .of_pool_eq hs.site (.append ..) rfl rfl fun _ _ h => h
  | acquire shard draw =>
    have hlast := Step.acquire (s := s) shard draw
    obtain ⟨selector, hpool⟩ := s.site.pool.acquire_snd s.site.stage shard draw
    rw [hpool] at hlast ⊢
    refine hs.withSite hlast (.of_stages_eq rfl rfl rfl) rfl fun k => ?_
    exact .of_quiet hs.site (.of_stages_eq rfl rfl rfl) id hs.site.stops fun _ _ h => h
  | abandoned =>
    refine hs.withSite .abandoned (.of_stages_eq rfl rfl rfl) rfl fun k => ?_
    exact .of_quiet hs.site (.of_stages_eq rfl rfl rfl) id (fun _ => .inr rfl) fun _ _ h => h

/-- The invariant holds in every state of a run. -/
theorem Run.sound {address : Address} {config : ClientConfig} {stages : List Stage}
    (h : Run (start address config stages) s) : Invariant (start address config stages) s := by
  induction h with
  | nil => exact ⟨⟨Nat.zero_le _, List.nodup_nil, nofun, nofun⟩, rfl, fun _ => trivial⟩
  | snoc init last ih => exact ih.step init last

/-! ### What is never taken back -/

/-- What no step takes back: a pool keeps its server, it stays closed and told to stop, and a life
that somebody has begun to end is not in service again. -/
structure Lasts (c c' : Site) : Prop where
  address : c'.pool.address = c.pool.address
  closed : c.pool.closed = true → c'.pool.closed = true
  stopping : c.pool.stopping = true → c'.pool.stopping = true
  length : c.stages.length ≤ c'.stages.length
  closing : ∀ n < c.stages.length, (c.stage n).Closes → (c'.stage n).Closes
  ending : ∀ n < c.stages.length, (c.stage n).isEnding = true → (c'.stage n).isEnding = true

namespace Lasts

theorem of_stages_eq (address : c'.pool.address = c.pool.address)
    (closed : c.pool.closed = true → c'.pool.closed = true)
    (stopping : c.pool.stopping = true → c'.pool.stopping = true)
    (stages : c'.stages = c.stages) : Lasts c c' := by
  have hstage : ∀ n, c'.stage n = c.stage n := fun n => by rw [Site.stage, Site.stage, stages]
  exact ⟨address, closed, stopping, stages ▸ le_rfl, fun n _ h => (hstage n).symm ▸ h,
    fun n _ h => (hstage n).symm ▸ h⟩

theorem refl (c : Site) : Lasts c c :=
  .of_stages_eq rfl id id rfl

theorem setStage {s : Stage} (hs : s.isEnding = true) (hclosing : (c.stage n).Closes → s.Closes) :
    Lasts c (c.setStage n s) := by
  by_cases hn : n < c.stages.length
  · refine ⟨rfl, id, id, (List.length_set ..).ge, fun m _ h => ?_, fun m _ h => ?_⟩ <;>
      rw [Site.stage_setStage hn] <;> split
    · next hmn => exact hclosing (hmn ▸ h)
    · exact h
    · exact hs
    · exact h
  · rw [Site.setStage, List.set_eq_of_length_le (Nat.le_of_not_lt hn)]
    exact .of_stages_eq rfl id id rfl

theorem trans {c'' : Site} (h : Lasts c c') (h' : Lasts c' c'') : Lasts c c'' where
  address := h'.address.trans h.address
  closed hc := h'.closed (h.closed hc)
  stopping hc := h'.stopping (h.stopping hc)
  length := h.length.trans h'.length
  closing n hn hs := h'.closing n (hn.trans_le h.length) (h.closing n hn hs)
  ending n hn hs := h'.ending n (hn.trans_le h.length) (h.ending n hn hs)

theorem append (c : Site) (s : Stage) : Lasts c { c with stages := c.stages ++ [s] } := by
  refine ⟨rfl, id, id, ?_, fun n hn h => ?_, fun n hn h => ?_⟩
  · rw [List.length_append]
    exact Nat.le_add_right ..
  · rwa [Site.stage_append hn]
  · rwa [Site.stage_append hn]

end Lasts

theorem Replenishing.Step.lasts {work work' : Replenishing}
    (h : Replenishing.Step c k work c' work') : Lasts c c' := by
  cases h with
  | refused | begun | failed => exact .refl c
  | opened => exact .append ..
  | installed => exact .of_stages_eq rfl id id rfl

theorem Closing.Step.lasts {work work' : Closing} (h : Closing.Step c k work c' work') :
    Lasts c c' := by
  cases h with
  | stopped => exact .of_stages_eq rfl id (fun _ => rfl) rfl
  | requested | taken => exact .of_stages_eq rfl id id rfl
  | closes => exact .setStage rfl fun _ => .inl rfl
  | finished => exact .setStage rfl fun _ => .inr rfl
  | passes => exact .refl c

theorem Party.Step.lasts (h : Party.Step c k x c' y) : Lasts c c' := by
  cases h with
  | replenishing step => exact step.lasts
  | closing step => exact step.lasts
  | marks => exact .of_stages_eq rfl (fun _ => rfl) id rfl
  | turnedAway => exact .refl c
  | asks | replenished | closed | leaves | drops => exact .of_stages_eq rfl id id rfl

theorem Step.lasts (h : Step s s') : Lasts s.site s'.site := by
  cases h with
  | party step => exact step.lasts
  | life exist next => exact .setStage next.isEnding_eq next.closes_of_closes
  | elsewhere => exact .append ..
  | acquire shard draw =>
    obtain ⟨selector, hpool⟩ := s.site.pool.acquire_snd s.site.stage shard draw
    rw [hpool]
    exact .of_stages_eq rfl id id rfl
  | abandoned => exact .of_stages_eq rfl id (fun _ => rfl) rfl

theorem Run.lasts (h : Run s s') : Lasts s.site s'.site := by
  induction h with
  | nil => exact .refl _
  | snoc init last ih => exact ih.trans last.lasts

/-! ### Connections that are being closed -/

/-- What a party knows that closes connections: those whose turn is to come exist, and those whose
ends it waits for are being closed. -/
def Party.Attends (c : Site) : Party → Prop
  | .closing (.sweeping rest begun) =>
    (∀ n ∈ rest, n < c.stages.length) ∧ ∀ n ∈ begun, n < c.stages.length ∧ (c.stage n).Closes
  | _ => True

theorem Party.Attends.mono (h : x.Attends c) (hlasts : Lasts c c') : x.Attends c' := by
  unfold Party.Attends at h ⊢
  split at h
  · exact ⟨fun n hn => (h.1 n hn).trans_le hlasts.length, fun n hn =>
      ⟨(h.2 n hn).1.trans_le hlasts.length, hlasts.closing n (h.2 n hn).1 (h.2 n hn).2⟩⟩
  · trivial

theorem Closing.Step.attends {work work' : Closing} (hc : c.Sound)
    (hx : (Party.closing work).Attends c) (h : Closing.Step c k work c' work') :
    (Party.closing work').Attends c' := by
  have hlasts := h.lasts
  cases h with
  | stopped | requested => trivial
  | taken => exact ⟨hc.known, nofun⟩
  | @closes n rest begun serves =>
    have hn := hx.1 n List.mem_cons_self
    obtain ⟨hrest, hbegun⟩ := hx.mono hlasts
    refine ⟨fun m hm => hrest m (List.mem_cons_of_mem _ hm), fun m hm => ?_⟩
    rcases List.mem_append.mp hm with hm | hm
    · exact hbegun m hm
    · rw [List.mem_singleton.mp hm]
      refine ⟨hn.trans_le hlasts.length, ?_⟩
      rw [Site.stage_setStage hn, if_pos rfl]
      exact .inl rfl
  | passes => exact ⟨fun m hm => hx.1 m (List.mem_cons_of_mem _ hm), hx.2⟩
  | finished front back =>
    obtain ⟨hrest, hbegun⟩ := hx.mono hlasts
    refine ⟨hrest, fun m hm => hbegun m ?_⟩
    exact List.mem_append.mpr ((List.mem_append.mp hm).imp_right (List.mem_cons_of_mem _))

/-- Whoever closes connections knows how far they are. -/
theorem Run.attends {address : Address} {config : ClientConfig} {stages : List Stage}
    (h : Run (start address config stages) s) (k : ℕ) : (s.parties k).Attends s.site := by
  induction h with
  | nil => trivial
  | @snoc s s' init last ih =>
    have hlasts := last.lasts
    cases last with
    | @party j c' y step =>
      by_cases hk : k = j
      · subst hk
        rw [State.move_self]
        generalize s.parties k = x at step ih
        cases step with
        | closing step => exact step.attends init.sound.site ih
        | _ => trivial
      · rw [State.move_of_ne hk]
        exact ih.mono hlasts
    | _ => exact ih.mono hlasts

/-- The end of a connection is waited for only when it is being closed. -/
theorem Reachable.closes_of_begun (h : Reachable s) {rest begun : List ℕ}
    (turn : s.parties k = .closing (.sweeping rest begun)) (mem : n ∈ begun) :
    (s.site.stage n).Closes := by
  obtain ⟨address, config, stages, hrun⟩ := h
  have hattends := hrun.attends k
  rw [turn] at hattends
  exact (hattends.2 n mem).2

end Stocking

end Switchboard
