import Switchboard.Proofs.Cluster.Steps
import Switchboard.Proofs.Pools.Closure

/-!
# What holds at every moment

The lock keeps those apart who change the pools.  So whoever applies a topology finds the manager as
it was when the decision was made, and the pools that a party has in hand are known to nobody else.

## Main definitions

- `Upkeep.Party.Holds` — the party is in the part of its work for which it has the lock
- `Upkeep.Quiet` — a change of the site that the holder of the lock need not care about
- `Upkeep.Opening` — what a party knows that opens pools
- `Upkeep.Sound` — the invariant of all parties

## Main statements

- `Upkeep.Sound.of_run` — it holds at every moment
-/

namespace Switchboard

namespace Upkeep

/-! ### Pools -/

namespace Site

/-- The server that the pool belongs to. -/
def home? (c : Site) (p : ℕ) : Option Address :=
  c.pools[p]?.map (·.site.pool.address)

end Site

/-- All pools are still there, and those who use them have taken steps. -/
def PoolsKept (c c' : Site) : Prop :=
  ∀ (p : ℕ) t, c.pools[p]? = some t → ∃ t', c'.pools[p]? = some t' ∧ Stocking.Run t t'

namespace PoolsKept

variable {c c' c'' : Site}

theorem of_pools_eq (h : c'.pools = c.pools) : PoolsKept c c' :=
  fun _ t ht => ⟨t, h ▸ ht, .nil⟩

theorem append {t : Stocking.State} (h : c'.pools = c.pools ++ [t]) : PoolsKept c c' := by
  intro p old hp
  obtain ⟨hlt, -⟩ := List.getElem?_eq_some_iff.mp hp
  refine ⟨old, ?_, .nil⟩
  rwa [h, List.getElem?_append_left hlt]

theorem set {p : ℕ} {t t' : Stocking.State} (found : c.pools[p]? = some t)
    (run : Stocking.Run t t') : PoolsKept c { c with pools := c.pools.set p t' } := by
  obtain ⟨hlt, -⟩ := List.getElem?_eq_some_iff.mp found
  intro q old hold
  by_cases hq : q = p
  · subst hq
    rw [found] at hold
    cases hold
    exact ⟨t', List.getElem?_set_self hlt, run⟩
  · exact ⟨old, (List.getElem?_set_ne (Ne.symm hq)).trans hold, .nil⟩

theorem trans (h : PoolsKept c c') (h' : PoolsKept c' c'') : PoolsKept c c'' := by
  intro p t ht
  obtain ⟨t', ht', hrun⟩ := h p t ht
  obtain ⟨t'', ht'', hrun'⟩ := h' p t' ht'
  exact ⟨t'', ht'', hrun.trans hrun'⟩

/-- No pool changes its server. -/
theorem home (h : PoolsKept c c') {p : ℕ} {a : Address} (hp : c.home? p = some a) :
    c'.home? p = some a := by
  obtain ⟨t, ht, rfl⟩ := Option.map_eq_some_iff.mp hp
  obtain ⟨t', ht', hrun⟩ := h p t ht
  rw [Site.home?, ht', Option.map_some, hrun.lasts.address]

end PoolsKept

/-! ### The lock -/

namespace Applying

/-- The lock is needed for what is being done. -/
def Holds : Applying → Prop
  | .opening .. | .parting .. => True
  | _ => False

end Applying

/-- The lock is needed for what is being done. -/
def Closing.Holds : Closing → Prop
  | .sweeping .. => True
  | _ => False

namespace Party

/-- The party is in the part of its work for which it has the lock. -/
def Holds : Party → Prop
  | .applying _ work => work.Holds
  | .closing work => work.Holds
  | _ => False

/-- The party has begun to close the manager. -/
def Closes : Party → Prop
  | .closing _ | .closed => True
  | _ => False

/-- The pools whose turn to be closed is still to come once they have been taken out of the manager.
-/
def rest? : Party → Option (List ℕ)
  | .closing (.sweeping rest _) => some rest
  | .closed => some []
  | _ => none

/-- The party has pools to open or to hand to the background. -/
def Busy : Party → Prop
  | .applying _ (.opening ..) | .applying _ (.parting _ _ _ (_ :: _)) => True
  | _ => False

/-- The pools that only the party knows: those opened that are not in place, and those out of place
that are not handed to the background. -/
def hand : Party → List ℕ
  | .applying _ (.opening _ _ _ _ _ opened) => opened.map (·.2)
  | .applying _ (.parting _ _ _ leaving) => leaving
  | _ => []

theorem Busy.holds {x : Party} (h : x.Busy) : x.Holds := by
  cases x with
  | applying seen work =>
    cases work with
    | opening | parting => trivial
    | _ => exact h.elim
  | _ => exact h.elim

theorem hand_eq_nil {x : Party} (h : ¬x.Busy) : x.hand = [] := by
  cases x with
  | applying seen work =>
    cases work with
    | opening => exact absurd trivial h
    | parting t forced report leaving =>
      cases leaving with
      | nil => rfl
      | cons => exact absurd trivial h
    | _ => rfl
  | _ => rfl

end Party

/-- What the lock protects is as it was. -/
structure Calm (c c' : Site) : Prop where
  manager : c'.manager = { c.manager with closed := c'.manager.closed }
  pools : c'.pools.length = c.pools.length
  drained : c'.drained = c.drained
  taken : c'.taken = c.taken

/-- A change of the site that the holder of the lock need not care about. -/
structure Quiet (c c' : Site) : Prop extends Calm c c' where
  holder : ∀ {k}, c.lock.isHeldBy k = true → c'.lock.isHeldBy k = true

/-! ### What a party knows -/

/-- What a party knows that opens pools: nobody has changed the manager's pools since the decision
was made. -/
structure Opening (c : Site) (t : Topology) (forced : Bool) (added removed todo : List Address)
    (opened : List (Address × ℕ)) : Prop where
  set : Address.IsSet t.addresses
  fresh : ¬c.manager.Overtakes t forced
  missing : added = c.manager.missing t
  obsolete : removed = c.manager.obsolete t
  /-- some of the addresses that came before may have been given up -/
  progress : (opened.map (·.1) ++ todo).Sublist added
  all : c.manager.config.poolFault? = none → opened.map (·.1) ++ todo = added
  home : ∀ e ∈ opened, c.home? e.2 = some e.1

theorem Opening.of_quiet {c c' : Site} {t : Topology} {forced : Bool}
    {added removed todo : List Address} {opened : List (Address × ℕ)}
    (h : Opening c t forced added removed todo opened) (hquiet : Quiet c c')
    (hkept : PoolsKept c c') : Opening c' t forced added removed todo opened := by
  obtain ⟨set, fresh, rfl, rfl, progress, all, home⟩ := h
  have hpools : c'.manager.addresses = c.manager.addresses := by rw [hquiet.manager]; rfl
  refine ⟨set, ?_, ?_, ?_, progress, ?_, fun e he => hkept.home (home e he)⟩
  · rwa [hquiet.manager]
  · rw [Manager.missing, Manager.missing, hpools]
  · rw [Manager.obsolete, Manager.obsolete, hpools]
  · rwa [hquiet.manager]

/-- When all pools have been opened, only addresses that had none before get one. -/
theorem Opening.fills {c : Site} {t : Topology} {forced : Bool} {added removed : List Address}
    {opened : List (Address × ℕ)} (h : Opening c t forced added removed [] opened) :
    Manager.Fills opened c.manager t := by
  rw [Manager.Fills, ← h.missing]
  simpa using h.progress

/-- What a party knows. -/
def Party.Sound (c : Site) (k : ℕ) : Party → Prop
  | .applying _ (.wanted t _) | .applying _ (.queued t _) => Address.IsSet t.addresses
  | .applying _ (.opening t forced added removed todo opened) =>
    c.lock.isHeldBy k = true ∧ Opening c t forced added removed todo opened
  | .applying _ (.parting ..) => c.lock.isHeldBy k = true
  | .closing (.sweeping ..) => c.lock.isHeldBy k = true ∧ c.manager.closed = true
  | .closing _ | .closed => c.manager.closed = true
  | _ => True

theorem Party.Sound.isHeldBy {c : Site} {k : ℕ} {x : Party} (h : x.Sound c k) (hx : x.Holds) :
    c.lock.isHeldBy k = true := by
  cases x with
  | applying seen work =>
    cases work with
    | opening => exact h.1
    | parting => exact h
    | _ => exact hx.elim
  | closing work =>
    cases work with
    | sweeping => exact h.1
    | _ => exact hx.elim
  | _ => exact hx.elim

theorem Party.Sound.closed {c : Site} {k : ℕ} {x : Party} (h : x.Sound c k) (hx : x.Closes) :
    c.manager.closed = true := by
  cases x with
  | closing work =>
    cases work with
    | sweeping => exact h.2
    | _ => exact h
  | closed => exact h
  | _ => exact hx.elim

/-- What a party knows stays true if the manager is not reopened and, while the party has the lock,
nobody touches what the lock protects. -/
theorem Party.Sound.mono {c c' : Site} {k : ℕ} {x : Party} (h : x.Sound c k)
    (hclosed : c.manager.closed = true → c'.manager.closed = true)
    (hquiet : x.Holds → Quiet c c') (hkept : PoolsKept c c') : x.Sound c' k := by
  cases x with
  | applying seen work =>
    cases work with
    | wanted | queued => exact h
    | opening =>
      have hquiet := hquiet trivial
      exact ⟨hquiet.holder h.1, h.2.of_quiet hquiet hkept⟩
    | parting => exact (hquiet trivial).holder h
  | closing work =>
    cases work with
    | marked | queued => exact hclosed h
    | sweeping => exact ⟨(hquiet trivial).holder h.1, hclosed h.2⟩
  | closed => exact hclosed h
  | _ => trivial

/-! ### What a step does -/

/-- What a step does to the site and to the pools that the party has in hand. -/
inductive Effect (c : Site) : List ℕ → Site → List ℕ → Prop
  | calm {c' hand} (calm : Calm c c') : Effect c hand c' hand
  | opened {a stages hand} :
    Effect c hand { c with pools := c.pools ++ [Stocking.start a c.manager.config stages] }
      (hand ++ [c.pools.length])
  | installed {t forced added removed opened}
    (opening : Opening c t forced added removed [] opened) :
    Effect c (opened.map (·.2)) { c with manager := c.manager.install t.epoch removed opened }
      (c.manager.leaving removed)
  | handed {p rest} : Effect c (p :: rest) { c with drained := c.drained ++ [p] } rest
  | taken :
    Effect c []
      { c with manager := c.manager.takeAll.2, taken := c.taken ++ c.manager.takeAll.1 } []

/-- What a party's move does. -/
structure Moved (c : Site) (k : ℕ) (x : Party) (c' : Site) (y : Party) : Prop where
  effect : Effect c x.hand c' y.hand
  kept : PoolsKept c c'
  sound : y.Sound c' k
  /-- others need not care unless the party has the lock -/
  quiet : Quiet c c' ∨ c.lock.isHeldBy k = true
  closed : c.manager.closed = true → c'.manager.closed = true
  topology : Address.IsSet c.topology.value.addresses →
    Address.IsSet c'.topology.value.addresses
  closes : y.Closes → x.Closes ∨ c.manager.closed = false
  /-- a closed manager gives nobody anything to do -/
  rests : c.manager.closed = true → ¬x.Busy → ¬x.Closes → Calm c c' ∧ ¬y.Busy
  untaken : y.rest? = none → c'.taken = c.taken ∧ x.rest? = none
  sweeps : ∀ rest, y.rest? = some rest →
    (x.rest? = none ∧ x.Closes ∧ c.lock.isHeldBy k = true ∧ c'.manager.pools = [] ∧
      c'.taken = c.taken ++ rest) ∨
    (Calm c c' ∧ ∃ before, x.rest? = some before ∧ rest <:+ before)

/-- A move that changes nothing but the lock. -/
theorem Moved.of_lock {c : Site} {k : ℕ} {x y : Party} {l : Lock}
    (hlock : (∀ j, c.lock.isHeldBy j = true → l.isHeldBy j = true) ∨ c.lock.isHeldBy k = true)
    (hsound : y.Sound { c with lock := l } k) (hhand : y.hand = x.hand)
    (hbusy : y.Busy → x.Busy ∨ c.manager.closed = false) (hcloses : y.Closes → x.Closes)
    (hrest : y.rest? = x.rest?) : Moved c k x { c with lock := l } y := by
  have hcalm : Calm c { c with lock := l } := ⟨rfl, rfl, rfl, rfl⟩
  constructor
  case effect => exact hhand ▸ .calm hcalm
  case kept => exact .of_pools_eq rfl
  case sound => exact hsound
  case quiet => exact hlock.imp_left fun h => ⟨hcalm, @h⟩
  case closed => exact id
  case topology => exact id
  case closes => exact fun h => .inl (hcloses h)
  case rests =>
    intro hclosed hidle _
    refine ⟨hcalm, fun hy => ?_⟩
    rcases hbusy hy with hx | hopen
    · exact hidle hx
    · rw [hclosed] at hopen
      cases hopen
  case untaken => exact fun h => ⟨rfl, hrest ▸ h⟩
  case sweeps => exact fun rest h => .inr ⟨hcalm, rest, hrest ▸ h, List.suffix_rfl⟩

theorem Moved.of_begins {c c' : Site} {k : ℕ} {call : Call} {y : Party}
    (htopology : Address.IsSet c.topology.value.addresses) (h : call.Begins c c' y) :
    Moved c k .idle c' y := by
  cases h with
  | reconcile set => exact .of_lock (.inl fun _ => id) set rfl nofun nofun rfl
  | refresh => exact .of_lock (.inl fun _ => id) htopology rfl nofun nofun rfl
  | @close m first =>
    unfold Manager.beginClose? at first
    split at first
    · cases first
    next hopen =>
    cases first
    have hcalm : Calm c { c with manager := { c.manager with closed := true } } :=
      ⟨rfl, rfl, rfl, rfl⟩
    exact ⟨.calm hcalm, .of_pools_eq rfl, rfl, .inl ⟨hcalm, id⟩, fun _ => rfl, id,
      fun _ => .inr (Bool.eq_false_iff.mpr hopen), fun _ _ _ => ⟨hcalm, id⟩, fun _ => ⟨rfl, rfl⟩,
      nofun⟩
  | closeAgain => exact .of_lock (.inl fun _ => id) trivial rfl nofun nofun rfl
  | follow => exact .of_lock (.inl fun _ => id) trivial rfl nofun nofun rfl

/-- A move of a party that applies a topology and that touches what the lock protects. -/
theorem Moved.of_applying {c c' : Site} {k : ℕ} {seen : Option ℕ} {work work' : Applying}
    (hheld : c.lock.isHeldBy k = true) (hbusy : (Party.applying seen work).Busy)
    (heffect : Effect c (Party.applying seen work).hand c' (Party.applying seen work').hand)
    (hkept : PoolsKept c c') (hsound : (Party.applying seen work').Sound c' k)
    (hclosed : c'.manager.closed = c.manager.closed) (htopology : c'.topology = c.topology)
    (htaken : c'.taken = c.taken) :
    Moved c k (.applying seen work) c' (.applying seen work') where
  effect := heffect
  kept := hkept
  sound := hsound
  quiet := .inr hheld
  closed h := hclosed ▸ h
  topology h := htopology ▸ h
  closes := nofun
  rests _ hidle _ := absurd hbusy hidle
  untaken _ := ⟨htaken, rfl⟩
  sweeps := nofun

theorem Moved.of_applyingStep {c c' : Site} {k : ℕ} {seen : Option ℕ} {work work' : Applying}
    (hx : (Party.applying seen work).Sound c k) (h : Applying.Step c k work c' work') :
    Moved c k (.applying seen work) c' (.applying seen work') := by
  cases h with
  | requested => exact .of_lock (.inl fun _ => Lock.isHeldBy_request) hx rfl nofun nofun rfl
  | ignored granted decision => exact .of_lock (.inl fun _ => id) granted rfl nofun nofun rfl
  | stale granted decision => exact .of_lock (.inl fun _ => id) granted rfl nofun nofun rfl
  | begun granted decision =>
    obtain ⟨hopen, hfresh, hadded, hremoved⟩ := Manager.decide_eq_apply_iff.mp decision
    have hopening : Opening c _ _ _ _ _ [] :=
      ⟨hx, hfresh, hadded, hremoved, .refl _, fun _ => rfl, nofun⟩
    exact .of_lock (.inl fun _ => id) ⟨granted, hopening⟩ rfl (fun _ => .inr hopen) nofun rfl
  | @opened stages t forced added removed a rest opened valid =>
    obtain ⟨hheld, hopening⟩ := hx
    have hkept : PoolsKept c
        { c with pools := c.pools ++ [Stocking.start a c.manager.config stages] } := .append rfl
    refine .of_applying hheld trivial ?_ hkept ⟨hheld, ?_⟩ rfl rfl rfl
    · simp only [Party.hand, List.map_append, List.map_cons, List.map_nil]
      exact .opened
    · refine ⟨hopening.set, hopening.fresh, hopening.missing, hopening.obsolete, ?_, ?_, ?_⟩
      · simpa using hopening.progress
      · simpa using hopening.all
      · intro e he
        rcases List.mem_append.mp he with he | he
        · exact hkept.home (hopening.home e he)
        · rw [List.mem_singleton.mp he]
          simp [Site.home?, Stocking.start, Pool.empty]
  | @failed t forced added removed a rest opened fault invalid =>
    obtain ⟨hheld, hopening⟩ := hx
    refine .of_lock (.inl fun _ => id) ⟨hheld, ?_⟩ rfl (fun _ => .inl trivial) False.elim rfl
    refine ⟨hopening.set, hopening.fresh, hopening.missing, hopening.obsolete, ?_, ?_,
      hopening.home⟩
    · have hless : (opened.map (·.1) ++ rest).Sublist (opened.map (·.1) ++ a :: rest) :=
        (List.Sublist.refl _).append (List.sublist_cons_self a rest)
      exact hless.trans hopening.progress
    · intro hvalid
      rw [hvalid] at invalid
      cases invalid
  | installed =>
    obtain ⟨hheld, hopening⟩ := hx
    exact .of_applying hheld trivial (.installed hopening) (.of_pools_eq rfl) hheld rfl rfl rfl
  | handed => exact .of_applying hx trivial .handed (.of_pools_eq rfl) hx rfl rfl rfl

/-- A move of the party that closes the pools, one after the other. -/
theorem Moved.of_sweeping {c c' : Site} {k : ℕ} {rest rest' : List ℕ} {begun begun' : List (ℕ × ℕ)}
    (hx : (Party.closing (.sweeping rest begun)).Sound c k) (hsuffix : rest' <:+ rest)
    (hpools : c'.pools.length = c.pools.length) (hsame : c' = { c with pools := c'.pools })
    (hkept : PoolsKept c c') :
    Moved c k (.closing (.sweeping rest begun)) c' (.closing (.sweeping rest' begun')) := by
  rw [hsame] at hkept ⊢
  have hcalm : Calm c { c with pools := c'.pools } := ⟨rfl, hpools, rfl, rfl⟩
  refine ⟨.calm hcalm, hkept, hx, .inl ⟨hcalm, id⟩, id, id, fun _ => .inl trivial,
    fun _ _ _ => ⟨hcalm, id⟩, nofun, fun left h => .inr ⟨hcalm, rest, rfl, ?_⟩⟩
  cases h
  exact hsuffix

theorem Moved.of_closingStep {c c' : Site} {k : ℕ} {work work' : Closing}
    (hx : (Party.closing work).Sound c k) (h : Closing.Step c k work c' work') :
    Moved c k (.closing work) c' (.closing work') := by
  cases h with
  | requested =>
    exact .of_lock (.inl fun _ => Lock.isHeldBy_request) hx rfl nofun (fun _ => trivial) rfl
  | taken granted =>
    exact ⟨.taken, .of_pools_eq rfl, ⟨granted, hx⟩, .inr granted, id, id, fun _ => .inl trivial,
      fun _ _ h => absurd trivial h, nofun,
      fun rest h => .inl ⟨rfl, trivial, granted, rfl, by cases h; rfl⟩⟩
  | begins found idle first =>
    refine .of_sweeping hx (List.suffix_cons ..) (List.length_set ..) rfl (.set found ?_)
    exact Stocking.Run.nil.snoc (.mark idle first)
  | passes => exact .of_sweeping hx (List.suffix_cons ..) rfl rfl (.of_pools_eq rfl)
  | ended => exact .of_sweeping hx List.suffix_rfl rfl rfl (.of_pools_eq rfl)

theorem Moved.of_step {c c' : Site} {k : ℕ} {x y : Party}
    (htopology : Address.IsSet c.topology.value.addresses) (hx : x.Sound c k)
    (h : Party.Step c k x c' y) : Moved c k x c' y := by
  cases h with
  | applying step => exact .of_applyingStep hx step
  | answered => exact .of_lock (.inr hx) trivial rfl nofun nofun rfl
  | applied => exact .of_lock (.inr hx) trivial rfl nofun nofun rfl
  | woken => exact .of_lock (.inl fun _ => id) trivial rfl nofun nofun rfl
  | looked => exact .of_lock (.inl fun _ => id) htopology rfl nofun nofun rfl
  | stopped => exact .of_lock (.inl fun _ => id) trivial rfl nofun nofun rfl
  | closing step => exact .of_closingStep hx step
  | closed => exact .of_lock (.inr hx.1) hx.2 rfl nofun (fun _ => trivial) rfl

/-- What others do to a site is, for any party, as if it had not moved. -/
theorem Moved.of_quiet {c c' : Site} {k : ℕ} {x : Party} (hx : x.Sound c k) (hquiet : Quiet c c')
    (hkept : PoolsKept c c') (hclosed : c.manager.closed = true → c'.manager.closed = true)
    (htopology : Address.IsSet c'.topology.value.addresses) : Moved c k x c' x where
  effect := .calm hquiet.toCalm
  kept := hkept
  sound := hx.mono hclosed (fun _ => hquiet) hkept
  quiet := .inl hquiet
  closed := hclosed
  topology _ := htopology
  closes h := .inl h
  rests _ hidle _ := ⟨hquiet.toCalm, hidle⟩
  untaken h := ⟨hquiet.taken, h⟩
  sweeps rest h := .inr ⟨hquiet.toCalm, rest, h, List.suffix_rfl⟩

/-! ### Where the pools are -/

/-- Every pool that has been opened is known once: to the manager, to the background, to whoever
closes the manager, or to a party that has it in hand. -/
def Site.Accounts (c : Site) (hand : List ℕ) : Prop :=
  ∀ p, (c.manager.pools.map (·.2)).count p + c.drained.count p + c.taken.count p + hand.count p =
    if p < c.pools.length then 1 else 0

namespace Effect

variable {c c' : Site} {hand hand' : List ℕ}

theorem accounts (h : Effect c hand c' hand') (others : List ℕ)
    (hacc : c.Accounts (hand ++ others)) : c'.Accounts (hand' ++ others) := by
  intro p
  have hp := hacc p
  -- each time what one of the places loses another one gains
  cases h with
  | calm calm =>
    obtain ⟨hmanager, hpools, hdrained, htaken⟩ := calm
    rwa [hmanager, hpools, hdrained, htaken]
  | opened =>
    simp only [List.count_append, List.count_singleton, List.length_append,
      List.length_singleton] at hp ⊢
    by_cases hnew : c.pools.length = p
    · subst hnew
      rw [if_neg (Nat.lt_irrefl _)] at hp
      rw [beq_self_eq_true, if_pos rfl, if_pos (Nat.lt_succ_self _)]
      omega
    · rw [if_neg (by simpa using hnew)]
      by_cases hlt : p < c.pools.length
      · rw [if_pos hlt] at hp
        rw [if_pos (by omega)]
        omega
      · rw [if_neg hlt] at hp
        rw [if_neg (by omega)]
        omega
  | @installed t forced added removed opened opening =>
    have hcount :=
      (Manager.install_leaving_perm opening.set opening.fills t.epoch removed).count_eq p
    simp only [List.count_append] at hp hcount ⊢
    omega
  | handed =>
    simp only [List.cons_append, List.count_cons, List.count_append, List.count_nil] at hp ⊢
    omega
  | taken =>
    simp only [Manager.takeAll, List.nil_append, List.count_append, List.map_nil,
      List.count_nil] at hp ⊢
    omega

theorem sorted (h : Effect c hand c' hand') (hsorted : c.manager.IsSorted) :
    c'.manager.IsSorted := by
  cases h with
  | calm calm => rw [calm.manager]; exact hsorted
  | opened | handed => exact hsorted
  | installed => exact Manager.isSorted_install hsorted ..
  | taken => exact List.Pairwise.nil

theorem home (h : Effect c hand c' hand') (hkept : PoolsKept c c')
    (hhome : ∀ e ∈ c.manager.pools, c.home? e.2 = some e.1) :
    ∀ e ∈ c'.manager.pools, c'.home? e.2 = some e.1 := by
  intro e he
  cases h with
  | calm calm =>
    rw [calm.manager] at he
    exact hkept.home (hhome e he)
  | opened | handed => exact hkept.home (hhome e he)
  | @installed t forced added removed opened opening =>
    rcases (Manager.mem_pools_install opening.set opening.fills).mp he with ⟨he, -⟩ | he
    · exact hkept.home (hhome e he)
    · exact hkept.home (opening.home e he)
  | taken => cases he

theorem reachable (h : Effect c hand c' hand') (hkept : PoolsKept c c')
    (hpools : ∀ (p : ℕ) t, c.pools[p]? = some t → Stocking.Reachable t) :
    ∀ (p : ℕ) t, c'.pools[p]? = some t → Stocking.Reachable t := by
  intro p t ht
  by_cases hlt : p < c.pools.length
  · have hold := List.getElem?_eq_getElem hlt
    obtain ⟨t', ht', hrun⟩ := hkept p _ hold
    rw [ht] at ht'
    cases ht'
    exact (hpools p _ hold).run hrun
  · obtain ⟨hlt', -⟩ := List.getElem?_eq_some_iff.mp ht
    -- only a pool that has just come to be is new
    cases h with
    | calm calm => exact absurd (calm.pools ▸ hlt') hlt
    | installed | handed | taken => exact absurd hlt' hlt
    | @opened a stages =>
      rw [List.length_append, List.length_singleton] at hlt'
      have hp : p = c.pools.length := by omega
      subst hp
      rw [List.getElem?_concat_length] at ht
      cases ht
      exact ⟨a, _, stages, .nil⟩

end Effect

/-! ### The invariant -/

/-- What holds at every moment. -/
structure Sound (s : State) : Prop where
  topology : Address.IsSet s.site.topology.value.addresses
  sorted : s.site.manager.IsSorted
  /-- every pool is in place under its own address -/
  home : ∀ e ∈ s.site.manager.pools, s.site.home? e.2 = some e.1
  party : ∀ k, (s.parties k).Sound s.site k
  /-- at most one party closes the manager -/
  closers : ∀ j k, (s.parties j).Closes → (s.parties k).Closes → j = k
  /-- once the pools have been taken out, none comes back, and each has its turn -/
  ended : ∀ k rest, (s.parties k).rest? = some rest → s.site.manager.pools = [] ∧
    (∀ j, ¬(s.parties j).Busy) ∧ rest <:+ s.site.taken
  untaken : (∀ k, (s.parties k).rest? = none) → s.site.taken = []
  accounts : ∀ k, (∀ j, j ≠ k → (s.parties j).hand = []) → s.site.Accounts (s.parties k).hand
  /-- those who use a pool have taken steps since it came to be -/
  pools : ∀ (p : ℕ) t, s.site.pools[p]? = some t → Stocking.Reachable t

theorem Party.closes_of_rest? {x : Party} {rest : List ℕ} (h : x.rest? = some rest) :
    x.Closes := by
  cases x with
  | closing | closed => trivial
  | _ => cases h

theorem Party.not_busy_of_rest? {x : Party} {rest : List ℕ} (h : x.rest? = some rest) :
    ¬x.Busy := by
  cases x with
  | closing | closed => exact id
  | _ => cases h

theorem Sound.start (config : ClientConfig) : Sound (start config) where
  topology := List.Pairwise.nil
  sorted := Manager.isSorted_empty config
  home := nofun
  party _ := trivial
  closers _ _ h := h.elim
  ended := nofun
  untaken _ := rfl
  accounts := by
    intro k _ p
    rfl
  pools := nofun

namespace Sound

variable {s : State}

/-- Two parties are not at work under the lock at the same time. -/
theorem eq_of_holds (hs : Sound s) {j k : ℕ} (hj : (s.parties j).Holds)
    (hk : (s.parties k).Holds) : j = k :=
  Lock.eq_of_isHeldBy ((hs.party j).isHeldBy hj) ((hs.party k).isHeldBy hk)

/-! What follows is about a party that moves on while all others stay where they are. -/

variable {k : ℕ} {c : Site} {y : Party}

theorem party_move (hs : Sound s) (h : Moved s.site k (s.parties k) c y) (j : ℕ) :
    ((s.move k c y).parties j).Sound c j := by
  by_cases hj : j = k
  · subst hj
    rw [State.move_self]
    exact h.sound
  · rw [State.move_of_ne hj]
    refine (hs.party j).mono h.closed (fun hholds => ?_) h.kept
    -- if the one who moves had the lock, this party would not be at work under it
    exact h.quiet.resolve_right fun hheld =>
      hj (Lock.eq_of_isHeldBy ((hs.party j).isHeldBy hholds) hheld)

theorem closers_move (hs : Sound s) (h : Moved s.site k (s.parties k) c y) {i j : ℕ}
    (hi : ((s.move k c y).parties i).Closes) (hj : ((s.move k c y).parties j).Closes) : i = j := by
  -- nobody begins to close what another party has closed
  have hnew : ∀ j, j ≠ k → (s.parties j).Closes → ¬y.Closes := by
    intro j hj hjc hy
    rcases h.closes hy with hx | hopen
    · exact hj (hs.closers j k hjc hx)
    · rw [(hs.party j).closed hjc] at hopen
      cases hopen
  by_cases hik : i = k <;> by_cases hjk : j = k
  · rw [hik, hjk]
  · subst hik
    rw [State.move_self] at hi
    rw [State.move_of_ne hjk] at hj
    exact absurd hi (hnew j hjk hj)
  · subst hjk
    rw [State.move_self] at hj
    rw [State.move_of_ne hik] at hi
    exact absurd hj (hnew i hik hi)
  · rw [State.move_of_ne hik] at hi
    rw [State.move_of_ne hjk] at hj
    exact hs.closers i j hi hj

theorem taken_eq_nil (hs : Sound s) (hcloses : (s.parties k).Closes)
    (hnone : (s.parties k).rest? = none) : s.site.taken = [] := by
  apply hs.untaken
  intro j
  cases hj : (s.parties j).rest? with
  | none => rfl
  | some before =>
    have hjk := hs.closers j k (Party.closes_of_rest? hj) hcloses
    rw [hjk, hnone] at hj
    cases hj

theorem not_busy_move {j : ℕ} (hy : ¬y.Busy) (hj : j ≠ k → ¬(s.parties j).Busy) :
    ¬((s.move k c y).parties j).Busy := by
  by_cases hjk : j = k
  · rw [hjk, State.move_self]
    exact hy
  · rw [State.move_of_ne hjk]
    exact hj hjk

/-- The party that moves has taken the pools out, now or before. -/
theorem ended_self (hs : Sound s) (h : Moved s.site k (s.parties k) c y) {rest : List ℕ}
    (hrest : y.rest? = some rest) : c.manager.pools = [] ∧
      (∀ j, ¬((s.move k c y).parties j).Busy) ∧ rest <:+ c.taken := by
  have hy := Party.not_busy_of_rest? hrest
  rcases h.sweeps rest hrest with ⟨hfirst, hcloses, hheld, hnone, htaken⟩ |
    ⟨hcalm, before, hbefore, hleft⟩
  · refine ⟨hnone, fun j => not_busy_move hy fun hj hbusy => ?_, ?_⟩
    · -- whoever is busy has the lock, and so has the party that moves
      exact hj (Lock.eq_of_isHeldBy ((hs.party j).isHeldBy hbusy.holds) hheld)
    · rw [htaken, hs.taken_eq_nil hcloses hfirst]
      exact List.suffix_rfl
  · obtain ⟨hnone, hquiet, htaken⟩ := hs.ended k before hbefore
    refine ⟨?_, fun j => not_busy_move hy fun _ => hquiet j, ?_⟩
    · rw [hcalm.manager]
      exact hnone
    · rw [hcalm.taken]
      exact hleft.trans htaken

/-- Another party has taken the pools out before: the one who moves finds nothing to do. -/
theorem ended_other (hs : Sound s) (h : Moved s.site k (s.parties k) c y) {i : ℕ} (hi : i ≠ k)
    {rest : List ℕ} (hrest : (s.parties i).rest? = some rest) : c.manager.pools = [] ∧
      (∀ j, ¬((s.move k c y).parties j).Busy) ∧ rest <:+ c.taken := by
  obtain ⟨hnone, hquiet, htaken⟩ := hs.ended i rest hrest
  have hcloses := Party.closes_of_rest? hrest
  obtain ⟨hcalm, hy⟩ := h.rests ((hs.party i).closed hcloses) (hquiet k)
    fun hk => hi (hs.closers i k hcloses hk)
  refine ⟨?_, fun j => not_busy_move hy fun _ => hquiet j, ?_⟩
  · rw [hcalm.manager]
    exact hnone
  · rw [hcalm.taken]
    exact htaken

theorem untaken_move (hs : Sound s) (h : Moved s.site k (s.parties k) c y)
    (hnone : ∀ j, ((s.move k c y).parties j).rest? = none) : c.taken = [] := by
  obtain ⟨htaken, hx⟩ := h.untaken (State.move_self s k c y ▸ hnone k)
  rw [htaken]
  apply hs.untaken
  intro j
  by_cases hj : j = k
  · rw [hj, hx]
  · rw [← State.move_of_ne hj]
    exact hnone j

/-- The pools of the party that moves are accounted for. -/
theorem accounts_self (hs : Sound s) (h : Moved s.site k (s.parties k) c y)
    (hothers : ∀ j, j ≠ k → (s.parties j).hand = []) : c.Accounts y.hand := by
  have hnext := h.effect.accounts [] (by simpa using hs.accounts k hothers)
  simpa using hnext

/-- The pools of another party are accounted for when the one who moves has none afterwards. -/
theorem accounts_other (hs : Sound s) (h : Moved s.site k (s.parties k) c y) {j : ℕ} (hj : j ≠ k)
    (hy : y.hand = []) (hothers : ∀ i, i ≠ j → i ≠ k → (s.parties i).hand = []) :
    c.Accounts (s.parties j).hand := by
  by_cases hx : (s.parties k).hand = []
  · have hacc := hs.accounts j fun i hi => by
      by_cases hik : i = k
      · rw [hik, hx]
      · exact hothers i hi hik
    have hnext := h.effect.accounts (s.parties j).hand (by rwa [hx, List.nil_append])
    rwa [hy, List.nil_append] at hnext
  · -- the one who moves has pools in hand, so this party has none
    have hbusy : (s.parties k).Busy := by
      by_contra hidle
      exact hx (Party.hand_eq_nil hidle)
    have hempty : (s.parties j).hand = [] :=
      Party.hand_eq_nil fun hbusy' => hj (hs.eq_of_holds hbusy'.holds hbusy.holds)
    rw [hempty, ← hy]
    refine hs.accounts_self h fun i hi => ?_
    by_cases hij : i = j
    · rw [hij, hempty]
    · exact hothers i hij hi

theorem move (hs : Sound s) (h : Moved s.site k (s.parties k) c y) : Sound (s.move k c y) := by
  constructor
  case topology => exact h.topology hs.topology
  case sorted => exact h.effect.sorted hs.sorted
  case home => exact h.effect.home h.kept hs.home
  case party => exact hs.party_move h
  case closers => exact fun i j => hs.closers_move h
  case ended =>
    intro i rest hi
    by_cases hik : i = k
    · subst hik
      rw [State.move_self] at hi
      exact hs.ended_self h hi
    · rw [State.move_of_ne hik] at hi
      exact hs.ended_other h hik hi
  case untaken => exact hs.untaken_move h
  case accounts =>
    intro j hj
    by_cases hjk : j = k
    · subst hjk
      rw [State.move_self]
      exact hs.accounts_self h fun i hi => by rw [← State.move_of_ne hi]; exact hj i hi
    · rw [State.move_of_ne hjk]
      refine hs.accounts_other h hjk ?_ fun i hij hik => ?_
      · rw [← State.move_self s k c y]
        exact hj k (Ne.symm hjk)
      · rw [← State.move_of_ne hik]
        exact hj i hij
  case pools => exact h.effect.reachable h.kept hs.pools

theorem moved (hs : Sound s) {a : Action} {s' : State} (h : Step s a s') :
    ∃ k c y, s' = s.move k c y ∧ Moved s.site k (s.parties k) c y := by
  have hstill : ∀ c, s.withSite c = s.move 0 c (s.parties 0) := by
    intro c
    rw [State.move, Function.update_eq_self]
    rfl
  cases h with
  | @call k call c y idle begins =>
    exact ⟨k, c, y, rfl, idle ▸ .of_begins hs.topology begins⟩
  | @proceed k c y step => exact ⟨k, c, y, rfl, .of_step hs.topology (hs.party k) step⟩
  | publish set =>
    refine ⟨0, _, _, hstill _, .of_quiet (hs.party 0) ⟨⟨rfl, rfl, rfl, rfl⟩, id⟩ ?_ id set⟩
    exact .of_pools_eq rfl
  | @use p t t' found step =>
    refine ⟨0, _, _, hstill _, .of_quiet (hs.party 0) ⟨⟨rfl, ?_, rfl, rfl⟩, id⟩ ?_ id hs.topology⟩
    · exact List.length_set ..
    · exact .set found (Stocking.Run.nil.snoc step)

theorem step (hs : Sound s) {a : Action} {s' : State} (h : Step s a s') : Sound s' := by
  obtain ⟨k, c, y, rfl, hmoved⟩ := hs.moved h
  exact hs.move hmoved

theorem run (hs : Sound s) {steps : List Transition} {s' : State} (h : Run s steps s') :
    Sound s' := by
  induction h with
  | nil => exact hs
  | snoc _ last ih => exact ih.step last

theorem of_run {config : ClientConfig} {steps : List Transition}
    (h : Run (Upkeep.start config) steps s) : Sound s :=
  (Sound.start config).run h

end Sound

end Upkeep

end Switchboard
