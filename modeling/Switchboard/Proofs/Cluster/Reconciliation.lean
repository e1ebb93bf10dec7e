import Switchboard.Proofs.Cluster.Invariant

/-!
# Applying topologies over whole runs

Between the decision about a topology and the return of the lock the manager goes over to the
topology, or nothing happens if the topology is too old.  Whatever else goes on, the pools of
addresses that stay are the same ones afterwards, and the epoch never goes back.

## Main definitions

- `Upkeep.Reconciled` — the work that applying a topology has to do
- `Upkeep.Reaches` — an epoch applied later

## Main statements

- `Upkeep.Reconciled.of_opening` — taking in the pools opened does that work
- `Upkeep.Reconciled.again` — the same topology changes no pool the second time
- `Upkeep.reconciliations_lawful` — every reconciliation of a run does its work
-/

namespace Switchboard

theorem ClientConfig.poolFault?_eq_none_iff {c : ClientConfig} :
    c.poolFault? = none ↔ 1 ≤ c.connections ∧ c.reconnectInterval ≠ .zero := by
  simp [poolFault?, connectionsFault?, Nat.one_le_iff_ne_zero]

namespace Upkeep

/-! ### What applying a topology comes to -/

/-- The site has gone over to a topology: `found` is what the decision was about. -/
structure WentOver (found : Site) (t : Topology) (report : Reconciliation) (left : Site) :
    Prop where
  /-- there is one pool for each address of the topology, and no other -/
  addresses : left.manager.addresses = t.addresses
  applied : left.manager.applied = some t.epoch
  epoch : left.manager.epoch = t.epoch
  /-- an address that stays keeps its pool -/
  kept : ∀ a ∈ found.manager.addresses, a ∈ t.addresses →
    left.manager.pool? a = found.manager.pool? a
  /-- an address added has a pool that was not there before -/
  fresh : ∀ a ∈ t.addresses, a ∉ found.manager.addresses →
    ∃ p, left.manager.pool? a = some p ∧ found.pools.length ≤ p ∧ p < left.pools.length
  /-- no more pools than necessary have been opened -/
  opened : left.pools.length = found.pools.length + report.added.length
  /-- the pools of addresses removed are in the background -/
  drained : left.drained = found.drained ++ found.manager.leaving report.removed
  reported : report.epoch = t.epoch ∧ report.stale = false
  added : ∀ a, a ∈ report.added ↔ a ∈ t.addresses ∧ a ∉ found.manager.addresses
  removed : ∀ a, a ∈ report.removed ↔ a ∈ found.manager.addresses ∧ a ∉ t.addresses
  sorted : Address.IsSet report.added ∧ Address.IsSet report.removed
  disjoint : report.added.Disjoint report.removed
  /-- nothing is opened or removed for the addresses that have pools already -/
  same : found.manager.addresses = t.addresses → left.manager.pools = found.manager.pools

/-- What applying a topology comes to. -/
structure Reconciled (found : Site) (t : Topology) (forced : Bool) (report : Reconciliation)
    (left : Site) : Prop where
  /-- a topology that is too old is reported as such and changes nothing -/
  stale : found.manager.Overtakes t forced → report = ⟨t.epoch, [], [], true⟩ ∧
    left.manager = found.manager ∧ left.pools.length = found.pools.length ∧
      left.drained = found.drained
  current : ¬found.manager.Overtakes t forced → WentOver found t report left

/-- A topology applied to what it has led to changes no pool. -/
theorem Reconciled.again {found left found' left' : Site} {t : Topology} {forced forced' : Bool}
    {report report' : Reconciliation} (h : Reconciled found t forced report left)
    (hcurrent : ¬found.manager.Overtakes t forced) (hbetween : found'.manager = left.manager)
    (h' : Reconciled found' t forced' report' left') :
    left'.manager.pools = found'.manager.pools ∧ left'.pools.length = found'.pools.length ∧
      left'.drained = found'.drained ∧ report'.added = [] ∧ report'.removed = [] := by
  by_cases hstale : found'.manager.Overtakes t forced'
  · obtain ⟨hreport, hmanager, hpools, hdrained⟩ := h'.stale hstale
    exact ⟨by rw [hmanager], hpools, hdrained, by rw [hreport], by rw [hreport]⟩
  have hwent := h'.current hstale
  have hsame : found'.manager.addresses = t.addresses := by
    rw [hbetween]
    exact (h.current hcurrent).addresses
  have hadded : report'.added = [] := by
    rw [List.eq_nil_iff_forall_not_mem]
    intro a ha
    obtain ⟨hin, hout⟩ := (hwent.added a).mp ha
    rw [hsame] at hout
    exact hout hin
  have hremoved : report'.removed = [] := by
    rw [List.eq_nil_iff_forall_not_mem]
    intro a ha
    obtain ⟨hin, hout⟩ := (hwent.removed a).mp ha
    rw [hsame] at hin
    exact hout hin
  refine ⟨hwent.same hsame, ?_, ?_, hadded, hremoved⟩
  · rw [hwent.opened, hadded, List.length_nil, Nat.add_zero]
  · rw [hwent.drained, hremoved]
    simp [Manager.leaving]

/-! ### The epoch -/

/-- If an epoch was applied before, one at least as late is applied after. -/
def Reaches (before after : Option UInt64) : Prop :=
  ∀ last, before = some last → ∃ now, after = some now ∧ last ≤ now

theorem Reaches.refl (epoch : Option UInt64) : Reaches epoch epoch :=
  fun last h => ⟨last, h, UInt64.le_refl last⟩

theorem Reaches.trans {a b c : Option UInt64} (h : Reaches a b) (h' : Reaches b c) :
    Reaches a c := by
  intro last ha
  obtain ⟨mid, hb, hle⟩ := h last ha
  obtain ⟨now, hc, hle'⟩ := h' mid hb
  exact ⟨now, hc, UInt64.le_trans hle hle'⟩

theorem Reaches.of_not_overtakes {m : Manager} {t : Topology} {forced : Bool}
    (h : ¬m.Overtakes t forced) : Reaches m.applied (some t.epoch) := by
  intro last hlast
  refine ⟨t.epoch, rfl, ?_⟩
  by_contra hlt
  exact h ⟨last, hlast, .inl (UInt64.not_le.mp hlt)⟩

theorem Effect.reaches {c c' : Site} {hand hand' : List ℕ} (h : Effect c hand c' hand') :
    Reaches c.manager.applied c'.manager.applied := by
  cases h with
  | calm calm => rw [calm.manager]; exact .refl _
  | installed opening => exact .of_not_overtakes opening.fresh
  | opened | handed | taken => exact .refl _

theorem Sound.reaches {s s' : State} (hs : Sound s) {run : List Transition} (h : Run s run s') :
    Reaches s.site.manager.applied s'.site.manager.applied := by
  induction h with
  | nil => exact .refl _
  | snoc init last ih =>
    obtain ⟨k, c, y, rfl, hmoved⟩ := (hs.run init).moved last
    exact ih.trans hmoved.effect.reaches

/-! ### What does not change -/

theorem Effect.config {c c' : Site} {hand hand' : List ℕ} (h : Effect c hand c' hand') :
    c'.manager.config = c.manager.config := by
  cases h with
  | calm calm => rw [calm.manager]
  | opened | installed | handed | taken => rfl

theorem config_of_run {config : ClientConfig} {run : List Transition} {s : State}
    (h : Run (start config) run s) : s.site.manager.config = config := by
  induction h with
  | nil => rfl
  | snoc init last ih =>
    obtain ⟨k, c, y, rfl, hmoved⟩ := (Sound.of_run init).moved last
    exact hmoved.effect.config.trans ih

/-- A manager that is open has been open all the time. -/
theorem Sound.open_of_step {s s' : State} (hs : Sound s) {a : Action} (h : Step s a s')
    (hopen : s'.site.manager.closed = false) : s.site.manager.closed = false := by
  obtain ⟨k, c, y, rfl, hmoved⟩ := hs.moved h
  by_contra hclosed
  have := hmoved.closed (Bool.of_not_eq_false hclosed)
  rw [State.move_site, this] at hopen
  cases hopen

/-! ### From the decision to the return of the lock -/

/-- Pools have been opened, and nothing else has been done. -/
structure Grown (found : Site) (opened : List (Address × ℕ)) (c : Site) : Prop where
  manager : c.manager = found.manager
  pools : c.pools.length = found.pools.length + opened.length
  drained : c.drained = found.drained
  fresh : ∀ e ∈ opened, found.pools.length ≤ e.2 ∧ e.2 < c.pools.length

/-- The pools opened take their places, and those of addresses removed are let go of: the site has
gone over to the topology. -/
theorem Reconciled.of_opening {found c : Site} {t : Topology} {forced : Bool}
    {added removed : List Address} {opened : List (Address × ℕ)}
    (hsorted : c.manager.IsSorted) (hvalid : c.manager.config.poolFault? = none)
    (hopening : Opening c t forced added removed [] opened) (hgrown : Grown found opened c) :
    Reconciled found t forced ⟨t.epoch, added, removed, false⟩
      { c with
        manager := c.manager.install t.epoch removed opened
        drained := c.drained ++ c.manager.leaving removed } := by
  have hfill := hopening.fills
  obtain ⟨set, fresh, rfl, rfl, progress, all, home⟩ := hopening
  have hall : opened.map (·.1) = c.manager.missing t := by simpa using all hvalid
  have hlength : opened.length = (c.manager.missing t).length := by
    rw [← hall, List.length_map]
  rw [hgrown.manager] at fresh
  refine ⟨fun hstale => absurd hstale fresh, fun _ => ?_⟩
  constructor
  case addresses => exact Manager.addresses_install hsorted set hall t.epoch
  case applied => rfl
  case epoch => rfl
  case kept =>
    intro a ha hta
    rw [← hgrown.manager] at ha ⊢
    exact Manager.pool?_install_of_mem hsorted set hfill ha hta t.epoch
  case fresh =>
    intro a hta ha
    rw [← hgrown.manager] at ha
    have hmissing : a ∈ opened.map (·.1) := by
      rw [hall]
      exact Manager.mem_missing.mpr ⟨hta, ha⟩
    obtain ⟨⟨b, p⟩, he, rfl⟩ := List.mem_map.mp hmissing
    refine ⟨p, ?_, hgrown.fresh _ he⟩
    rw [Manager.pool?_eq_some_iff (Manager.isSorted_install hsorted ..),
      Manager.mem_pools_install set hfill]
    exact .inr he
  case opened => rw [hgrown.pools, hlength]
  case drained => rw [hgrown.drained, hgrown.manager]
  case reported => exact ⟨rfl, rfl⟩
  case added => rw [← hgrown.manager]; exact fun _ => Manager.mem_missing
  case removed => rw [← hgrown.manager]; exact fun _ => Manager.mem_obsolete
  case sorted => exact ⟨Manager.isSet_missing set _, Manager.isSet_obsolete hsorted t⟩
  case disjoint =>
    intro a hadded hremoved
    exact (Manager.mem_obsolete.mp hremoved).2 (Manager.mem_missing.mp hadded).1
  case same =>
    intro hsame
    rw [← hgrown.manager] at hsame ⊢
    -- there was nothing to open
    have hnone : opened = [] := by
      rw [← List.length_eq_zero_iff, hlength, Manager.missing, hsame, List.length_eq_zero_iff,
        List.filter_eq_nil_iff]
      simp
    subst hnone
    exact Manager.install_same hsame t.epoch

/-- Of the site that is left only the manager, the number of pools and those in the background
matter. -/
theorem Reconciled.congr {found left left' : Site} {t : Topology} {forced : Bool}
    {report : Reconciliation} (h : Reconciled found t forced report left)
    (hmanager : left'.manager = left.manager) (hpools : left'.pools.length = left.pools.length)
    (hdrained : left'.drained = left.drained) : Reconciled found t forced report left' := by
  constructor
  · rw [hmanager, hpools, hdrained]
    exact h.stale
  intro hcurrent
  have hwent := h.current hcurrent
  constructor
  case addresses => rw [hmanager]; exact hwent.addresses
  case applied => rw [hmanager]; exact hwent.applied
  case epoch => rw [hmanager]; exact hwent.epoch
  case kept => rw [hmanager]; exact hwent.kept
  case fresh => rw [hmanager, hpools]; exact hwent.fresh
  case opened => rw [hpools]; exact hwent.opened
  case drained => rw [hdrained]; exact hwent.drained
  case reported => exact hwent.reported
  case added => exact hwent.added
  case removed => exact hwent.removed
  case sorted => exact hwent.sorted
  case disjoint => exact hwent.disjoint
  case same => rw [hmanager]; exact hwent.same

namespace Applying

/-- The topology that is applied. -/
def topology : Applying → Topology
  | .wanted t _ | .queued t _ | .opening t .. | .parting t .. => t

/-- Is a topology of the epoch applied last to be applied again? -/
def forced : Applying → Bool
  | .wanted _ forced | .queued _ forced | .opening _ forced .. | .parting _ forced .. => forced

/-- How much of the work has been done since the decision. -/
def Since (found c : Site) : Applying → Prop
  | .opening _ _ _ _ _ opened => Grown found opened c
  | .parting t forced report leaving =>
    Reconciled found t forced report { c with drained := c.drained ++ leaving }
  | _ => True

theorem Since.of_quiet {found c c' : Site} {work : Applying} (h : work.Since found c)
    (hquiet : Quiet c c') (hclosed : c'.manager.closed = c.manager.closed) :
    work.Since found c' := by
  have hmanager : c'.manager = c.manager := by rw [hquiet.manager, hclosed]
  cases work with
  | opening =>
    refine ⟨hmanager.trans h.manager, hquiet.pools.trans h.pools,
      hquiet.drained.trans h.drained, ?_⟩
    rw [hquiet.pools]
    exact h.fresh
  | parting t forced report leaving =>
    exact Reconciled.congr h hmanager hquiet.pools (by rw [hquiet.drained])
  | _ => trivial

/-- A step under the lock does its part of the work. -/
theorem Since.step {found c c' : Site} {k : ℕ} {seen : Option ℕ} {work work' : Applying}
    (hsorted : c.manager.IsSorted) (hvalid : c.manager.config.poolFault? = none)
    (hsound : (Party.applying seen work).Sound c k) (hholds : work.Holds)
    (h : work.Since found c) (hstep : Applying.Step c k work c' work') :
    work'.Since found c' ∧ work'.topology = work.topology ∧ work'.forced = work.forced := by
  cases hstep with
  | requested | ignored | stale | begun => exact hholds.elim
  | @opened stages t forced added removed a rest opened valid =>
    refine ⟨⟨h.manager, ?_, h.drained, ?_⟩, rfl, rfl⟩
    · simp only [List.length_append, List.length_singleton, h.pools, Nat.add_assoc]
    · intro e he
      rw [List.length_append, List.length_singleton]
      rcases List.mem_append.mp he with he | he
      · have := h.fresh e he
        omega
      · rw [List.mem_singleton.mp he]
        have := h.pools
        omega
  | failed invalid =>
    rw [hvalid] at invalid
    cases invalid
  | installed => exact ⟨.of_opening hsorted hvalid hsound.2 h, rfl, rfl⟩
  | @handed t forced report p rest =>
    refine ⟨Reconciled.congr h rfl rfl ?_, rfl, rfl⟩
    rw [List.append_assoc]
    rfl

/-- The work begins with a decision. -/
theorem since_of_decision {c c' : Site} {k : ℕ} {work work' : Applying}
    (hopen : c.manager.closed = false) (hidle : ¬work.Holds) (hholds : work'.Holds)
    (hstep : Applying.Step c k work c' work') :
    work'.Since c c' ∧ c.lock.isHeldBy k = true ∧
      work = .queued work'.topology work'.forced := by
  cases hstep with
  | requested => exact hholds.elim
  | ignored granted decision =>
    rw [Manager.decide_eq_ignore_iff, hopen] at decision
    cases decision
  | @stale t forced granted decision =>
    obtain ⟨-, hover⟩ := Manager.decide_eq_stale_iff.mp decision
    refine ⟨⟨fun _ => ⟨rfl, rfl, rfl, List.append_nil _⟩, fun h => absurd hover h⟩, granted, rfl⟩
  | begun granted decision => exact ⟨⟨rfl, rfl, rfl, nofun⟩, granted, rfl⟩
  | opened | failed | installed | handed => exact absurd trivial hidle

end Applying

/-- Whoever applies a topology under the lock decided about it at some moment, and since then has
done the work alone. -/
theorem exists_found {config : ClientConfig} (hvalid : config.poolFault? = none)
    {run : List Transition} {s : State} (h : Run (start config) run s)
    (hopen : s.site.manager.closed = false) {k : ℕ} {seen : Option ℕ} {work : Applying}
    (hk : s.parties k = .applying seen work) (hholds : work.Holds) :
    ∃ before after found, run = before ++ after ∧ Run (start config) before found ∧
      Run found after s ∧ found.site.lock.isHeldBy k = true ∧
      found.parties k = .applying seen (.queued work.topology work.forced) ∧
      work.Since found.site s.site := by
  induction h generalizing work with
  | nil => cases hk
  | @snoc run s a s' init last ih =>
    have hs := Sound.of_run init
    have hopens := hs.open_of_step last hopen
    -- somebody else moves
    have hstill : ∀ c, s.parties k = .applying seen work → s'.site = c → Quiet s.site c →
        ∃ before after found, run ++ [⟨s, a, s'⟩] = before ++ after ∧
          Run (start config) before found ∧ Run found after s' ∧
          found.site.lock.isHeldBy k = true ∧
          found.parties k = .applying seen (.queued work.topology work.forced) ∧
          work.Since found.site s'.site := by
      intro c hsame hsite hquiet
      obtain ⟨before, after, found, rfl, hbefore, hafter, hheld, hfound, hsince⟩ :=
        ih hopens hsame hholds
      refine ⟨before, after ++ [⟨s, a, s'⟩], found, List.append_assoc .., hbefore,
        hafter.snoc last, hheld, hfound, ?_⟩
      rw [hsite] at hopen ⊢
      exact hsince.of_quiet hquiet (hopen.trans hopens.symm)
    have hheldk : s.parties k = .applying seen work → s.site.lock.isHeldBy k = true := by
      intro hsame
      have hsound := hs.party k
      rw [hsame] at hsound
      exact hsound.isHeldBy hholds
    cases last with
    | @call j call c y idle begins =>
      by_cases hj : k = j
      · subst hj
        rw [State.move_self] at hk
        subst hk
        cases begins <;> exact hholds.elim
      · rw [State.move_of_ne hj] at hk
        have hmoved := Moved.of_begins (k := j) hs.topology begins
        refine hstill c hk rfl (hmoved.quiet.resolve_right fun hheld => ?_)
        exact hj (Lock.eq_of_isHeldBy (hheldk hk) hheld)
    | @proceed j c y step =>
      by_cases hj : k = j
      · subst hj
        rw [State.move_self] at hk
        subst hk
        generalize hx : s.parties k = x at step ih
        have hsound := hs.party k
        rw [hx] at hsound
        have hlast : Step s (.proceed k) _ := .of_party hx step
        cases step with
        | looked => exact hholds.elim
        | @applying _ work₀ _ _ step =>
          by_cases hbefore : work₀.Holds
          · obtain ⟨before, after, found, rfl, hrun, hafter, hheld, hfound, hsince⟩ :=
              ih hopens rfl hbefore
            obtain ⟨hnext, htopology, hforced⟩ := hsince.step hs.sorted
              (by rwa [config_of_run init]) hsound hbefore step
            refine ⟨before, _, found, List.append_assoc .., hrun, hafter.snoc hlast, hheld, ?_,
              hnext⟩
            rw [htopology, hforced]
            exact hfound
          · obtain ⟨hsince, hheld, rfl⟩ :=
              Applying.since_of_decision hopens hbefore hholds step
            exact ⟨run, _, s, rfl, init, Run.single hlast, hheld, hx, hsince⟩
      · rw [State.move_of_ne hj] at hk
        have hmoved := Moved.of_step hs.topology (hs.party j) step
        refine hstill c hk rfl (hmoved.quiet.resolve_right fun hheld => ?_)
        exact hj (Lock.eq_of_isHeldBy (hheldk hk) hheld)
    | publish => exact hstill _ hk rfl ⟨⟨rfl, rfl, rfl, rfl⟩, id⟩
    | use => exact hstill _ hk rfl ⟨⟨rfl, List.length_set .., rfl, rfl⟩, id⟩

/-- An answer is given by a party that has done its work. -/
theorem exists_answering {config : ClientConfig} {run : List Transition} {s : State}
    (h : Run (start config) run s) {k : ℕ} {t : Topology} {forced : Bool}
    {report : Reconciliation} (hk : s.parties k = .answered t forced report) :
    ∃ x ∈ run, x.before.parties k = .applying none (.parting t forced report []) := by
  induction h with
  | nil => cases hk
  | @snoc run s a s' init last ih =>
    have hstill : s.parties k = .answered t forced report → ∃ x ∈ run ++ [⟨s, a, s'⟩],
        x.before.parties k = .applying none (.parting t forced report []) := by
      intro hsame
      obtain ⟨x, hx, hbefore⟩ := ih hsame
      exact ⟨x, List.mem_append_left _ hx, hbefore⟩
    cases last with
    | @call j call c y idle begins =>
      by_cases hj : k = j
      · subst hj
        rw [State.move_self] at hk
        subst hk
        cases begins
      · exact hstill (by rwa [State.move_of_ne hj] at hk)
    | @proceed j c y step =>
      by_cases hj : k = j
      · subst hj
        rw [State.move_self] at hk
        subst hk
        generalize hx : s.parties k = x at step
        cases step
        exact ⟨_, List.mem_append_right _ (List.mem_singleton_self _), hx⟩
      · exact hstill (by rwa [State.move_of_ne hj] at hk)
    | publish | use => exact hstill hk

/-- Over a whole run on an open manager the epoch applied never decreases.  Every reconciliation, of
a topology given or of the provider's, has decided about some moment of the run and done since then
what there was to do; the answer that its caller gets is the report about that.  The same topology
changes no pool the second time. -/
theorem reconciliations_lawful {config : ClientConfig} (hconnections : 1 ≤ config.connections)
    (hinterval : config.reconnectInterval ≠ .zero)
    {run : List Transition} {s : State} (h : Run (start config) run s)
    (hopen : s.site.manager.closed = false) :
    (∀ before after mid, run = before ++ after → Run (start config) before mid →
      Run mid after s → Reaches mid.site.manager.applied s.site.manager.applied) ∧
    (∀ k seen t forced report, s.parties k = .applying seen (.parting t forced report []) →
      ∃ before after found, run = before ++ after ∧ Run (start config) before found ∧
        Run found after s ∧ found.site.lock.isHeldBy k = true ∧
        found.parties k = .applying seen (.queued t forced) ∧
        Reconciled found.site t forced report s.site) ∧
    (∀ k t forced report, s.parties k = .answered t forced report →
      ∃ x ∈ run, x.before.parties k = .applying none (.parting t forced report [])) ∧
    ∀ found left found' left' t forced forced' report report',
      Reconciled found t forced report left → ¬found.manager.Overtakes t forced →
      found'.manager = left.manager → Reconciled found' t forced' report' left' →
      left'.manager.pools = found'.manager.pools ∧ left'.pools.length = found'.pools.length ∧
        left'.drained = found'.drained ∧ report'.added = [] ∧ report'.removed = [] := by
  refine ⟨?_, ?_, fun k t forced report => exists_answering h, ?_⟩
  · intro before after mid _ hbefore hafter
    exact (Sound.of_run hbefore).reaches hafter
  · intro k seen t forced report hk
    obtain ⟨before, after, found, hrun, hbefore, hafter, hheld, hfound, hsince⟩ :=
      exists_found (ClientConfig.poolFault?_eq_none_iff.mpr ⟨hconnections, hinterval⟩) h hopen hk
        trivial
    refine ⟨before, after, found, hrun, hbefore, hafter, hheld, hfound, ?_⟩
    simpa [Applying.Since] using hsince
  · intro found left found' left' t forced forced' report report' hfirst hcurrent hbetween hsecond
    exact hfirst.again hcurrent hbetween hsecond

/-- A refresh reads the first topology, and asks for the lock only after another one has applied the
second: it changes nothing. -/
theorem reconciliations_lawful_late_refresh :
    ∃ run s found, Run (start {}) run s ∧ s.site.manager.closed = false ∧
      s.parties 0 = .applying none
        (.parting (.ofList [⟨"a", 3301⟩] 1) true ⟨1, [], [], true⟩ []) ∧
      Reconciled found (.ofList [⟨"a", 3301⟩] 1) true ⟨1, [], [], true⟩ s.site := by
  have nothing : Run (start {}) [] (start {}) := .nil
  have published := nothing.snoc
    (.publish (t := .ofList [⟨"a", 3301⟩] 1) (Topology.isSet_ofList ..))
  have read := published.snoc (.call (k := 0) rfl .refresh)
  have changed := read.snoc (.publish (t := .ofList [⟨"b", 3301⟩] 2) (Topology.isSet_ofList ..))
  have overtaken := changed.snoc (.call (k := 1) rfl .refresh)
  have queued := overtaken.snoc (.of_party (k := 1) rfl (.applying .requested))
  have begun := queued.snoc (.of_party (k := 1) rfl (.applying (.begun rfl rfl)))
  have opened := begun.snoc (.of_party (k := 1) rfl (.applying (.opened [] rfl)))
  have installed := opened.snoc (.of_party (k := 1) rfl (.applying .installed))
  have answered := installed.snoc (.of_party (k := 1) rfl .answered)
  have late := answered.snoc (.of_party (k := 0) rfl (.applying .requested))
  have stale := late.snoc (.of_party (k := 0) rfl (.applying (.stale rfl rfl)))
  obtain ⟨-, hall, -⟩ := reconciliations_lawful (by decide) (by decide) stale rfl
  obtain ⟨_, _, found, _, _, _, _, _, hdone⟩ := hall 0 _ _ _ _ rfl
  exact ⟨_, _, found.site, stale, rfl, rfl, hdone⟩

end Upkeep

end Switchboard
