import Switchboard.Discovery
import Switchboard.Proofs.Cluster.Reconciliation

/-!
# No topology is lost

A provider publishes a topology under the next epoch whenever it finds different addresses.  Whoever
follows it may wake late and finds the latest topology only, and a refresh may come with an older
one; still the manager never goes back, and a follower that has nothing to do has brought it to the
provider's topology.

## Main definitions

- `Upkeep.Published` — a topology and its version, at some moment of a run
- `Upkeep.Transition.Follows` — a step in which nobody gives the manager a topology of his own
- `Upkeep.Party.Informed` — where a party has its topology from
- `Upkeep.Tracked` — what holds in a run of such steps

## Main statements

- `Discovery.poll_cases` — what a poll publishes
- `Upkeep.Tracked.of_run` — the invariant
- `Upkeep.no_update_is_lost` — the manager follows the provider
-/

namespace Switchboard

/-! ### The provider -/

namespace Discovery

/-- A set of addresses that differs from the one before is published under the next epoch. -/
theorem publish_eq {w w' : Watch Topology} {addresses : List Address}
    (h : publish w addresses = (true, w')) : w' = w.set ⟨addresses, w.value.epoch + 1⟩ := by
  unfold publish Topology.publish at h
  by_cases hsame : w.value.addresses = addresses
  · rw [if_pos hsame] at h
    cases h
  · rw [if_neg hsame] at h
    cases h
    rfl

/-- A poll publishes nothing, or a set of addresses. -/
theorem poll_cases (c : DiscoveryConfig) (w : Watch Topology) (answer : Except Fault Octets) :
    (poll c w answer).2 = w ∨
      ∃ addresses, Address.IsSet addresses ∧ publish w addresses = (true, (poll c w answer).2) := by
  unfold poll
  cases hfetched : fetched c answer with
  | error f => exact .inl rfl
  | ok addresses =>
    have hset : Address.IsSet addresses := by
      unfold fetched at hfetched
      split at hfetched
      · cases hfetched
      · exact Topology.isSet_of_parseNodes hfetched
    cases addresses with
    | nil => exact .inl rfl
    | cons a rest =>
      cases hpublish : publish w (a :: rest) with
      | mk changed w' =>
        simp only [hpublish]
        cases changed with
        | true => exact .inr ⟨_, hset, hpublish⟩
        | false =>
          unfold publish at hpublish
          split at hpublish <;> cases hpublish
          exact .inl rfl

end Discovery

namespace Upkeep

/-! ### What has been published -/

/-- The provider had published this at some moment of the run. -/
def Published (run : List Transition) (w : Watch Topology) : Prop :=
  w = .start .empty ∨ ∃ x ∈ run, x.after.site.topology = w

/-- The provider discovers addresses, and the manager is given no topology but the provider's. -/
def Transition.Follows (x : Transition) : Prop :=
  match x.action with
  | .call _ (.reconcile _) => False
  | .publish t =>
    ∃ addresses, Discovery.publish x.before.site.topology addresses =
      (true, x.before.site.topology.set t)
  | _ => True

/-- One more step in which the provider is followed. -/
theorem Run.snoc_follows {start : State} {run : List Transition} {s s' : State} {a : Action}
    (h : Run start run s ∧ ∀ x ∈ run, x.Follows) (last : Step s a s')
    (hlast : Transition.Follows ⟨s, a, s'⟩) :
    Run start (run ++ [⟨s, a, s'⟩]) s' ∧ ∀ x ∈ run ++ [⟨s, a, s'⟩], x.Follows := by
  refine ⟨h.1.snoc last, fun x hx => ?_⟩
  rcases List.mem_append.mp hx with hx | hx
  · exact h.2 x hx
  · rw [List.mem_singleton.mp hx]
    exact hlast

theorem Published.append {run : List Transition} {w : Watch Topology} (h : Published run w)
    (later : List Transition) : Published (run ++ later) w :=
  h.imp_right fun ⟨x, hx, hw⟩ => ⟨x, List.mem_append_left _ hx, hw⟩

theorem published_snoc {run : List Transition} {x : Transition} {w : Watch Topology} :
    Published (run ++ [x]) w ↔ Published run w ∨ x.after.site.topology = w := by
  constructor
  · rintro (h | ⟨y, hy, hw⟩)
    · exact .inl (.inl h)
    · rcases List.mem_append.mp hy with hy | hy
      · exact .inl (.inr ⟨y, hy, hw⟩)
      · rw [List.mem_singleton.mp hy] at hw
        exact .inr hw
  · rintro (h | h)
    · exact h.append _
    · exact .inr ⟨x, List.mem_append_right _ (List.mem_singleton_self x), h⟩

theorem topology_of_step {s s' : State} {a : Action} (h : Step s a s') :
    s'.site.topology = s.site.topology ∨
      ∃ t, a = .publish t ∧ s'.site.topology = s.site.topology.set t := by
  cases h with
  | call idle begins => cases begins <;> exact .inl rfl
  | proceed step => exact .inl step.topology_eq
  | publish => exact .inr ⟨_, rfl, rfl⟩
  | use => exact .inl rfl

/-- What is known about everything published so far: the epoch is the version, as far as epochs go,
and each version is one topology. -/
structure Numbered (run : List Transition) (s : State) : Prop where
  latest : Published run s.site.topology
  le : ∀ w, Published run w → w.version ≤ s.site.topology.version
  epoch : ∀ w, Published run w → w.value.epoch = UInt64.ofNat w.version
  unique : ∀ w w', Published run w → Published run w' → w.version = w'.version → w = w'

theorem Numbered.start (config : ClientConfig) : Numbered [] (start config) := by
  have honly : ∀ w, Published [] w → w = .start .empty := by
    rintro w (h | ⟨x, hx, -⟩)
    · exact h
    · cases hx
  constructor
  · exact .inl rfl
  · intro w hw
    rw [honly w hw]
    exact Nat.le_refl _
  · intro w hw
    rw [honly w hw]
    rfl
  · intro w w' hw hw' _
    rw [honly w hw, honly w' hw']

theorem Numbered.still {run : List Transition} {s : State} {x : Transition} (h : Numbered run s)
    (hsame : x.after.site.topology = s.site.topology) : Numbered (run ++ [x]) x.after := by
  have hiff : ∀ w, Published (run ++ [x]) w ↔ Published run w := by
    intro w
    rw [published_snoc, hsame, or_iff_left_iff_imp]
    rintro rfl
    exact h.latest
  constructor
  · rw [hiff, hsame]
    exact h.latest
  · simpa only [hiff, hsame] using h.le
  · simpa only [hiff] using h.epoch
  · simpa only [hiff] using h.unique

/-- A new version is later than all others, and so is its epoch. -/
theorem Numbered.publish {run : List Transition} {s : State} {x : Transition} (h : Numbered run s)
    {addresses : List Address}
    (hnew : x.after.site.topology =
      s.site.topology.set ⟨addresses, s.site.topology.value.epoch + 1⟩) :
    Numbered (run ++ [x]) x.after := by
  have hversion : x.after.site.topology.version = s.site.topology.version + 1 := by
    rw [hnew]
    rfl
  have hlater : ∀ w, Published run w → w.version < x.after.site.topology.version := by
    intro w hw
    have := h.le w hw
    omega
  constructor
  · exact published_snoc.mpr (.inr rfl)
  · intro w hw
    rcases published_snoc.mp hw with hw | rfl
    · exact Nat.le_of_lt (hlater w hw)
    · exact Nat.le_refl _
  · intro w hw
    rcases published_snoc.mp hw with hw | rfl
    · exact h.epoch w hw
    · rw [hversion, hnew, UInt64.ofNat_add, ← h.epoch _ h.latest]
      rfl
  · intro w w' hw hw' heq
    rcases published_snoc.mp hw with hw | rfl <;> rcases published_snoc.mp hw' with hw' | rfl
    · exact h.unique w w' hw hw' heq
    · exact absurd heq (Nat.ne_of_lt (hlater w hw))
    · exact absurd heq.symm (Nat.ne_of_lt (hlater w' hw'))
    · rfl

theorem Numbered.of_run {config : ClientConfig} {run : List Transition} {s : State}
    (h : Run (Upkeep.start config) run s) (hfollows : ∀ x ∈ run, x.Follows) :
    Numbered run s := by
  induction h with
  | nil => exact .start config
  | @snoc run s a s' init last ih =>
    have hrun := ih fun x hx => hfollows x (List.mem_append_left _ hx)
    rcases topology_of_step last with hsame | ⟨t, rfl, hset⟩
    · exact hrun.still hsame
    · have hstep : Transition.Follows ⟨s, .publish t, s'⟩ :=
        hfollows _ (List.mem_append_right _ (List.mem_singleton_self _))
      obtain ⟨addresses, hpublish⟩ := hstep
      exact hrun.publish (hset.trans (Discovery.publish_eq hpublish))

/-! ### What the parties have read -/

/-- The decision has been made, and what there was to change is changed. -/
def Applying.Decided : Applying → Prop
  | .parting .. => True
  | _ => False

/-- A party applies what the provider had published when it looked.  When that is done, and while a
follower waits, the manager has applied it or something newer. -/
def Party.Informed (run : List Transition) (applied : Option UInt64) : Party → Prop
  | .applying seen work =>
    (∃ w, Published run w ∧ w.value = work.topology ∧ ∀ v, seen = some v → w.version = v) ∧
      (work.Decided → Reaches (some work.topology.epoch) applied)
  | .waiting seen =>
    ∃ w, Published run w ∧ w.version = seen ∧ Reaches (some w.value.epoch) applied
  | _ => True

namespace Party.Informed

variable {run : List Transition}

theorem mono {applied applied' : Option UInt64} {x : Party} (h : x.Informed run applied)
    (hreaches : Reaches applied applied') (later : List Transition) :
    x.Informed (run ++ later) applied' := by
  cases x with
  | applying seen work =>
    obtain ⟨⟨w, hw, hread⟩, hdecided⟩ := h
    exact ⟨⟨w, hw.append later, hread⟩, fun hwork => (hdecided hwork).trans hreaches⟩
  | waiting seen =>
    obtain ⟨w, hw, hseen, happlied⟩ := h
    exact ⟨w, hw.append later, hseen, happlied.trans hreaches⟩
  | _ => trivial

theorem begins {c c' : Site} {call : Call} {y : Party} (hlatest : Published run c.topology)
    (hcall : ∀ t, call ≠ .reconcile t) (h : call.Begins c c' y) :
    y.Informed run c'.manager.applied := by
  cases h with
  | reconcile => exact absurd rfl (hcall _)
  | refresh => exact ⟨⟨c.topology, hlatest, rfl, nofun⟩, False.elim⟩
  | close | closeAgain | follow => trivial

theorem step {c c' : Site} {k : ℕ} {x y : Party} (h : x.Informed run c.manager.applied)
    (hlatest : Published run c.topology) (hopen : c.manager.closed = false)
    (hstep : Party.Step c k x c' y) : y.Informed run c'.manager.applied := by
  cases hstep with
  | applying step =>
    cases step with
    | requested | begun | opened | failed => exact ⟨h.1, False.elim⟩
    | ignored granted decision =>
      rw [Manager.decide_eq_ignore_iff, hopen] at decision
      cases decision
    | @stale t forced granted decision =>
      obtain ⟨-, last, hlast, hover⟩ := Manager.decide_eq_stale_iff.mp decision
      refine ⟨h.1, fun _ epoch hepoch => ⟨last, hlast, ?_⟩⟩
      cases hepoch
      rcases hover with hlt | ⟨heq, -⟩
      · exact UInt64.le_of_lt hlt
      · exact UInt64.le_of_eq heq
    | installed => exact ⟨h.1, fun _ => .refl _⟩
    | handed => exact h
  | applied =>
    obtain ⟨⟨w, hw, hvalue, hseen⟩, hdecided⟩ := h
    refine ⟨w, hw, hseen _ rfl, ?_⟩
    rw [hvalue]
    exact hdecided trivial
  | looked => exact ⟨⟨c.topology, hlatest, rfl, fun v hv => Option.some.inj hv⟩, False.elim⟩
  | answered | woken | stopped | closing | closed => trivial

end Party.Informed

/-- Beginning a call changes nothing about what is applied. -/
theorem Call.Begins.applied_eq {c c' : Site} {call : Call} {y : Party} (h : call.Begins c c' y) :
    c'.manager.applied = c.manager.applied ∧ c'.manager.addresses = c.manager.addresses := by
  cases h with
  | close first =>
    unfold Manager.beginClose? at first
    split at first <;> cases first
    exact ⟨rfl, rfl⟩
  | _ => exact ⟨rfl, rfl⟩

theorem Party.Step.applied_cases {c c' : Site} {k : ℕ} {x y : Party}
    (hsorted : c.manager.IsSorted) (hvalid : c.manager.config.poolFault? = none)
    (hopen : c.manager.closed = false) (hsound : x.Sound c k) (h : Party.Step c k x c' y) :
    (c'.manager.applied = c.manager.applied ∧ c'.manager.addresses = c.manager.addresses) ∨
      ∃ seen work, x = .applying seen work ∧ c'.manager.applied = some work.topology.epoch ∧
        c'.manager.addresses = work.topology.addresses := by
  cases h with
  | @applying seen _ _ _ step =>
    cases step with
    | @installed t forced added removed opened =>
      obtain ⟨-, hopening⟩ := hsound
      have hall : opened.map (·.1) = c.manager.missing t := by
        rw [← hopening.missing, ← hopening.all hvalid, List.append_nil]
      refine .inr ⟨seen, _, rfl, rfl, ?_⟩
      rw [hopening.obsolete]
      exact Manager.addresses_install hsorted hopening.set hall t.epoch
    | _ => exact .inl ⟨rfl, rfl⟩
  | closing step =>
    -- the manager of a party that sweeps is closed
    have hclosed := hsound.closed trivial
    rw [hopen] at hclosed
    cases hclosed
  | _ => exact .inl ⟨rfl, rfl⟩

/-- The manager's addresses change only when they become those of the topology that a party applies,
along with the epoch. -/
theorem Sound.applied_cases {s s' : State} {a : Action} (hs : Sound s)
    (hconfig : s.site.manager.config.poolFault? = none) (hopen : s.site.manager.closed = false)
    (h : Step s a s') :
    (s'.site.manager.applied = s.site.manager.applied ∧
        s'.site.manager.addresses = s.site.manager.addresses) ∨
      ∃ k seen work, s.parties k = .applying seen work ∧
        s'.site.manager.applied = some work.topology.epoch ∧
        s'.site.manager.addresses = work.topology.addresses := by
  cases h with
  | call idle begins => exact .inl begins.applied_eq
  | proceed step =>
    exact (step.applied_cases hs.sorted hconfig hopen (hs.party _)).imp_right fun h => ⟨_, h⟩
  | publish | use => exact .inl ⟨rfl, rfl⟩

/-- Every party stays informed, the one that takes the step and the others. -/
theorem Sound.informed {run : List Transition} {s s' : State} {a : Action}
    (hs : Sound s) (h : ∀ k, (s.parties k).Informed run s.site.manager.applied)
    (hlatest : Published run s.site.topology) (hopen : s.site.manager.closed = false)
    (hfollows : Transition.Follows ⟨s, a, s'⟩) (last : Step s a s') (k : ℕ) :
    (s'.parties k).Informed (run ++ [⟨s, a, s'⟩]) s'.site.manager.applied := by
  have hreaches := hs.reaches (Run.single last)
  cases last with
  | @call j call c y idle begins =>
    have hcall : ∀ t, call ≠ .reconcile t := by
      rintro t rfl
      exact hfollows
    by_cases hk : k = j
    · subst hk
      rw [State.move_self]
      exact (Party.Informed.begins hlatest hcall begins).mono (.refl _) _
    · rw [State.move_of_ne hk]
      exact (h k).mono hreaches _
  | @proceed j c y step =>
    by_cases hk : k = j
    · subst hk
      rw [State.move_self]
      exact ((h k).step hlatest hopen step).mono (.refl _) _
    · rw [State.move_of_ne hk]
      exact (h k).mono hreaches _
  | publish | use => exact (h k).mono hreaches _

/-! ### The invariant -/

/-- What holds as long as the manager is given no topology but the provider's. -/
structure Tracked (run : List Transition) (s : State) : Prop where
  /-- the manager's addresses were published under the epoch applied -/
  applied : ∀ e, s.site.manager.applied = some e →
    ∃ w, Published run w ∧ w.value.epoch = e ∧ s.site.manager.addresses = w.value.addresses
  informed : ∀ k, (s.parties k).Informed run s.site.manager.applied

theorem Tracked.of_run {config : ClientConfig} (hvalid : config.poolFault? = none)
    {run : List Transition} {s : State} (h : Run (start config) run s)
    (hfollows : ∀ x ∈ run, x.Follows) (hopen : s.site.manager.closed = false) :
    Tracked run s := by
  induction h with
  | nil => exact ⟨nofun, fun _ => trivial⟩
  | @snoc run s a s' init last ih =>
    have hinit : ∀ x ∈ run, x.Follows := fun x hx => hfollows x (List.mem_append_left _ hx)
    have hlast : Transition.Follows ⟨s, a, s'⟩ :=
      hfollows _ (List.mem_append_right _ (List.mem_singleton_self _))
    have hs := Sound.of_run init
    -- a manager that is open now was open all along
    have hopens := hs.open_of_step last hopen
    have hrun := ih hinit hopens
    have hlatest := (Numbered.of_run init hinit).latest
    refine ⟨fun e he => ?_, hs.informed hrun.informed hlatest hopens hlast last⟩
    rcases hs.applied_cases (by rwa [config_of_run init]) hopens last with
      ⟨happlied, haddresses⟩ | ⟨k, seen, work, hx, happlied, haddresses⟩
    · obtain ⟨w, hw, hepoch, hsame⟩ := hrun.applied e (happlied ▸ he)
      exact ⟨w, hw.append _, hepoch, haddresses.trans hsame⟩
    · have hinformed := hrun.informed k
      rw [hx] at hinformed
      obtain ⟨⟨w, hw, hvalue, -⟩, -⟩ := hinformed
      refine ⟨w, hw.append _, ?_, by rw [haddresses, hvalue]⟩
      rw [hvalue]
      exact Option.some.inj (happlied.symm.trans he)

/-! ### The manager follows the provider -/

/-- Fewer changes than there are epochs: what has been published is known by its epoch. -/
theorem Numbered.eq_of_epoch {run : List Transition} {s : State} (h : Numbered run s)
    (hfew : s.site.topology.version < Nat.pow 2 64) {w w' : Watch Topology}
    (hw : Published run w) (hw' : Published run w') (heq : w.value.epoch = w'.value.epoch) :
    w = w' := by
  apply h.unique w w' hw hw'
  have hlt := Nat.lt_of_le_of_lt (h.le w hw) hfew
  have hlt' := Nat.lt_of_le_of_lt (h.le w' hw') hfew
  have hnat := congrArg UInt64.toNat heq
  rwa [h.epoch w hw, h.epoch w' hw', UInt64.toNat_ofNat_of_lt' hlt,
    UInt64.toNat_ofNat_of_lt' hlt'] at hnat

/-- Nothing that has been published is newer than what the provider publishes now. -/
theorem Numbered.epoch_le {run : List Transition} {s : State} (h : Numbered run s)
    (hfew : s.site.topology.version < Nat.pow 2 64) {w : Watch Topology} (hw : Published run w) :
    w.value.epoch ≤ s.site.topology.value.epoch := by
  have hle := h.le w hw
  rw [h.epoch w hw, h.epoch _ h.latest, UInt64.le_iff_toNat_le,
    UInt64.toNat_ofNat_of_lt' (Nat.lt_of_le_of_lt hle hfew), UInt64.toNat_ofNat_of_lt' hfew]
  exact hle

/-- As long as an open manager is given no topology but the provider's, the epoch applied never
decreases, and the addresses with a pool have been published under it.  Unless the provider runs out
of epochs, nothing else has been published under it, and when a follower waits with nothing new to
see, the addresses and the epoch are the provider's. -/
theorem no_update_is_lost {config : ClientConfig} (hconnections : 1 ≤ config.connections)
    (hinterval : config.reconnectInterval ≠ .zero)
    {run : List Transition} {s : State} (h : Run (start config) run s)
    (hfollows : ∀ x ∈ run, x.Follows) (hopen : s.site.manager.closed = false) :
    (∀ before after mid, run = before ++ after → Run (start config) before mid →
      Run mid after s → Reaches mid.site.manager.applied s.site.manager.applied) ∧
    (∀ e, s.site.manager.applied = some e →
      ∃ w, Published run w ∧ w.value.epoch = e ∧ s.site.manager.addresses = w.value.addresses) ∧
    (s.site.topology.version < Nat.pow 2 64 →
      (∀ e, s.site.manager.applied = some e → ∀ w, Published run w → w.value.epoch = e →
        s.site.manager.addresses = w.value.addresses) ∧
      ∀ k seen, s.parties k = .waiting seen → s.site.topology.isUnseen seen = false →
        s.site.manager.applied = some s.site.topology.value.epoch ∧
          s.site.manager.addresses = s.site.topology.value.addresses) := by
  have hnumbered := Numbered.of_run h hfollows
  have hvalid := ClientConfig.poolFault?_eq_none_iff.mpr ⟨hconnections, hinterval⟩
  have htracked := Tracked.of_run hvalid h hfollows hopen
  refine ⟨?_, htracked.applied, fun hfew => ?_⟩
  · intro before after mid _ hbefore hafter
    exact (Sound.of_run hbefore).reaches hafter
  have hpublished : ∀ e, s.site.manager.applied = some e → ∀ w, Published run w →
      w.value.epoch = e → s.site.manager.addresses = w.value.addresses := by
    intro e he w hw hepoch
    obtain ⟨w', hw', hepoch', hsame⟩ := htracked.applied e he
    rw [hnumbered.eq_of_epoch hfew hw hw' (hepoch.trans hepoch'.symm)]
    exact hsame
  refine ⟨hpublished, fun k seen hk hseen => ?_⟩
  have hinformed := htracked.informed k
  rw [hk] at hinformed
  obtain ⟨w, hw, hversion, hreaches⟩ := hinformed
  -- the version seen is the latest, so what was applied is at least as new as all there is
  have hlatest : w = s.site.topology := by
    apply hnumbered.unique w _ hw hnumbered.latest
    rw [hversion]
    simpa [Watch.isUnseen] using hseen
  obtain ⟨now, hnow, hle⟩ := hreaches _ rfl
  obtain ⟨w', hw', hepoch', -⟩ := htracked.applied now hnow
  have hcurrent : now = s.site.topology.value.epoch := by
    apply UInt64.le_antisymm
    · rw [← hepoch']
      exact hnumbered.epoch_le hfew hw'
    · rw [← hlatest]
      exact hle
  rw [← hcurrent]
  exact ⟨hnow, hpublished now hnow _ hnumbered.latest hcurrent.symm⟩

/-- While a follower applies the first topology two more are published.  It wakes up once, and skips
the second. -/
theorem no_update_is_lost_skipped_version :
    ∃ run s, Run (start {}) run s ∧ (∀ x ∈ run, x.Follows) ∧ s.site.manager.closed = false ∧
      s.site.topology.version = 3 ∧ s.parties 0 = .waiting 3 ∧ s.site.manager.applied = some 3 ∧
      s.site.manager.addresses = [⟨"c", 3301⟩] := by
  have nothing : Run (start {}) [] (start {}) ∧ ∀ x ∈ ([] : List Transition), x.Follows :=
    ⟨.nil, List.forall_mem_nil _⟩
  have first := Run.snoc_follows nothing
    (.publish (t := .ofList [⟨"a", 3301⟩] 1) (Topology.isSet_ofList ..)) ⟨[⟨"a", 3301⟩], rfl⟩
  have called := Run.snoc_follows first (.call (k := 0) rfl .follow) trivial
  have looked := Run.snoc_follows called (.of_party (k := 0) rfl .looked) trivial
  have second := Run.snoc_follows looked
    (.publish (t := .ofList [⟨"b", 3301⟩] 2) (Topology.isSet_ofList ..)) ⟨[⟨"b", 3301⟩], rfl⟩
  have third := Run.snoc_follows second
    (.publish (t := .ofList [⟨"c", 3301⟩] 3) (Topology.isSet_ofList ..)) ⟨[⟨"c", 3301⟩], rfl⟩
  have queued := Run.snoc_follows third (.of_party (k := 0) rfl (.applying .requested)) trivial
  have begun := Run.snoc_follows queued
    (.of_party (k := 0) rfl (.applying (.begun rfl rfl))) trivial
  have opened := Run.snoc_follows begun (.of_party (k := 0) rfl (.applying (.opened [] rfl))) trivial
  have installed := Run.snoc_follows opened (.of_party (k := 0) rfl (.applying .installed)) trivial
  have applied := Run.snoc_follows installed (.of_party (k := 0) rfl .applied) trivial
  have woken := Run.snoc_follows applied (.of_party (k := 0) rfl (.woken rfl)) trivial
  have looked := Run.snoc_follows woken (.of_party (k := 0) rfl .looked) trivial
  have queued := Run.snoc_follows looked (.of_party (k := 0) rfl (.applying .requested)) trivial
  have begun := Run.snoc_follows queued
    (.of_party (k := 0) rfl (.applying (.begun rfl rfl))) trivial
  have opened := Run.snoc_follows begun (.of_party (k := 0) rfl (.applying (.opened [] rfl))) trivial
  have installed := Run.snoc_follows opened (.of_party (k := 0) rfl (.applying .installed)) trivial
  have handed := Run.snoc_follows installed (.of_party (k := 0) rfl (.applying .handed)) trivial
  have waits := Run.snoc_follows handed (.of_party (k := 0) rfl .applied) trivial
  obtain ⟨-, -, hcurrent⟩ := no_update_is_lost (by decide) (by decide) waits.1 waits.2 rfl
  obtain ⟨happlied, haddresses⟩ := (hcurrent (by decide)).2 0 3 rfl rfl
  exact ⟨_, _, waits.1, waits.2, rfl, rfl, rfl, happlied, haddresses⟩

end Upkeep

end Switchboard
