import Mathlib.Data.List.Basic
import Switchboard.Proofs.Cluster.Activities
import Switchboard.Proofs.NodeRecords

/-!
# The history of a provider

Each answer to a poll lists some servers in service, or none, or cannot be read.  A provider
publishes the last set that it has been given, and counts by its epoch how often a set differed from
the one before.

## Main definitions

- `Discovery.found?` — the set of addresses that an answer lists, if there are any
- `Discovery.found` — the sets that a row of answers lists
- `Discovery.after` — what is published after a row of polls
- `Discovery.changes` — how often a set differs from the one before

## Main statements

- `Discovery.epoch_counts_changes` — what a provider has published after a row of polls
- `Simulation.Polling.await_polls` — the activity that polls does so once its answer is there
-/

namespace Switchboard

/-! ### Polls -/

namespace Discovery

/-- The set of addresses in service that an answer lists, if there are any. -/
def found? (c : DiscoveryConfig) (answer : Except Fault Octets) : Option (List Address) :=
  match fetched c answer with
  | .ok (a :: rest) => some (a :: rest)
  | _ => none

/-- The sets of addresses that answers list, in their order. -/
def found (c : DiscoveryConfig) (answers : List (Except Fault Octets)) : List (List Address) :=
  answers.filterMap (found? c)

/-- The answer is one with the node records. -/
def Lists (answer : Except Fault Octets) (records : List MessagePack.Value) : Prop :=
  ∃ data, answer.bind Wire.Body.responseData = .ok data ∧
    Topology.records? (Topology.unwrap data) = some records

/-- What is published after polls that got the answers, one after the other. -/
def after (c : DiscoveryConfig) (w : Watch Topology) (answers : List (Except Fault Octets)) :
    Watch Topology :=
  answers.foldl (fun w answer => (poll c w answer).2) w

/-- How often a set differs from the one before, which at first is `last`. -/
def changes (last : List Address) : List (List Address) → ℕ
  | [] => 0
  | set :: rest => (if last = set then 0 else 1) + changes set rest

variable {c : DiscoveryConfig} {w w₀ : Watch Topology} {answer first : Except Fault Octets}
  {set : List Address}

theorem found?_eq_some_iff :
    found? c answer = some set ↔ fetched c answer = .ok set ∧ set ≠ [] := by
  unfold found?
  rcases fetched c answer with fault | (_ | ⟨a, rest⟩)
  · simp
  · simp +contextual
  · simp +contextual [eq_comm]

theorem found?_eq_none_iff :
    found? c answer = none ↔ fetched c answer = .ok [] ∨ ∃ f, fetched c answer = .error f := by
  unfold found?
  rcases fetched c answer with fault | (_ | ⟨a, rest⟩) <;> simp

theorem isSet_of_found? (h : found? c answer = some set) : Address.IsSet set := by
  obtain ⟨hfetched, -⟩ := found?_eq_some_iff.mp h
  unfold fetched at hfetched
  split at hfetched
  · cases hfetched
  · exact Topology.isSet_of_parseNodes hfetched

/-- The order of the records does not matter for what is found. -/
theorem found?_of_perm {answer' : Except Fault Octets} {records records' : List MessagePack.Value}
    (hlists : Lists answer records) (hlists' : Lists answer' records') (h : records.Perm records')
    (hfound : found? c answer = some set) : found? c answer' = some set := by
  obtain ⟨data, hdata, hrecords⟩ := hlists
  obtain ⟨data', hdata', hrecords'⟩ := hlists'
  obtain ⟨hset, hne⟩ := found?_eq_some_iff.mp hfound
  refine found?_eq_some_iff.mpr ⟨?_, hne⟩
  simp only [fetched, hdata, hdata'] at hset ⊢
  exact Topology.parseNodes_perm hrecords hrecords' h hset

/-- The set published last is found again. -/
theorem poll_of_same (h : found? c answer = some set) (hsame : w.value.addresses = set) :
    poll c w answer = (.ok false, w) := by
  obtain ⟨hfetched, hne⟩ := found?_eq_some_iff.mp h
  obtain ⟨a, rest, rfl⟩ := List.exists_cons_of_ne_nil hne
  simp only [poll, hfetched, publish, Topology.publish, if_pos hsame]

/-- Another set is found. -/
theorem poll_of_other (h : found? c answer = some set) (hother : w.value.addresses ≠ set) :
    poll c w answer = (.ok true, w.set ⟨set, w.value.epoch + 1⟩) := by
  obtain ⟨hfetched, hne⟩ := found?_eq_some_iff.mp h
  obtain ⟨a, rest, rfl⟩ := List.exists_cons_of_ne_nil hne
  simp only [poll, hfetched, publish, Topology.publish, if_neg hother]

/-- Nothing is found, or the call fails. -/
theorem poll_of_nothing (h : found? c answer = none) :
    poll c w answer = ((fetched c answer).map fun _ => false, w) := by
  rcases found?_eq_none_iff.mp h with hnone | ⟨f, hfault⟩
  · simp only [poll, hnone]
    rfl
  · simp only [poll, hfault]
    rfl

/-- A provider starts with the set that the first answer lists. -/
theorem start_eq_ok_iff :
    start c first = .ok w ↔ ∃ set, found? c first = some set ∧ w = ⟨⟨set, 1⟩, 1⟩ := by
  unfold start found?
  rcases fetched c first with fault | (_ | ⟨a, rest⟩)
  · simp
  · simp
  · simp [publish, Topology.publish, Watch.start, Watch.set, Topology.empty, eq_comm]

/-! ### Rows of polls -/

theorem changes_cons_self (last : List Address) (rest : List (List Address)) :
    changes last (last :: rest) = changes last rest := by
  rw [changes, if_pos rfl, Nat.zero_add]

theorem changes_cons_of_ne {last : List Address} (h : last ≠ set) (rest : List (List Address)) :
    changes last (set :: rest) = 1 + changes set rest := by
  rw [changes, if_neg h]

/-- Where nothing differs from the one before, all are alike. -/
theorem getLastD_of_changes_eq_zero {last : List Address} {sets : List (List Address)}
    (h : changes last sets = 0) : sets.getLastD last = last := by
  induction sets generalizing last with
  | nil => rfl
  | cons set rest ih =>
    by_cases hsame : last = set
    · subst hsame
      rw [changes_cons_self] at h
      rw [List.getLastD_cons, ih h]
    · rw [changes_cons_of_ne hsame] at h
      exact absurd h (Nat.ne_of_gt (Nat.add_pos_left Nat.one_pos _))

theorem after_append (c : DiscoveryConfig) (w : Watch Topology)
    (before rest : List (Except Fault Octets)) :
    after c w (before ++ rest) = after c (after c w before) rest :=
  List.foldl_append

/-- The sets found are published one after the other, each as often as it differs from the one
before. -/
theorem after_eq (c : DiscoveryConfig) (w : Watch Topology) (answers : List (Except Fault Octets)) :
    (after c w answers).value.addresses = (found c answers).getLastD w.value.addresses ∧
    (after c w answers).version = w.version + changes w.value.addresses (found c answers) ∧
    (after c w answers).value.epoch =
      w.value.epoch + .ofNat (changes w.value.addresses (found c answers)) := by
  induction answers generalizing w with
  | nil => exact ⟨rfl, rfl, (UInt64.add_zero _).symm⟩
  | cons answer rest ih =>
    have hrest := ih (poll c w answer).2
    rw [after, List.foldl_cons, found]
    cases hfound : found? c answer with
    | none =>
      rw [poll_of_nothing hfound] at hrest ⊢
      rwa [List.filterMap_cons_none hfound]
    | some set =>
      rw [List.filterMap_cons_some hfound, List.getLastD_cons]
      by_cases hsame : w.value.addresses = set
      · rw [poll_of_same hfound hsame] at hrest ⊢
        rw [← hsame, changes_cons_self]
        exact hrest
      · rw [poll_of_other hfound hsame] at hrest ⊢
        rw [changes_cons_of_ne hsame, UInt64.ofNat_add, ← Nat.add_assoc, ← UInt64.add_assoc]
        exact hrest

/-- The number of changes is found in the epoch, unless there are more of them than epochs. -/
theorem value_eq_of_epoch_eq {answers : List (Except Fault Octets)}
    (hfew : changes w.value.addresses (found c answers) < Nat.pow 2 64)
    (h : w.value.epoch = (after c w answers).value.epoch) :
    w.value = (after c w answers).value := by
  obtain ⟨haddresses, -, hepoch⟩ := after_eq c w answers
  have hzero : UInt64.ofNat (changes w.value.addresses (found c answers)) = 0 := by
    rw [hepoch] at h
    exact UInt64.add_eq_left.mp h.symm
  have hnone : changes w.value.addresses (found c answers) = 0 := by
    have hnat := congrArg UInt64.toNat hzero
    rwa [UInt64.toNat_ofNat_of_lt' hfew] at hnat
  rw [getLastD_of_changes_eq_zero hnone] at haddresses
  calc
    w.value = ⟨w.value.addresses, w.value.epoch⟩ := rfl
    _ = ⟨(after c w answers).value.addresses, (after c w answers).value.epoch⟩ := by
      rw [haddresses, ← h]

/-- What holds after a row of polls whose first answer started the provider with a set. -/
theorem after_start (c : DiscoveryConfig) (set : List Address)
    (answers : List (Except Fault Octets)) :
    (after c ⟨⟨set, 1⟩, 1⟩ answers).version = 1 + changes set (found c answers) ∧
    (after c ⟨⟨set, 1⟩, 1⟩ answers).value.epoch =
      .ofNat (after c ⟨⟨set, 1⟩, 1⟩ answers).version := by
  obtain ⟨-, hversion, hepoch⟩ := after_eq c ⟨⟨set, 1⟩, 1⟩ answers
  refine ⟨hversion, ?_⟩
  rw [hversion, hepoch, UInt64.ofNat_add]
  rfl

/-- Epochs grow as long as there are more of them than changes. -/
theorem epoch_after_le {answers : List (Except Fault Octets)}
    (hepoch : w.value.epoch = .ofNat w.version)
    (hlater : (after c w answers).value.epoch = .ofNat (after c w answers).version)
    (hfew : (after c w answers).version < Nat.pow 2 64) :
    w.value.epoch ≤ (after c w answers).value.epoch := by
  obtain ⟨-, hversion, -⟩ := after_eq c w answers
  have hle : w.version ≤ (after c w answers).version := hversion ▸ Nat.le_add_right ..
  rw [hepoch, hlater, UInt64.le_iff_toNat_le, UInt64.toNat_ofNat_of_lt' hfew,
    UInt64.toNat_ofNat_of_lt' (Nat.lt_of_le_of_lt hle hfew)]
  exact hle

/-- A provider publishes the last set that it has found.  Its epoch counts the changes of the set,
the first publication among them, and so does the version by which those who follow the provider
know that there is something new.  A poll says whether it has published; one that fails or finds
nothing leaves everything as it was, and the order in which the servers are listed does not matter.
So an epoch stands for one set, and epochs do not decrease. -/
theorem epoch_counts_changes {answers : List (Except Fault Octets)}
    (hstart : start c first = .ok w₀) (hafter : after c w₀ answers = w) :
    ∃ set, found? c first = some set ∧
      (found c (first :: answers)).getLast? = some w.value.addresses ∧
      w.value.addresses ≠ [] ∧ Address.IsSet w.value.addresses ∧
      w.version = 1 + changes set (found c answers) ∧
      w.value.epoch = .ofNat (1 + changes set (found c answers)) ∧
      (∀ answer,
        ((poll c w answer).1 = .ok true ↔ (poll c w answer).2.isUnseen w.version = true) ∧
        (∀ other, found? c answer = some other → other ≠ w.value.addresses →
          poll c w answer = (.ok true, w.set ⟨other, w.value.epoch + 1⟩)) ∧
        (found? c answer = some w.value.addresses → poll c w answer = (.ok false, w)) ∧
        (fetched c answer = .ok [] → poll c w answer = (.ok false, w)) ∧
        ∀ f, fetched c answer = .error f → poll c w answer = (.error f, w)) ∧
      (∀ answer answer' records records' other, Lists answer records → Lists answer' records' →
        records.Perm records' → found? c answer = some other →
          poll c w answer' = poll c w answer) ∧
      ∀ before rest v, answers = before ++ rest → after c w₀ before = v →
        (changes set (found c answers) < Nat.pow 2 64 → v.value.epoch = w.value.epoch →
          v.value = w.value) ∧
        (w.version < Nat.pow 2 64 → v.value.epoch ≤ w.value.epoch) := by
  obtain ⟨set, hfound, rfl⟩ := start_eq_ok_iff.mp hstart
  obtain ⟨haddresses, hversion, -⟩ := after_eq c ⟨⟨set, 1⟩, 1⟩ answers
  have hepoch := (after_start c set answers).2
  have hlast : (found c (first :: answers)).getLast? = some w.value.addresses := by
    rw [found, List.filterMap_cons_some hfound, List.getLast?_cons, ← hafter, haddresses,
      ← List.getLastD_eq_getLast?]
    rfl
  have hmem : ∃ answer, found? c answer = some w.value.addresses := by
    obtain ⟨answer, -, h⟩ := List.mem_filterMap.mp (List.mem_of_getLast? hlast)
    exact ⟨answer, h⟩
  rw [hafter] at hepoch
  have hversion : w.version = 1 + changes set (found c answers) := hafter ▸ hversion
  refine ⟨set, hfound, hlast, ?_, ?_, hversion, hversion ▸ hepoch, fun answer => ?_, ?_, ?_⟩
  · obtain ⟨answer, h⟩ := hmem
    exact (found?_eq_some_iff.mp h).2
  · obtain ⟨answer, h⟩ := hmem
    exact isSet_of_found? h
  · refine ⟨?_, fun other h hne => poll_of_other h hne.symm, fun h => poll_of_same h rfl,
      fun h => ?_, fun f h => ?_⟩
    · cases h : found? c answer with
      | none =>
        rw [poll_of_nothing h, Watch.isUnseen_version]
        cases fetched c answer <;> simp [Except.map]
      | some other =>
        by_cases hsame : w.value.addresses = other
        · simp [poll_of_same h hsame, Watch.isUnseen_version]
        · simp [poll_of_other h hsame, Watch.isUnseen_set]
    · rw [poll_of_nothing (found?_eq_none_iff.mpr (.inl h)), h]
      rfl
    · rw [poll_of_nothing (found?_eq_none_iff.mpr (.inr ⟨f, h⟩)), h]
      rfl
  · intro answer answer' records records' other hlists hlists' hperm h
    have h' := found?_of_perm hlists hlists' hperm h
    by_cases hsame : w.value.addresses = other
    · rw [poll_of_same h hsame, poll_of_same h' hsame]
    · rw [poll_of_other h hsame, poll_of_other h' hsame]
  · rintro before rest v rfl rfl
    rw [after_append] at hafter
    subst hafter
    have hbefore := (after_start c set before).2
    refine ⟨fun hfew heq => value_eq_of_epoch_eq ?_ heq, epoch_after_le hbefore hepoch⟩
    -- there are no more changes afterwards than there are all in all
    have hrest := (after_eq c (after c ⟨⟨set, 1⟩, 1⟩ before) rest).2.1
    have hfirst := (after_start c set before).1
    omega

/-- The answer that lists servers in service at the places. -/
def listing (places : List String) : Except Fault Octets :=
  .ok (Wire.Body.data (.array [.array (places.map fun place =>
    .map [(.ofString "uri", .ofString place), (.ofString "status", .ofString "available")])]))

/-- A poll fails, another finds nothing, a third the same servers in another order, and the fourth a
new one. -/
theorem epoch_counts_changes_four_polls :
    ∃ w₀ w, start {} (listing ["a:1", "b:1"]) = .ok w₀ ∧
      after {} w₀ [.error (.timeout ""), listing [], listing ["b:1", "a:1"],
        listing ["b:1", "a:1", "c:1"]] = w ∧
      w.value.addresses = [⟨"a", 1⟩, ⟨"b", 1⟩, ⟨"c", 1⟩] ∧ w.value.epoch = 2 ∧ w.version = 2 := by
  have hfound : found {} [.error (.timeout ""), listing [], listing ["b:1", "a:1"],
      listing ["b:1", "a:1", "c:1"]] =
      [[⟨"a", 1⟩, ⟨"b", 1⟩], [⟨"a", 1⟩, ⟨"b", 1⟩, ⟨"c", 1⟩]] := by rfl
  have hfirst : found? {} (listing ["a:1", "b:1"]) = some [⟨"a", 1⟩, ⟨"b", 1⟩] := by rfl
  have hstart := start_eq_ok_iff.mpr ⟨_, hfirst, rfl⟩
  obtain ⟨set, hset, hlast, -, -, hversion, hepoch, -⟩ := epoch_counts_changes hstart rfl
  obtain rfl := Option.some.inj (hset.symm.trans hfirst)
  rw [hfound] at hversion hepoch
  rw [found, List.filterMap_cons_some hfirst, ← found, hfound] at hlast
  exact ⟨_, _, hstart, rfl, (Option.some.inj hlast).symm, hepoch, hversion⟩

end Discovery

/-! ### The activity that polls -/

namespace Simulation.Polling

/-- What a chance to go on with a poll comes to, as far as the topology is concerned. -/
inductive Polls (c : DiscoveryConfig) (answer : Outcome) (w : World) :
    Progress Polling (Except Fault Bool) × World → Prop
  | waits {work events w'} (still : w'.topology = w.topology) :
    Polls c answer w (.wait work events, w')
  | done {w'} (polled : w'.topology = (Discovery.poll c w.topology answer).2) :
    Polls c answer w (.done (Discovery.poll c w.topology answer).1, w')

theorem topology_of_untouched {w w' : World} (h : Untouched w w') : w'.topology = w.topology := by
  rw [World.topology, World.topology, h.provider]

theorem topology_publish {w : World} (h : w.provider.isSome) (t : Watch Topology) :
    ((publish t).run w).2.topology = t := by
  rw [publish, run_bind, topology_of_untouched ((untouched_emit .published).holds _)]
  obtain ⟨now, stamp, network, links, depots, cluster, _ | provider, entry, signals⟩ := w
  · cases h
  · rfl

theorem topology_withdrawLock (w : World) (ticket : ℕ) :
    ((withdrawLock .provider ticket).run w).2.topology = w.topology := by
  have hset (l : Lock) : ((setLock .provider l).run w).2.topology = w.topology := by
    obtain ⟨now, stamp, network, links, depots, cluster, _ | provider, entry, signals⟩ := w <;> rfl
  rw [← hset ((w.lock .provider).withdraw ticket), withdrawLock, run_get_bind]
  dsimp only
  rw [run_bind]
  split
  · exact topology_of_untouched ((untouched_emit _).holds _)
  · rfl

/-- Once the answer is there the topology becomes what the answer makes of it, and until then it
stays. -/
theorem await_polls {c : DiscoveryConfig} {ticket : ℕ} {answer : Outcome} {delay : Timer}
    {w : World} (h : w.provider.isSome) :
    Polls c answer w ((await c ticket answer delay).run w) := by
  have hprovider := ((untouched_check delay).holds w).provider
  have htopology := topology_of_untouched ((untouched_check delay).holds w)
  rw [await, run_bind]
  generalize delay.check.run w = checked at hprovider htopology
  obtain ⟨_ | delay, w'⟩ := checked
  · rw [← hprovider] at h
    dsimp only at h htopology ⊢
    rw [run_get_bind, htopology]
    have hdone : ∀ w'', w''.topology = (Discovery.poll c w.topology answer).2 →
        Polls c answer w (.done (Discovery.poll c w.topology answer).1,
          ((withdrawLock .provider ticket).run w'').2) := by
      intro w'' hw
      exact .done ((topology_withdrawLock w'' ticket).trans hw)
    rcases Discovery.poll_cases c w.topology answer with hsame | ⟨addresses, -, hpublish⟩
    · rw [hsame, Watch.isUnseen_version]
      exact hdone w' (htopology.trans hsame.symm)
    · have hnew := Discovery.publish_eq hpublish
      have hunseen : (Discovery.poll c w.topology answer).2.isUnseen w.topology.version = true := by
        rw [hnew, Watch.isUnseen_set]
      rw [hunseen]
      exact hdone _ (topology_publish h _)
  · exact .waits htopology

end Simulation.Polling

end Switchboard
