import Mathlib.Data.List.Basic
import Switchboard.Manager
import Switchboard.Proofs.Addresses

/-!
# Applying one topology

What is decided about a topology, and what the pools of a manager are once it was applied: those of
addresses that stay are kept, those of addresses removed are let go of, and those opened are taken
in.  No pool is lost on the way.

## Main definitions

- `Manager.Overtakes` — the topology is too old to be applied
- `Manager.IsSorted` — the pools stand in order of their addresses

## Main statements

- `Manager.decide_eq_apply_iff` and its fellows — when a topology is applied, and to what
- `Manager.addresses_install` — the addresses are those of the topology
- `Manager.pool?_install_of_mem` — the pool of an address that stays is the one it had
- `Manager.install_leaving_perm` — every pool is in place or let go of
-/

namespace Switchboard

namespace Manager

/-! ### What to do with a topology -/

/-- The manager has applied a newer topology, or one as new that is not to be applied again. -/
def Overtakes (m : Manager) (t : Topology) (forced : Bool) : Prop :=
  ∃ last, m.applied = some last ∧ (t.epoch < last ∨ t.epoch = last ∧ forced = false)

theorem isStale_iff {m : Manager} {t : Topology} {forced : Bool} :
    m.isStale t forced = true ↔ m.Overtakes t forced := by
  unfold isStale Overtakes
  cases m.applied <;> simp

/-- The addresses of the topology that have no pool. -/
def missing (m : Manager) (t : Topology) : List Address :=
  t.addresses.filter fun a => a ∉ m.addresses

/-- The addresses that have a pool and are not in the topology. -/
def obsolete (m : Manager) (t : Topology) : List Address :=
  m.addresses.filter fun a => a ∉ t.addresses

theorem mem_missing {m : Manager} {t : Topology} {a : Address} :
    a ∈ m.missing t ↔ a ∈ t.addresses ∧ a ∉ m.addresses := by
  simp [missing]

theorem mem_obsolete {m : Manager} {t : Topology} {a : Address} :
    a ∈ m.obsolete t ↔ a ∈ m.addresses ∧ a ∉ t.addresses := by
  simp [obsolete]

theorem decide_eq_ignore_iff {m : Manager} {t : Topology} {forced : Bool} :
    m.decide t forced = .ignore ↔ m.closed = true := by
  unfold decide
  split
  · next h => simp [h]
  · next h => split <;> simp [h]

theorem decide_eq_stale_iff {m : Manager} {t : Topology} {forced : Bool} :
    m.decide t forced = .stale ↔ m.closed = false ∧ m.Overtakes t forced := by
  rw [← isStale_iff]
  unfold decide
  split
  · next h => simp [h]
  · next h => split <;> simp_all

theorem decide_eq_apply_iff {m : Manager} {t : Topology} {forced : Bool}
    {added removed : List Address} :
    m.decide t forced = .apply added removed ↔
      m.closed = false ∧ ¬m.Overtakes t forced ∧ added = m.missing t ∧ removed = m.obsolete t := by
  rw [← isStale_iff]
  unfold decide
  split
  · next h => simp [h]
  next h =>
  split
  · next hstale => simp [hstale]
  · next hstale =>
    rw [Decision.apply.injEq, missing, obsolete]
    constructor
    · rintro ⟨rfl, rfl⟩
      exact ⟨Bool.eq_false_iff.mpr h, hstale, rfl, rfl⟩
    · rintro ⟨-, -, rfl, rfl⟩
      exact ⟨rfl, rfl⟩

/-! ### Pools in order -/

/-- The pools stand in order of their addresses, one for each. -/
def IsSorted (m : Manager) : Prop :=
  Address.IsSet m.addresses

theorem isSet_missing {t : Topology} (ht : Address.IsSet t.addresses) (m : Manager) :
    Address.IsSet (m.missing t) :=
  ht.sublist List.filter_sublist

theorem isSet_obsolete {m : Manager} (hm : m.IsSorted) (t : Topology) :
    Address.IsSet (m.obsolete t) :=
  Address.IsSet.sublist hm List.filter_sublist

theorem mem_addresses {m : Manager} {a : Address} : a ∈ m.addresses ↔ ∃ p, (a, p) ∈ m.pools := by
  simp [addresses]

/-- In a list of pools with one for each address, an address finds its pool. -/
theorem find?_eq_some_iff {a : Address} {p : ℕ} {l : List (Address × ℕ)}
    (h : (l.map (·.1)).Nodup) : (l.find? fun e => e.1 = a) = some (a, p) ↔ (a, p) ∈ l := by
  induction l with
  | nil => simp
  | cons e l ih =>
    obtain ⟨hhead, htail⟩ := List.nodup_cons.mp h
    obtain ⟨b, q⟩ := e
    by_cases hb : b = a
    · subst hb
      have hnot : (b, p) ∉ l := fun hmem => hhead (List.mem_map.mpr ⟨(b, p), hmem, rfl⟩)
      simp [hnot, eq_comm]
    · rw [List.find?_cons_of_neg (by simpa using hb), ih htail, List.mem_cons]
      simp [Ne.symm hb]

theorem pool?_eq_some_iff {m : Manager} (hm : m.IsSorted) {a : Address} {p : ℕ} :
    m.pool? a = some p ↔ (a, p) ∈ m.pools := by
  rw [← find?_eq_some_iff (Address.IsSet.nodup hm), pool?, Option.map_eq_some_iff]
  constructor
  · rintro ⟨⟨b, q⟩, hfind, rfl⟩
    have hb := List.find?_some hfind
    rw [hfind, ← of_decide_eq_true hb]
  · intro hfind
    exact ⟨_, hfind, rfl⟩

/-! ### Pools that are taken in -/

theorem map_fst_insertPool (a : Address) (p : ℕ) (l : List (Address × ℕ)) :
    (insertPool a p l).map (·.1) = Address.insertSorted a (l.map (·.1)) := by
  induction l with
  | nil => rfl
  | cons e l ih =>
    obtain ⟨b, q⟩ := e
    rw [insertPool, List.map_cons, Address.insertSorted]
    cases h : Address.compare a b with
    | lt => rfl
    | gt => rw [List.map_cons, ih]
    | eq =>
      have hab : a = b := Std.LawfulEqCmp.eq_of_compare h
      rw [hab, List.map_cons]

/-- The pool of a new address stands beside the others. -/
theorem insertPool_perm {a : Address} {p : ℕ} {l : List (Address × ℕ)} (h : a ∉ l.map (·.1)) :
    (insertPool a p l).Perm ((a, p) :: l) := by
  induction l with
  | nil => exact .refl _
  | cons e l ih =>
    obtain ⟨b, q⟩ := e
    rw [List.map_cons, List.mem_cons, not_or] at h
    obtain ⟨hne, hrest⟩ := h
    rw [insertPool]
    cases hcmp : Address.compare a b with
    | lt => exact .refl _
    | gt => exact ((ih hrest).cons (b, q)).trans (.swap ..)
    | eq => exact absurd (Std.LawfulEqCmp.eq_of_compare hcmp) hne

/-- Takes in one pool after the other. -/
def takeIn (pools opened : List (Address × ℕ)) : List (Address × ℕ) :=
  opened.foldl (fun pools e => insertPool e.1 e.2 pools) pools

theorem isSet_takeIn {pools : List (Address × ℕ)} (h : Address.IsSet (pools.map (·.1)))
    (opened : List (Address × ℕ)) : Address.IsSet ((takeIn pools opened).map (·.1)) := by
  induction opened generalizing pools with
  | nil => exact h
  | cons e opened ih =>
    apply ih
    rw [map_fst_insertPool]
    exact h.insertSorted e.1

theorem takeIn_perm {pools opened : List (Address × ℕ)}
    (hnodup : (opened.map (·.1)).Nodup)
    (hnew : ∀ a ∈ opened.map (·.1), a ∉ pools.map (·.1)) :
    (takeIn pools opened).Perm (pools ++ opened) := by
  induction opened generalizing pools with
  | nil => rw [List.append_nil]; exact .refl _
  | cons e opened ih =>
    obtain ⟨hhead, htail⟩ := List.nodup_cons.mp hnodup
    have hperm : (insertPool e.1 e.2 pools).Perm (e :: pools) :=
      insertPool_perm (hnew e.1 List.mem_cons_self)
    have hstep : (takeIn (insertPool e.1 e.2 pools) opened).Perm
        (insertPool e.1 e.2 pools ++ opened) := by
      refine ih htail ?_
      intro a ha
      rw [(hperm.map _).mem_iff, List.map_cons, List.mem_cons, not_or]
      -- an address opened later is not the one just taken in, since none is opened twice
      refine ⟨?_, hnew a (List.mem_cons_of_mem _ ha)⟩
      rintro rfl
      exact hhead ha
    calc (takeIn pools (e :: opened)).Perm (insertPool e.1 e.2 pools ++ opened) := hstep
      _ |>.Perm (e :: pools ++ opened) := hperm.append_right opened
      _ |>.Perm (pools ++ e :: opened) := List.perm_middle.symm

/-! ### The manager after a topology was applied -/

variable {m : Manager} {t : Topology} {opened : List (Address × ℕ)}

/-- The pools of addresses that stay. -/
def staying (m : Manager) (removed : List Address) : List (Address × ℕ) :=
  m.pools.filter fun e => e.1 ∉ removed

theorem pools_install (epoch : UInt64) (removed : List Address) :
    (m.install epoch removed opened).pools = takeIn (m.staying removed) opened :=
  rfl

theorem isSorted_install (hm : m.IsSorted) (epoch : UInt64) (removed : List Address) :
    (m.install epoch removed opened).IsSorted := by
  apply isSet_takeIn
  exact Address.IsSet.sublist hm (List.filter_sublist.map _)

theorem isSorted_empty (config : ClientConfig) : (empty config).IsSorted :=
  List.Pairwise.nil

/-- Some of the addresses that have no pool have got one. -/
def Fills (opened : List (Address × ℕ)) (m : Manager) (t : Topology) : Prop :=
  (opened.map (·.1)).Sublist (m.missing t)

/-- The pools afterwards are those that stay and those opened. -/
theorem install_perm (ht : Address.IsSet t.addresses) (hfill : Fills opened m t)
    (epoch : UInt64) (removed : List Address) :
    (m.install epoch removed opened).pools.Perm (m.staying removed ++ opened) := by
  apply takeIn_perm
  · exact ((isSet_missing ht m).sublist hfill).nodup
  · intro a ha hstay
    have hnew := (mem_missing.mp (hfill.subset ha)).2
    exact hnew ((List.filter_sublist.map _).subset hstay)

theorem mem_pools_install (ht : Address.IsSet t.addresses) (hfill : Fills opened m t)
    {epoch : UInt64} {removed : List Address} {e : Address × ℕ} :
    e ∈ (m.install epoch removed opened).pools ↔
      (e ∈ m.pools ∧ e.1 ∉ removed) ∨ e ∈ opened := by
  rw [(install_perm ht hfill epoch removed).mem_iff, List.mem_append, staying, List.mem_filter,
    decide_eq_true_iff]

/-- Every pool is in place or let go of. -/
theorem install_leaving_perm (ht : Address.IsSet t.addresses) (hfill : Fills opened m t)
    (epoch : UInt64) (removed : List Address) :
    ((m.install epoch removed opened).pools.map (·.2) ++ m.leaving removed).Perm
      (m.pools.map (·.2) ++ opened.map (·.2)) := by
  have hsplit : (m.staying removed ++ m.pools.filter fun e => e.1 ∈ removed).Perm m.pools := by
    have h := List.filter_append_perm (fun e : Address × ℕ => e.1 ∉ removed) m.pools
    simpa [staying] using h
  have hall : ((m.install epoch removed opened).pools ++
      m.pools.filter fun e => e.1 ∈ removed).Perm (m.pools ++ opened) :=
    calc ((m.install epoch removed opened).pools ++ m.pools.filter fun e => e.1 ∈ removed).Perm
          (m.staying removed ++ opened ++ m.pools.filter fun e => e.1 ∈ removed) :=
          (install_perm ht hfill epoch removed).append_right _
      _ |>.Perm (m.staying removed ++ m.pools.filter (fun e => e.1 ∈ removed) ++ opened) := by
          rw [List.append_assoc, List.append_assoc]
          exact List.perm_append_comm.append_left _
      _ |>.Perm (m.pools ++ opened) := hsplit.append_right opened
  rw [leaving, ← List.map_append, ← List.map_append]
  exact hall.map _

/-- Once a pool was opened for every address that had none, the addresses are those of the
topology. -/
theorem addresses_install (hm : m.IsSorted) (ht : Address.IsSet t.addresses)
    (hall : opened.map (·.1) = m.missing t) (epoch : UInt64) :
    (m.install epoch (m.obsolete t) opened).addresses = t.addresses := by
  have hfill : Fills opened m t := by rw [Fills, hall]
  refine Address.IsSet.eq_of_mem_iff (isSorted_install hm ..) ht ?_
  intro a
  have hopened : (∃ p, (a, p) ∈ opened) ↔ a ∈ m.missing t := by
    rw [← hall]
    simp
  rw [mem_addresses]
  simp only [mem_pools_install ht hfill, exists_or, exists_and_right, hopened]
  rw [← mem_addresses, mem_missing, mem_obsolete]
  tauto

/-- The pool of an address that stays is the one it had. -/
theorem pool?_install_of_mem (hm : m.IsSorted) (ht : Address.IsSet t.addresses)
    (hfill : Fills opened m t) {a : Address} (ha : a ∈ m.addresses) (hta : a ∈ t.addresses)
    (epoch : UInt64) :
    (m.install epoch (m.obsolete t) opened).pool? a = m.pool? a := by
  obtain ⟨p, hp⟩ := mem_addresses.mp ha
  have hstays : a ∉ m.obsolete t := fun h => (mem_obsolete.mp h).2 hta
  rw [(pool?_eq_some_iff hm).mpr hp, pool?_eq_some_iff (isSorted_install hm ..),
    mem_pools_install ht hfill]
  exact .inl ⟨hp, hstays⟩

/-- A topology of the addresses that have pools changes no pool. -/
theorem install_same (h : m.addresses = t.addresses) (epoch : UInt64) :
    (m.install epoch (m.obsolete t) []).pools = m.pools := by
  have hnone : m.obsolete t = [] := by
    rw [obsolete, h, List.filter_eq_nil_iff]
    simp
  rw [pools_install, hnone]
  simp [takeIn, staying]

end Manager

end Switchboard
