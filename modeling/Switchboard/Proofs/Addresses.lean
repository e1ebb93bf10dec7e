import Mathlib.Data.List.Basic
import Switchboard.Topology

/-!
# Sets of addresses

Addresses are ordered by a strict order that tells different ones apart.  So a set of addresses has
exactly one list in which they stand in order, which is the form that topologies have.

## Main definitions

- `Address.IsSet` — the list is the one of a set

## Main statements

- `Address.IsSet.eq_of_mem_iff` — a set is known by its members
- `Address.mem_sortedSet`, `Address.isSet_sortedSet` — every list of addresses has its set
- `Topology.isSet_of_parseNodes` — what discovery reads is a set
-/

namespace Switchboard

namespace Address

/-! ### The order -/

theorem compareText_eq_compareLex :
    compareText = List.compareLex (compareOn Char.toNat) := by
  funext s t
  induction s generalizing t with
  | nil => cases t <;> rfl
  | cons c s ih =>
    cases t with
    | nil => rfl
    | cons d t =>
      rw [compareText, ih, List.compareLex, compareOn]
      cases Ord.compare c.toNat d.toNat <;> rfl

instance : Std.LawfulEqCmp (compareOn Char.toNat) where
  compare_self := by simp [compareOn]
  eq_of_compare h := Char.toNat_inj.mp (Nat.compare_eq_eq.mp h)

instance : Std.TransCmp compareText := compareText_eq_compareLex ▸ inferInstance

instance : Std.LawfulEqCmp compareText := compareText_eq_compareLex ▸ inferInstance

/-- Comparing things by a part is as lawful as comparing the parts. -/
theorem transCmp_on {α β : Type} (cmp : β → β → Ordering) [Std.TransCmp cmp] (part : α → β) :
    Std.TransCmp fun a b => cmp (part a) (part b) where
  eq_swap := by
    intro a b
    exact Std.OrientedCmp.eq_swap
  isLE_trans := by
    intro a b c
    exact Std.TransCmp.isLE_trans

instance : Std.TransCmp compare :=
  have := transCmp_on compareText fun a : Address => a.host.toList
  have := transCmp_on Ord.compare fun a : Address => a.port.toNat
  inferInstanceAs (Std.TransCmp (compareLex _ _))

instance : Std.LawfulEqCmp compare where
  compare_self := Std.ReflCmp.compare_self
  eq_of_compare {a b} h := by
    obtain ⟨hhost, hport⟩ := Ordering.then_eq_eq.mp h
    have host : a.host = b.host := String.toList_inj.mp (Std.LawfulEqCmp.eq_of_compare hhost)
    have port : a.port = b.port := UInt16.toNat_inj.mp (Nat.compare_eq_eq.mp hport)
    calc
      a = ⟨a.host, a.port⟩ := rfl
      _ = ⟨b.host, b.port⟩ := by rw [host, port]

/-! ### Sets -/

/-- The addresses stand in order, none of them twice. -/
def IsSet (addresses : List Address) : Prop :=
  addresses.Pairwise fun a b => compare a b = .lt

theorem IsSet.nodup {l : List Address} (h : IsSet l) : l.Nodup := by
  refine List.Pairwise.imp ?_ h
  rintro a b hlt rfl
  have heq : compare a a = .eq := Std.ReflCmp.compare_self
  rw [heq] at hlt
  cases hlt

theorem IsSet.sublist {l l' : List Address} (h : IsSet l) (hsub : l'.Sublist l) : IsSet l' :=
  List.Pairwise.sublist hsub h

/-- A list in order of addresses is known by its members. -/
theorem eq_of_mem_iff_of_isSet {α : Type} {f : α → Address} {l l' : List α} (h : IsSet (l.map f))
    (h' : IsSet (l'.map f)) (hmem : ∀ x, x ∈ l ↔ x ∈ l') : l = l' := by
  have hnodup : ∀ {l : List α}, IsSet (l.map f) → l.Nodup := fun h =>
    List.Pairwise.of_map f (fun _ _ => mt (congrArg f)) h.nodup
  have hperm := (List.perm_ext_iff_of_nodup (hnodup h) (hnodup h')).mpr hmem
  refine List.Perm.eq_of_pairwise ?_ (List.pairwise_map.mp h) (List.pairwise_map.mp h') hperm
  intro x y _ _ hxy hyx
  exact absurd hyx (Std.OrientedCmp.not_lt_of_lt hxy)

/-- A set is known by its members. -/
theorem IsSet.eq_of_mem_iff {l l' : List Address} (h : IsSet l) (h' : IsSet l')
    (hmem : ∀ a, a ∈ l ↔ a ∈ l') : l = l' :=
  eq_of_mem_iff_of_isSet (f := id) (l.map_id.symm ▸ h) (l'.map_id.symm ▸ h') hmem

theorem mem_insertSorted {a b : Address} {l : List Address} :
    b ∈ insertSorted a l ↔ b = a ∨ b ∈ l := by
  induction l with
  | nil => simp [insertSorted]
  | cons c l ih =>
    rw [insertSorted]
    split
    · simp
    · next heq =>
      have hac : a = c := Std.LawfulEqCmp.eq_of_compare heq
      subst hac
      simp
    · rw [List.mem_cons, ih, List.mem_cons]
      tauto

theorem IsSet.insertSorted {l : List Address} (h : IsSet l) (a : Address) :
    IsSet (insertSorted a l) := by
  induction l with
  | nil => exact List.pairwise_singleton ..
  | cons c l ih =>
    obtain ⟨hhead, htail⟩ := List.pairwise_cons.mp h
    rw [Address.insertSorted]
    split
    · next hlt =>
      -- what comes after the first of the others comes after the new address, too
      refine List.pairwise_cons.mpr ⟨?_, h⟩
      intro b hb
      rcases List.mem_cons.mp hb with rfl | hb
      · exact hlt
      · exact Std.TransCmp.lt_trans hlt (hhead b hb)
    · exact h
    · next hgt =>
      refine List.pairwise_cons.mpr ⟨?_, ih htail⟩
      intro b hb
      rcases mem_insertSorted.mp hb with rfl | hb
      · exact Std.OrientedCmp.gt_iff_lt.mp hgt
      · exact hhead b hb

@[simp] theorem mem_sortedSet {a : Address} {l : List Address} : a ∈ sortedSet l ↔ a ∈ l := by
  induction l with
  | nil => rfl
  | cons b l ih =>
    rw [sortedSet, List.foldr_cons, mem_insertSorted, List.mem_cons]
    exact or_congr Iff.rfl ih

theorem isSet_sortedSet (l : List Address) : IsSet (sortedSet l) := by
  induction l with
  | nil => exact List.Pairwise.nil
  | cons a l ih => exact ih.insertSorted a

end Address

namespace Topology

theorem isSet_ofList (addresses : List Address) (epoch : UInt64) :
    Address.IsSet (ofList addresses epoch).addresses :=
  Address.isSet_sortedSet addresses

/-- What is read from a list of node records is a set. -/
theorem isSet_of_parseNodes {data : MessagePack.Value} {addresses : List Address}
    (h : parseNodes data = .ok addresses) : Address.IsSet addresses := by
  simp only [parseNodes] at h
  split at h
  · cases h
  split at h
  · cases h
  · cases h
    exact Address.isSet_sortedSet _

end Topology

end Switchboard
