import Switchboard.Proofs.Cluster.Worlds

/-!
# Waiting for work on pools

Whoever opens pools or closes them waits for several activities, and each of these goes along with
a party of one of the pools.  The party is known by its key: the pool and the ticket.

## Main definitions

- `Simulation.KnownAt` — where a party of a pool stands
- `Simulation.Tied`, `Simulation.TiedAll` — a party stands where the activity waits that works for
  the pool
- `Simulation.Drives` — whenever the activities go on, so do their parties

## Main statements

- `Simulation.KnownAt.of_leads` — a party stays where it is while others move on
- `Simulation.Drives.pollAll` — several activities go on one after the other
-/

namespace Switchboard.Simulation

open Upkeep

variable {σ α : Type} {drained : List ℕ} {ticket : ℕ} {keys : List (ℕ × ℕ)} {key : ℕ × ℕ}
  {w w' : World} {c c' : Site} {x y : Party}

/-! ### Keys -/

/-- The party with the key has got so far. -/
structure KnownAt (far : Stocking.Party → Prop) (w : World) (c : Site) (key : ℕ × ℕ) : Prop where
  old : key.2 < w.stamp
  party : ∃ t, c.pools[key.1]? = some t ∧ far (t.parties key.2)

/-- A party stays where it is while others move on. -/
theorem KnownAt.of_leads {far : Stocking.Party → Prop} (h : KnownAt far w c key)
    (leads : Leads drained ticket keys w c x w' c' y) (other : key ∉ keys) :
    KnownAt far w' c' key := by
  obtain ⟨t, found, hfar⟩ := h.party
  obtain ⟨t', found', -, hstays⟩ := leads.stays key.1 t found
  refine ⟨h.old.trans_le leads.stamp, t', found', ?_⟩
  rwa [hstays key.2 h.old other]

/-- The party with the key stands where the activity waits that works for the pool. -/
structure Tied (pool : σ → ℕ) (stands : ℕ → σ → Stocking.Party → Prop) (w : World) (c : Site)
    (s : σ) (key : ℕ × ℕ) : Prop where
  pool : key.1 = pool s
  known : KnownAt (stands key.2 s) w c key

variable {pool : σ → ℕ} {stands : ℕ → σ → Stocking.Party → Prop}

theorem Tied.of_leads {s : σ} (h : Tied pool stands w c s key)
    (leads : Leads drained ticket keys w c x w' c' y) (other : key ∉ keys) :
    Tied pool stands w' c' s key :=
  ⟨h.pool, h.known.of_leads leads other⟩

/-- Each of the activities is tied to a party of its own. -/
structure TiedAll (pool : σ → ℕ) (stands : ℕ → σ → Stocking.Party → Prop) (w : World) (c : Site)
    (work : List σ) (keys : List (ℕ × ℕ)) : Prop where
  tied : List.Forall₂ (Tied pool stands w c) work keys
  nodup : keys.Nodup

namespace TiedAll

variable {work rest : List σ} {mine more : List (ℕ × ℕ)}

theorem nil : TiedAll pool stands w c [] [] :=
  ⟨.nil, .nil⟩

theorem cons {s : σ} (h : Tied pool stands w c s key) (others : TiedAll pool stands w c work mine)
    (new : key ∉ mine) : TiedAll pool stands w c (s :: work) (key :: mine) :=
  ⟨.cons h others.tied, List.nodup_cons.mpr ⟨new, others.nodup⟩⟩

theorem single {s : σ} (h : Tied pool stands w c s key) : TiedAll pool stands w c [s] [key] :=
  .cons h .nil List.not_mem_nil

theorem old (h : TiedAll pool stands w c work mine) : ∀ key ∈ mine, key.2 < w.stamp := by
  obtain ⟨htied, -⟩ := h
  induction htied with
  | nil => exact fun key hkey => absurd hkey List.not_mem_nil
  | cons tied _ ih =>
    intro key hkey
    rcases List.mem_cons.mp hkey with rfl | hkey
    · exact tied.known.old
    · exact ih key hkey

theorem of_leads (h : TiedAll pool stands w c work mine)
    (leads : Leads drained ticket keys w c x w' c' y) (others : ∀ key ∈ mine, key ∉ keys) :
    TiedAll pool stands w' c' work mine := by
  refine ⟨?_, h.nodup⟩
  obtain ⟨htied, -⟩ := h
  induction htied with
  | nil => exact .nil
  | cons tied _ ih =>
    exact .cons (tied.of_leads leads (others _ List.mem_cons_self))
      (ih fun key hkey => others key (List.mem_cons_of_mem _ hkey))

/-- Other activities have been begun since then. -/
theorem append (h : TiedAll pool stands w c work mine)
    (leads : Leads drained ticket [] w c x w' c' y) (h' : TiedAll pool stands w' c' rest more)
    (fresh : ∀ key ∈ more, w.stamp ≤ key.2) :
    TiedAll pool stands w' c' (work ++ rest) (mine ++ more) := by
  refine ⟨List.rel_append (h.of_leads leads fun _ _ => List.not_mem_nil).tied h'.tied, ?_⟩
  refine h.nodup.append h'.nodup fun key hkey hkey' => ?_
  exact Nat.lt_irrefl _ ((h.old key hkey).trans_le (fresh key hkey'))

end TiedAll

/-! ### Going on -/

/-- Where the party stands that an activity has been tied to. -/
def TiedAfter (pool : σ → ℕ) (stands : ℕ → σ → Stocking.Party → Prop)
    (ends : Stocking.Party → Prop) (w : World) (c : Site) (key : ℕ × ℕ) : Progress σ α → Prop
  | .wait s _ => Tied pool stands w c s key
  | .done _ => KnownAt ends w c key

/-- Whenever the activities go on, so do the parties that they are tied to. -/
def Drives (poll : σ → Sim (Progress σ α)) (pool : σ → ℕ)
    (stands : ℕ → σ → Stocking.Party → Prop) (ends : Stocking.Party → Prop) : Prop :=
  ∀ {drained} (ticket x) {w c s key}, Fits drained w c → Tied pool stands w c s key →
    ∃ c', Leads drained ticket [key] w c x ((poll s).run w).2 c' x ∧
      TiedAfter pool stands ends ((poll s).run w).2 c' key ((poll s).run w).1

/-- Several activities go on one after the other, and some of them come to their ends. -/
theorem Drives.pollAll {poll : σ → Sim (Progress σ α)} {ends : Stocking.Party → Prop}
    (h : Drives poll pool stands ends) (ticket : ℕ) (x : Party) (work : List (Child σ α))
    (hc : Fits drained w c)
    (all : TiedAll pool stands w c (work.filterMap Child.running?) keys) :
    ∃ c' keys', Leads drained ticket keys w c x ((Child.pollAll poll work).run w).2 c' x ∧
      TiedAll pool stands ((Child.pollAll poll work).run w).2 c'
        (((Child.pollAll poll work).run w).1.1.filterMap Child.running?) keys' ∧
      keys'.Sublist keys ∧
      ∀ key ∈ keys, key ∉ keys' → KnownAt ends ((Child.pollAll poll work).run w).2 c' key := by
  induction work generalizing w c keys with
  | nil =>
    obtain ⟨_ | _, -⟩ := all
    exact ⟨c, [], .refl hc, .nil, .refl _, nofun⟩
  | cons child rest ih =>
    cases child with
    | ended result =>
      rw [Child.pollAll, run_bind]
      exact ih hc all
    | running s =>
      obtain ⟨_ | @⟨_, key, _, keys, hfirst, hrest⟩, hnodup⟩ := all
      obtain ⟨hnew, hnodup⟩ := List.nodup_cons.mp hnodup
      obtain ⟨c₁, hleads, hgone⟩ := h ticket x hc hfirst
      have hrest' := TiedAll.of_leads ⟨hrest, hnodup⟩ hleads fun key' hkey' heq =>
        hnew (List.mem_singleton.mp heq ▸ hkey')
      obtain ⟨c₂, keys', hleads', htied, hsub, hends⟩ := ih hleads.fits hrest'
      have hall : Leads drained ticket (key :: keys) w c x
          ((Child.pollAll poll rest).run ((poll s).run w).2).2 c₂ x := by
        refine (hleads.mono fun key' hkey' => .inl ?_).trans hleads' fun key' hkey' => .inl ?_
        · exact List.mem_singleton.mp hkey' ▸ List.mem_cons_self
        · exact List.mem_cons_of_mem _ hkey'
      rw [Child.pollAll, run_bind]
      generalize (poll s).run w = polled at *
      obtain ⟨_ | ⟨s', events⟩, w₁⟩ := polled
      · refine ⟨c₂, keys', hall, htied, hsub.cons _, fun key' hkey' hnone => ?_⟩
        rcases List.mem_cons.mp hkey' with rfl | hkey'
        · exact KnownAt.of_leads hgone hleads' hnew
        · exact hends key' hkey' hnone
      · have hnone : key ∉ keys' := fun hmem => hnew (hsub.subset hmem)
        refine ⟨c₂, key :: keys', hall, .cons (Tied.of_leads hgone hleads' hnew) htied hnone,
          hsub.cons_cons _, fun key' hkey' hnone => ?_⟩
        obtain ⟨hne, hnone⟩ := not_or.mp (mt List.mem_cons.mpr hnone)
        exact hends key' ((List.mem_cons.mp hkey').resolve_left hne) hnone

end Switchboard.Simulation
