import Switchboard.Proofs.Inflight.Table
import Switchboard.Proofs.Interleaving.Worlds
import Switchboard.Simulation.PoolWork

/-!
# Requests pending on a pool

What whoever drains a pool looks for, and what closing the pool does to it.  The requests pending on
a pool are those in the tables of its connections.  Closing ends requests on the connections that
the pool holds when they are taken out, and nowhere else.

## Main definitions

- `Simulation.World.Pends` — a request is pending on a connection of a pool
- `Simulation.Sweeps` — a change that ends requests on some connections

## Main statements

- `Inflight.latestDeadline_le_iff`, `Inflight.exists_latestDeadline` — what the furthest deadline is
- `Simulation.PoolClosing.sweeps_start`, `Simulation.PoolClosing.sweeps_poll` — closing a pool
  ends requests on its connections
-/

namespace Switchboard

/-! ### Tables -/

theorem Inflight.shrinks_failEach (fault : Fault) (ids : List UInt64) (t : Inflight) :
    t.Shrinks (failEach fault ids t).2 := by
  induction ids generalizing t with
  | nil => exact t.shrinks_refl
  | cons sync ids ih => exact (t.shrinks_remove sync _).trans (ih _)

theorem max?_le_iff {l : List ℕ} {n : ℕ} : (∀ m ∈ l.max?, m ≤ n) ↔ ∀ m ∈ l, m ≤ n := by
  cases hmax : l.max? with
  | none =>
    rw [List.max?_eq_none_iff] at hmax
    simp [hmax]
  | some m =>
    rw [← List.max?_le_iff hmax]
    simp

/-- The furthest deadline has come once all deadlines have. -/
theorem Inflight.latestDeadline_le_iff {t : Inflight} {n : ℕ} :
    (∀ d ∈ t.latestDeadline, d ≤ n) ↔ ∀ e ∈ t.entries, e.deadline ≤ n :=
  max?_le_iff.trans List.forall_mem_map

/-- No deadline is further than the furthest. -/
theorem Inflight.exists_latestDeadline {t : Inflight} {e : Pending} (he : e ∈ t.entries) :
    ∃ d ∈ t.latestDeadline, e.deadline ≤ d := by
  cases hlatest : t.latestDeadline with
  | none =>
    have hnone := List.map_eq_nil_iff.mp (List.max?_eq_none_iff.mp hlatest)
    exact absurd (hnone ▸ he) List.not_mem_nil
  | some d =>
    refine ⟨d, rfl, latestDeadline_le_iff.mp (fun d' hd' => ?_) e he⟩
    rw [hlatest] at hd'
    exact Nat.le_of_eq (Option.some.inj hd').symm

/-- Closing a connection registers nothing. -/
theorem Connection.shrinks_beginClose? {c c' : Connection} (h : c.beginClose? = some c') :
    c.inflight.Shrinks c'.inflight := by
  obtain ⟨left, hleave, rfl⟩ := Option.map_eq_some_iff.mp h
  obtain ⟨-, rfl⟩ := Connection.leave?_eq_some_iff.mp hleave
  exact Inflight.shrinks_failEach ..

namespace Simulation

variable {p c : ℕ} {w w' w'' : World} {e : Pending}

/-! ### What is pending -/

/-- The connections of a pool. -/
def World.members (w : World) (p : ℕ) : List ℕ :=
  (w.depots.getD p default).core.members

/-- The requests in flight on a connection. -/
def World.table (w : World) (c : ℕ) : Inflight :=
  (w.connection c).inflight

/-- The request is pending on the connection, and that belongs to the pool. -/
def World.Pends (w : World) (p c : ℕ) (e : Pending) : Prop :=
  c ∈ w.members p ∧ e ∈ (w.table c).entries

/-- The furthest deadline of the connections of a pool has come once all deadlines have. -/
theorem World.latestDeadline_le_iff {n : ℕ} :
    (∀ d ∈ w.latestDeadline p, d ≤ n) ↔ ∀ c e, w.Pends p c e → e.deadline ≤ n := by
  have hlatest : (∀ d ∈ w.latestDeadline p, d ≤ n) ↔
      ∀ d ∈ (w.members p).filterMap fun c => (w.table c).latestDeadline, d ≤ n := max?_le_iff
  simp only [hlatest, List.mem_filterMap]
  refine ⟨fun h c e ⟨hc, he⟩ => ?_, fun h d ⟨c, hc, hd⟩ => ?_⟩
  · exact Inflight.latestDeadline_le_iff.mp (fun d hd => h d ⟨c, hc, hd⟩) e he
  · exact Inflight.latestDeadline_le_iff.mpr (fun e he => h c e ⟨hc, he⟩) d hd

/-! ### Closing the pool -/

/-- A change that ends requests on some connections and registers none.  The pool gets no
connections, and no time passes. -/
structure Sweeps (p : ℕ) (cs : List ℕ) (w w' : World) : Prop where
  now : w'.now = w.now
  members : w'.members p ⊆ w.members p
  entries : ∀ c, (w'.table c).entries ⊆ (w.table c).entries
  others : ∀ c ∉ cs, w'.table c = w.table c

variable {cs : List ℕ}

instance : IsPreorder World (Sweeps p cs) where
  refl _ := ⟨rfl, List.Subset.refl _, fun _ => List.Subset.refl _, fun _ _ => rfl⟩
  trans _ _ _ h h' := ⟨h'.now.trans h.now, List.Subset.trans h'.members h.members,
    fun c => List.Subset.trans (h'.entries c) (h.entries c),
    fun c hc => (h'.others c hc).trans (h.others c hc)⟩

namespace Sweeps

theorem mono {cs' : List ℕ} (h : Sweeps p cs w w') (hsub : cs ⊆ cs') : Sweeps p cs' w w' :=
  { h with others := fun c hc => h.others c fun hmem => hc (hsub hmem) }

/-- Nothing becomes pending. -/
theorem pends (h : Sweeps p cs w w') (he : w'.Pends p c e) : w.Pends p c e :=
  ⟨h.members he.1, h.entries c he.2⟩

theorem of_links_eq (now : w'.now = w.now) (members : w'.members p ⊆ w.members p)
    (links : w'.links = w.links) : Sweeps p cs w w' := by
  have htable : ∀ c, w'.table c = w.table c := fun c => by
    rw [World.table, World.connection, links]
    rfl
  exact ⟨now, members, fun c => (htable c) ▸ List.Subset.refl _, fun c _ => htable c⟩

end Sweeps

theorem sweeps_emit (event : Event) : Within (Sweeps p cs) (emit event) :=
  .modify fun _ => .of_links_eq rfl (List.Subset.refl _) rfl

theorem members_setDepot (d : Depot) :
    ((setDepot p d).run w).2.members p = d.core.members ∨
      ((setDepot p d).run w).2.members p = w.members p := by
  show ((w.depots.setIfInBounds p d).getD p default).core.members = _ ∨
    ((w.depots.setIfInBounds p d).getD p default).core.members = _
  by_cases hp : p < w.depots.size
  · rw [Array.getD_eq_getD_getElem?, Array.getElem?_setIfInBounds_self_of_lt hp]
    exact .inl rfl
  · rw [Array.setIfInBounds_eq_of_size_le (Nat.le_of_not_lt hp)]
    exact .inr rfl

/-- The pool holds no connections but those that it held. -/
theorem sweeps_setPool {core : Pool} (h : core.members ⊆ w.members p) :
    Sweeps p cs w ((setPool p core).run w).2 := by
  refine .of_links_eq rfl ?_ rfl
  rcases members_setDepot (p := p) (w := w) { w.depots.getD p default with core } with heq | heq
  · exact heq ▸ h
  · exact heq ▸ List.Subset.refl _

/-- The lock of the pool changes hands. -/
theorem sweeps_setLock (l : Lock) : Within (Sweeps p cs) (setLock (.pool p) l) := by
  refine .modify fun w => .of_links_eq rfl ?_ rfl
  show ((w.depots.modify p fun d => { d with lock := l }).getD p default).core.members ⊆ _
  rw [Array.getD_eq_getD_getElem?, Array.getElem?_modify, if_pos rfl, World.members,
    Array.getD_eq_getD_getElem?]
  cases w.depots[p]? <;> exact List.Subset.refl _

theorem sweeps_requestLock : Within (Sweeps p cs) (requestLock (.pool p)) := by
  refine .bind ⟨fun w => .of_links_eq rfl (List.Subset.refl _) rfl⟩ fun ticket => .bind .get ?_
  exact fun w => .bind (sweeps_setLock _) fun _ => .pure _

theorem sweeps_withdrawLock (ticket : ℕ) :
    Within (Sweeps p cs) (withdrawLock (.pool p) ticket) := by
  refine .bind .get fun w => ?_
  dsimp only
  refine .bind (sweeps_setLock _) fun _ => ?_
  split
  · exact sweeps_emit _
  · exact .pure _

/-- A connection in the list goes on with some of its requests, or any connection with all. -/
theorem sweeps_setConnection {core : Connection}
    (hsub : core.inflight.entries ⊆ (w.table c).entries)
    (hc : c ∉ cs → core.inflight = w.table c) :
    Sweeps p cs w ((setConnection c core).run w).2 := by
  have hself : ((setConnection c core).run w).2.table c = core.inflight ∨
      ((setConnection c core).run w).2.table c = w.table c := by
    by_cases hlt : c < w.links.size
    · exact .inl (congrArg _ (Interleaving.connection_setLink hlt _))
    · right
      show ((w.links.setIfInBounds c _).getD c default).core.inflight = _
      rw [Array.setIfInBounds_eq_of_size_le (Nat.le_of_not_lt hlt)]
      rfl
  have hothers : ∀ d ≠ c, ((setConnection c core).run w).2.table d = w.table d :=
    fun d hd => congrArg _ ((Interleaving.only_setLink c _ w).others d hd)
  refine ⟨rfl, List.Subset.refl _, fun d => ?_, fun d hd => ?_⟩
  · by_cases hdc : d = c
    · subst hdc
      rcases hself with heq | heq
      · exact heq ▸ hsub
      · exact heq ▸ List.Subset.refl _
    · exact hothers d hdc ▸ List.Subset.refl _
  · by_cases hdc : d = c
    · subst hdc
      rcases hself with heq | heq
      · exact heq.trans (hc hd)
      · exact heq
    · exact hothers d hdc

/-- Those who end a connection tell everybody afterwards. -/
theorem sweeps_sweep {after : Connection}
    (h : Sweeps p cs w ((setConnection c after).run w).2) :
    Sweeps p cs w ((sweep c after).run w).2 := by
  have htold : Within (Sweeps p cs) (emit (.stopped c) >>= fun _ =>
      (w.links.getD c default).core.inflight.entries.forM fun e => emit (.settled c e.slot)) :=
    .bind (sweeps_emit _) fun _ => .forM fun _ => sweeps_emit _
  rw [sweep, run_link_bind, run_bind]
  exact trans_of _ h (htold.holds _)

namespace Closing

/-- A connection whose writer has ended keeps its table. -/
theorem sweeps_poll (c : ℕ) : Within (Sweeps p cs) (poll c) := by
  refine ⟨fun w => ?_⟩
  have hfinished : Sweeps p cs w
      ((setConnection c (w.links.getD c default).core.finishClose).run w).2 :=
    sweeps_setConnection (List.Subset.refl _) fun _ => rfl
  rw [poll, run_link_bind]
  cases (w.links.getD c default).writer with
  | none => exact refl_of _ w
  | some ending =>
    dsimp only
    rw [run_bind]
    cases ending <;> exact hfinished

theorem sweeps_start (hc : c ∈ cs) : Within (Sweeps p cs) (start c) := by
  refine ⟨fun w => ?_⟩
  rw [start, run_link_bind]
  cases hbegin : (w.links.getD c default).core.beginClose? with
  | none => exact refl_of _ w
  | some core =>
    have hset : Sweeps p cs w ((setConnection c core).run w).2 :=
      sweeps_setConnection (Connection.shrinks_beginClose? hbegin).entries.subset (absurd hc)
    dsimp only
    rw [run_bind]
    exact trans_of _ (sweeps_sweep hset) ((sweeps_poll c).holds _)

end Closing

namespace PoolClosing

theorem sweeps_closeEach {connections : List ℕ} (hsub : connections ⊆ cs) :
    Within (Sweeps p cs) (closeEach connections) := by
  induction connections with
  | nil => exact .pure _
  | cons c rest ih =>
    have hrest := ih (List.subset_of_cons_subset hsub)
    refine .bind (Closing.sweeps_start (hsub List.mem_cons_self)) fun progress => ?_
    cases progress <;> exact .bind (.pure _) fun _ => .bind hrest fun _ => .pure _

theorem sweeps_await (ticket : ℕ) (connections : List ℕ)
    (work : List (Child ℕ (Except Fault Unit))) :
    Within (Sweeps p cs) (await p ticket connections work) :=
  .andThen (.join Closing.sweeps_poll _) fun _ => .bind (sweeps_withdrawLock _) fun _ => .pure _

/-- Requests end only where the connections are taken out of the pool, and only on those. -/
theorem sweeps_poll (work : PoolClosing) (w : World) :
    Sweeps p (w.members p) w ((work.poll p).run w).2 := by
  cases work with
  | closing ticket connections work => exact (sweeps_await ticket connections work).holds w
  | queued ticket =>
    rw [poll, run_holdsLock_bind]
    cases (w.lock (.pool p)).isHeldBy ticket with
    | false => exact refl_of _ w
    | true =>
      rw [if_pos rfl, run_depot_bind]
      dsimp only
      rw [run_bind]
      have htaken : Sweeps p (w.members p) w
          ((setPool p (w.depots.getD p default).core.takeAll.2).run w).2 :=
        sweeps_setPool (List.nil_subset _)
      have hclosed : Within (Sweeps p (w.members p)) (closeEach (w.members p) >>= fun work =>
          await p ticket (w.members p) work) :=
        .bind (sweeps_closeEach (List.Subset.refl _)) fun _ => sweeps_await ..
      exact trans_of _ htaken (hclosed.holds _)

/-- The pool is marked as closed, and its connections are taken out as soon as the lock is free. -/
theorem sweeps_start (w : World) : Sweeps p (w.members p) w ((start p).run w).2 := by
  rw [start, run_depot_bind]
  cases hbegin : (w.depots.getD p default).core.beginClose? with
  | none => exact refl_of _ w
  | some core =>
    have hkept : core.members ⊆ w.members p := by
      obtain ⟨-, rfl⟩ := Pool.beginClose?_eq_some_iff.mp hbegin
      exact List.Subset.refl _
    dsimp only
    rw [run_bind, run_bind, run_bind]
    have hmarked : Sweeps p (w.members p) w ((setPool p core).run w).2 := sweeps_setPool hkept
    have hasked := trans_of _ hmarked ((sweeps_emit (.poolStopped p)).holds _)
    have hqueued := trans_of _ hasked (sweeps_requestLock.holds _)
    exact trans_of _ hqueued ((sweeps_poll _ _).mono hqueued.members)

end PoolClosing

end Simulation

end Switchboard
