import Switchboard.Proofs.Pools.Invariant

/-!
# The stock of a pool

Whoever opens connections for a pool, whoever closes it, and whatever becomes of its connections
meanwhile: it never holds more than it is meant to.  What opening the missing connections lets go of
are connections whose lives are over.  It takes in all that it has just opened, even one that has
come to its end by then.

## Main statements

- `Stocking.Run.keeps_stock` — what a pool holds, what opening connections does to it and what it
  offers
- `Stocking.takes_in_failed` — a connection may be taken in that has failed already
-/

namespace Switchboard.Stocking

variable {first s s' : State} {address : Address} {config : ClientConfig}
  {stages : List Stage}

/-- The connections of a pool are changed by those who open connections, and by those who close it.
-/
theorem Invariant.members_cases (hs : Invariant first s) (h : Step s s') :
    s'.site.pool.members = s.site.pool.members ∨
      s.site.pool.closed = true ∧ s'.site.pool.members = [] ∨
      ∃ k u attempts, Run first u ∧ Replenishment k u s s' attempts := by
  cases h with
  | @party k c' y step =>
    have hknown := hs.parties k
    generalize hx : s.parties k = x at step hknown
    cases step with
    | replenishing step =>
      cases step with
      | installed finished =>
        obtain ⟨u, hbefore, hwork⟩ := hs.replenishment hx finished
        exact .inr (.inr ⟨k, u, _, hbefore, hwork⟩)
      | _ => exact .inl rfl
    | closing step =>
      cases step with
      | taken => exact .inr (.inl ⟨hknown, rfl⟩)
      | _ => exact .inl rfl
    | _ => exact .inl rfl
  | life | elsewhere | abandoned => exact .inl rfl
  | acquire shard draw =>
    obtain ⟨selector, hpool⟩ := s.site.pool.acquire_snd s.site.stage shard draw
    rw [hpool]
    exact .inl rfl

/-- A pool holds at most as many connections as configured, and none of them twice.  Whoever opens
the missing connections is refused only once the pool is closed or everybody has let go of it.
Otherwise it lets go of the connections whose lives are over, keeps the others and adds exactly
those that it has opened, which fills the pool if nothing fails.  Nothing else changes what a pool
holds that is not closed.  A connection in service is picked if there is one. -/
theorem Run.keeps_stock (h : Run (start address config stages) s) :
    s.site.pool.config = config ∧
    s.site.pool.members.length ≤ config.connections ∧
    s.site.pool.members.Nodup ∧
    (∀ k count, s.parties k = .replenished count →
      Answered (start address config stages) s k count) ∧
    (∀ s', Step s s' → s'.site.pool.members = s.site.pool.members ∨
      s.site.pool.closed = true ∧ s'.site.pool.members = [] ∨
      ∃ k u attempts, Run (start address config stages) u ∧ Replenishment k u s s' attempts) ∧
    ∀ shard draw,
      (∃ n ∈ s.site.pool.members, s.site.stage n = .ready ∧
        (s.site.pool.acquire s.site.stage shard draw).1 = .ok n) ∨
      (∀ n ∈ s.site.pool.members, s.site.stage n ≠ .ready) ∧
        (s.site.pool.acquire s.site.stage shard draw).1 = .error (.noAvailableConnection
          ("no ready connection to " ++ s.site.pool.address.display)) := by
  have hs := h.sound
  have hconfig : s.site.pool.config = config := hs.config
  refine ⟨hconfig, hconfig ▸ hs.site.le, hs.site.nodup, fun k count hk => ?_,
    fun s' last => hs.members_cases last, fun shard draw => ?_⟩
  · have hknown := hs.parties k
    rwa [hk] at hknown
  · rcases s.site.pool.acquire_cases s.site.stage shard draw with
      ⟨n, hready, hpicked⟩ | ⟨hnone, hpicked⟩
    · obtain ⟨hmem, hstage⟩ := (Pool.mem_ready ..).mp hready
      exact .inl ⟨n, hmem, hstage, hpicked⟩
    · refine .inr ⟨fun n hmem hstage => ?_, hpicked⟩
      have hready := (Pool.mem_ready ..).mpr ⟨hmem, hstage⟩
      rw [hnone] at hready
      cases hready

/-- Of two attempts one fails, so the pool has room left; what has been opened is picked. -/
theorem Run.keeps_stock_half_opened :
    ∃ s, Run (start default { connections := 2 } []) s ∧ s.site.pool.members = [0] ∧
      Answered (start default { connections := 2 } []) s 0 1 ∧
      (s.site.pool.acquire s.site.stage 0 0).1 = .ok 0 := by
  have h₁ := Run.nil.snoc
    (.of_party (s := start default { connections := 2 } []) (k := 0) rfl .asks)
  have h₂ := h₁.snoc (.of_party (k := 0) rfl (.replenishing (.begun rfl rfl)))
  have h₃ := h₂.snoc (.of_party (k := 0) rfl (.replenishing (.opened [] [.running])))
  have h₄ := h₃.snoc (.of_party (k := 0) rfl (.replenishing (.failed [.opened 0] [])))
  have h₅ := h₄.snoc (.of_party (k := 0) rfl (.replenishing (.installed (by decide))))
  have h := h₅.snoc (.of_party (k := 0) rfl .replenished)
  obtain ⟨-, -, -, hanswered, -, hpicks⟩ := h.keeps_stock
  refine ⟨_, h, rfl, hanswered 0 1 rfl, ?_⟩
  rcases hpicks 0 0 with ⟨n, hn, -, hpicked⟩ | ⟨hnone, -⟩
  · rwa [List.mem_singleton.mp hn] at hpicked
  · exact absurd rfl (hnone 0 List.mem_cons_self)

/-- A connection may be taken in that has failed since it was opened: here the server has ended the
stream before the other attempt is over. -/
theorem takes_in_failed :
    ¬∀ k u v w attempts, Run (start default { connections := 2 } []) u →
      Replenishment k u v w attempts → w.site.pool.closed = false →
      ∀ n ∈ w.site.pool.members, (v.site.stage n).isTerminal = false := by
  intro hall
  have h₁ := Run.nil.snoc
    (.of_party (s := start default { connections := 2 } []) (k := 0) rfl .asks)
  have h₂ := h₁.snoc (.of_party (k := 0) rfl (.replenishing (.begun rfl rfl)))
  have h₃ := h₂.snoc (.of_party (k := 0) rfl (.replenishing (.opened [] [.running])))
  have h₄ := h₃.snoc (.life (n := 0) Nat.one_pos (.fails rfl))
  have h := h₄.snoc (.of_party (k := 0) rfl (.replenishing (.failed [.opened 0] [])))
  obtain ⟨u, hu, hwork⟩ := h.sound.replenishment (k := 0) rfl (by decide)
  cases hall 0 u _ _ _ hu hwork rfl 0 List.mem_cons_self

end Switchboard.Stocking
