import Mathlib.Data.List.Basic
import Switchboard.Simulation.Sending

/-!
# Attempts under a policy

A request is dispatched again for as long as it fails and some rule allows another attempt.  What
has been asked of the dispatcher, and when, stands in a record that it keeps.

## Main definitions

- `Retry.Rule.Allows` — a rule allows another attempt
- `Retry.Policy.Grants` — the pause before another attempt
- `Retry.Call`, `Retry.recording` — a dispatcher that keeps a record of its calls
- `Retry.Tries` — a record as a policy has it

## Main statements

- `Retry.attemptsFrom_tries` — attempts leave such a record, and keeping it changes nothing
- `Retry.attempts_follow_policy` — which attempts are made, and when
- `Simulation.Dispatching.run_settle` — what an activity does after an attempt

## Design notes

Attempts are counted in 32 bits, and no more are made than a bound computed from the rules.  The
record counts in naturals and knows no bound, so neither can be what ends a row of attempts.
-/

namespace Switchboard

namespace Retry

/-! ### Rules and policies -/

/-- The rule allows another attempt after so many, the last of which failed for the fault. -/
def Rule.Allows (r : Rule) (fault : Fault) (made : ℕ) : Prop :=
  made < r.maxAttempts.toNat ∧ r.condition fault = true

/-- The first rule that allows another attempt after so many has the pause. -/
def Policy.Grants (p : Policy) (fault : Fault) (made : ℕ) (pause : Duration) : Prop :=
  ∃ before rule after, p.rules = before ++ rule :: after ∧ rule.Allows fault made ∧
    (∀ r ∈ before, ¬ r.Allows fault made) ∧ rule.delay.afterAttempt (.ofNat made) = pause

variable {p : Policy} {fault : Fault} {made : ℕ} {attempt : UInt32} {pause : Duration}

theorem Rule.pauseAfter?_eq_some_iff {r : Rule} :
    r.pauseAfter? fault attempt = some pause ↔
      r.Allows fault attempt.toNat ∧ r.delay.afterAttempt attempt = pause := by
  simp [pauseAfter?, Allows, UInt32.lt_iff_toNat_lt]

theorem Rule.pauseAfter?_eq_none_iff {r : Rule} :
    r.pauseAfter? fault attempt = none ↔ ¬ r.Allows fault attempt.toNat := by
  simp [pauseAfter?, Allows, UInt32.lt_iff_toNat_lt]

theorem Policy.pauseAfter?_eq_some_iff :
    p.pauseAfter? fault attempt = some pause ↔ p.Grants fault attempt.toNat pause := by
  simp only [pauseAfter?, List.findSome?_eq_some_iff, Rule.pauseAfter?_eq_some_iff,
    Rule.pauseAfter?_eq_none_iff, Grants, UInt32.ofNat_toNat]
  constructor
  · rintro ⟨before, rule, after, hrules, ⟨hallows, hpause⟩, hbefore⟩
    exact ⟨before, rule, after, hrules, hallows, hbefore, hpause⟩
  · rintro ⟨before, rule, after, hrules, hallows, hbefore, hpause⟩
    exact ⟨before, rule, after, hrules, ⟨hallows, hpause⟩, hbefore⟩

theorem Policy.pauseAfter?_eq_none_iff :
    p.pauseAfter? fault attempt = none ↔ ∀ r ∈ p.rules, ¬ r.Allows fault attempt.toNat := by
  simp only [pauseAfter?, List.findSome?_eq_none_iff, Rule.pauseAfter?_eq_none_iff]

theorem Policy.Grants.exists_allows (h : p.Grants fault made pause) :
    ∃ r ∈ p.rules, r.Allows fault made := by
  obtain ⟨before, rule, after, hrules, hallows, -⟩ := h
  exact ⟨rule, hrules ▸ List.mem_append_right _ (List.mem_cons_self ..), hallows⟩

/-- The number of the next attempt is one that can be counted. -/
theorem Rule.Allows.lt_size {r : Rule} (h : r.Allows fault made) : made + 1 < UInt32.size :=
  Nat.lt_of_le_of_lt h.1 r.maxAttempts.toNat_lt

theorem foldl_max_le_iff {rules : List Rule} {n bound : ℕ} :
    rules.foldl (fun n r => max n r.maxAttempts.toNat) n ≤ bound ↔
      n ≤ bound ∧ ∀ r ∈ rules, r.maxAttempts.toNat ≤ bound := by
  induction rules generalizing n with
  | nil => simp
  | cons r rest ih => rw [List.foldl_cons, ih, Nat.max_le, List.forall_mem_cons, and_assoc]

/-- A rule that allows another attempt is within the bound on all attempts. -/
theorem Rule.Allows.lt_maxAttempts {r : Rule} (h : r.Allows fault made) (hr : r ∈ p.rules) :
    made < p.maxAttempts :=
  Nat.lt_of_lt_of_le h.1 ((foldl_max_le_iff.mp (Nat.le_refl p.maxAttempts)).2 r hr)

/-! ### The record of a dispatcher -/

/-- A request that a dispatcher has been asked for at a millisecond, and the outcome that it gave,
with the millisecond at which it was there. -/
structure Call where
  request : Request
  sent : ℕ
  outcome : Outcome
  answered : ℕ

/-- The dispatcher, which now keeps a record of its calls as well. -/
def recording {σ : Type} (dispatch : Dispatch σ) : Dispatch (List Call × σ) :=
  fun request now (calls, s) =>
    let (outcome, answered, s) := dispatch request now s
    (outcome, answered, calls ++ [⟨request, now, outcome, answered⟩], s)

/-- A record as a policy has it, from the millisecond `now` on and after `made` earlier attempts:
each call but the last failed for a fault after which some rule allows another attempt, and the next
call came after the pause. -/
inductive Tries (p : Policy) (request : Request) : ℕ → ℕ → List Call → Prop
  | last {made now call} (asked : call.request = request) (sent : call.sent = now)
    (ends : ∀ fault, call.outcome = .error fault →
      ∀ r ∈ p.rules, ¬ r.Allows fault (made + 1)) :
    Tries p request made now [call]
  | again {made now call fault pause calls} (asked : call.request = request)
    (sent : call.sent = now) (failed : call.outcome = .error fault)
    (grants : p.Grants fault (made + 1) pause)
    (rest : Tries p request (made + 1) (call.answered + pause.millisUp) calls) :
    Tries p request made now (call :: calls)

namespace Tries

variable {request : Request} {now : ℕ} {calls : List Call}

theorem asked (h : Tries p request made now calls) : ∀ call ∈ calls, call.request = request := by
  induction h with
  | last asked => exact List.forall_mem_singleton.mpr asked
  | again asked _ _ _ _ ih => exact List.forall_mem_cons.mpr ⟨asked, ih⟩

theorem head?_sent (h : Tries p request made now calls) : calls.head?.map Call.sent = some now := by
  cases h with
  | last _ sent | again _ sent => exact congrArg some sent

/-- A call was made exactly if all before it failed, each for a fault after which some rule allows
another attempt. -/
theorem lt_length_iff (h : Tries p request made now calls) (k : ℕ) :
    k < calls.length ↔ ∀ i < k, ∃ call fault, calls[i]? = some call ∧
      call.outcome = .error fault ∧ ∃ r ∈ p.rules, r.Allows fault (made + i + 1) := by
  induction h generalizing k with
  | @last made _ call _ _ ends =>
    cases k with
    | zero => simp
    | succ k =>
      refine iff_of_false (by simp) fun hall => ?_
      obtain ⟨_, fault, heq, hfailed, r, hr, hallows⟩ := hall 0 (Nat.succ_pos k)
      cases heq
      exact ends fault hfailed r hr hallows
  | @again made _ call fault _ calls _ _ failed grants _ ih =>
    cases k with
    | zero => simp
    | succ k =>
      have hindex : ∀ i, made + 1 + i + 1 = made + (i + 1) + 1 := by omega
      rw [List.length_cons, Nat.succ_lt_succ_iff, ih, Nat.forall_lt_succ_left]
      simp only [List.getElem?_cons_succ, hindex]
      exact (and_iff_right ⟨call, fault, rfl, failed, grants.exists_allows⟩).symm

/-- A call that is followed by another one failed, and the other one came after the pause. -/
theorem paused (h : Tries p request made now calls) {i : ℕ} {call next : Call}
    (hcall : calls[i]? = some call) (hnext : calls[i + 1]? = some next) :
    ∃ fault pause, call.outcome = .error fault ∧ p.Grants fault (made + i + 1) pause ∧
      next.sent = call.answered + pause.millisUp := by
  induction h generalizing i with
  | last => simp at hnext
  | @again made _ first fault pause calls _ _ failed grants rest ih =>
    cases i with
    | zero =>
      cases hcall
      refine ⟨fault, pause, failed, grants, ?_⟩
      have hsent := rest.head?_sent
      rw [List.getElem?_cons_succ, ← List.head?_eq_getElem?] at hnext
      rw [hnext] at hsent
      exact Option.some.inj hsent
    | succ i =>
      rw [Nat.add_right_comm made]
      exact ih hcall hnext

end Tries

/-! ### Attempts -/

section

variable {σ : Type} {dispatch : Dispatch σ} {request : Request} {now answered : ℕ} {s s' : σ}

theorem recording_eq {outcome : Outcome} (h : dispatch request now s = (outcome, answered, s'))
    (before : List Call) :
    recording dispatch request now (before, s) =
      (outcome, answered, before ++ [⟨request, now, outcome, answered⟩], s') := by
  rw [recording, h]

theorem attemptsFrom_of_ok {body : Octets} (h : dispatch request now s = (.ok body, answered, s'))
    (fuel : ℕ) (attempt : UInt32) :
    attemptsFrom p dispatch request fuel attempt now s = (.ok body, answered, s') := by
  cases fuel with
  | zero => exact h
  | succ fuel =>
    rw [attemptsFrom, h]

theorem attemptsFrom_of_error (h : dispatch request now s = (.error fault, answered, s'))
    (fuel : ℕ) (attempt : UInt32) :
    attemptsFrom p dispatch request (fuel + 1) attempt now s =
      match p.pauseAfter? fault attempt with
      | none => (.error fault, answered, s')
      | some pause =>
        attemptsFrom p dispatch request fuel (attempt + 1) (answered + pause.millisUp) s' := by
  cases hpause : p.pauseAfter? fault attempt with
  | none => simp only [attemptsFrom, h, hpause]
  | some pause => simp only [attemptsFrom, h, hpause]

variable (dispatch request) in
/-- Attempts leave a record as the policy has it.  It ends with the call whose outcome is the
outcome of all, and keeping it changes nothing. -/
theorem attemptsFrom_tries {fuel : ℕ} (hfuel : p.maxAttempts ≤ made + 1 + fuel)
    (hmade : made + 1 < UInt32.size) (before : List Call) (now : ℕ) (s : σ) :
    ∃ calls last s', Tries p request made now (calls ++ [last]) ∧
      attemptsFrom p dispatch request fuel (.ofNat (made + 1)) now s =
        (last.outcome, last.answered, s') ∧
      attemptsFrom p (recording dispatch) request fuel (.ofNat (made + 1)) now (before, s) =
        (last.outcome, last.answered, before ++ (calls ++ [last]), s') := by
  induction fuel generalizing made before now s with
  | zero =>
    refine ⟨[], ⟨request, now, (dispatch request now s).1, (dispatch request now s).2.1⟩,
      (dispatch request now s).2.2, .last rfl rfl fun fault _ r hr hallows => ?_, rfl, rfl⟩
    have hbound := hallows.lt_maxAttempts hr
    omega
  | succ fuel ih =>
    have hcounted : (UInt32.ofNat (made + 1)).toNat = made + 1 := UInt32.toNat_ofNat_of_lt hmade
    obtain ⟨⟨outcome, answered, s'⟩, hdispatch⟩ : ∃ result, dispatch request now s = result :=
      ⟨_, rfl⟩
    have hrecords := recording_eq hdispatch before
    cases outcome with
    | ok body =>
      exact ⟨[], ⟨request, now, .ok body, answered⟩, s', .last rfl rfl (fun _ => nofun),
        attemptsFrom_of_ok hdispatch .., attemptsFrom_of_ok hrecords ..⟩
    | error fault =>
      rw [attemptsFrom_of_error hdispatch, attemptsFrom_of_error hrecords]
      cases hpause : p.pauseAfter? fault (.ofNat (made + 1)) with
      | none =>
        rw [Policy.pauseAfter?_eq_none_iff, hcounted] at hpause
        refine ⟨[], ⟨request, now, .error fault, answered⟩, s', .last rfl rfl ?_, rfl, rfl⟩
        rintro _ ⟨⟩
        exact hpause
      | some pause =>
        rw [Policy.pauseAfter?_eq_some_iff, hcounted] at hpause
        obtain ⟨r, -, hallows⟩ := hpause.exists_allows
        obtain ⟨calls, last, s'', htries, hrun, hrecorded⟩ := ih (by omega) hallows.lt_size
          (before ++ [⟨request, now, .error fault, answered⟩]) (answered + pause.millisUp) s'
        rw [UInt32.ofNat_add] at hrun hrecorded
        rw [List.append_assoc] at hrecorded
        exact ⟨_ :: calls, last, s'', .again rfl rfl rfl hpause htries, hrun, hrecorded⟩

end

end Retry

/-! ### Attempts as an activity -/

namespace Simulation.Dispatching

open Retry

variable {route : Route} {request : Request} {p : Policy} {standard : Duration} {number : UInt32}
  {fault : Fault} {pause : Duration}

/-- If another attempt is allowed, one of those that are left is used up. -/
theorem left_eq_succ (h : p.Grants fault number.toNat pause) :
    left p number = left p (number + 1) + 1 := by
  obtain ⟨r, hr, hallows⟩ := h.exists_allows
  have hbound := hallows.lt_maxAttempts hr
  have hnext : (number + 1).toNat = number.toNat + 1 := by
    rw [UInt32.toNat_add]
    exact Nat.mod_eq_of_lt hallows.lt_size
  rw [left, left, hnext]
  omega

/-- A timer is set unless it is to go off at once. -/
theorem run_check_timerAfter_bind {α : Type} (millis : ℕ) (next : Option Timer → Sim α)
    (w : World) :
    ((do next (← (← timerAfter millis).check)) : Sim α).run w =
      if millis = 0 then (next none).run w
      else (next (some ⟨w.now + millis, some w.stamp⟩)).run { w with stamp := w.stamp + 1 } := by
  have hcheck : ((do next (← (← timerAfter millis).check)) : Sim α).run w =
      (Timer.check ⟨w.now + millis, none⟩ >>= next).run w := rfl
  rw [hcheck, run_bind, Timer.check, run_now_bind]
  by_cases hmillis : millis = 0
  · rw [if_pos hmillis, if_pos (by simp [hmillis])]
    rfl
  · rw [if_neg hmillis, if_neg (by simp; omega)]
    rfl

/-- After a pause of no time the next attempt follows at once; otherwise the activity waits. -/
theorem run_settle (h : p.Grants fault number.toNat pause) (w : World) :
    (settle route request p standard (left p number) number (.error fault)).run w =
      if pause = .zero then
        (attemptFrom route request p standard (left p (number + 1)) (number + 1)).run w
      else
        let t : Timer := ⟨w.now + pause.millisUp, some w.stamp⟩
        (.wait ⟨route, request, p, standard, number, .pausing t⟩ [.timer t],
          { w with stamp := w.stamp + 1 }) := by
  rw [left_eq_succ h]
  unfold settle
  rw [Policy.pauseAfter?_eq_some_iff.mpr h]
  dsimp only
  rw [run_check_timerAfter_bind]
  simp only [Duration.millisUp_eq_zero_iff]
  rfl

end Simulation.Dispatching

namespace Retry

/-- A request is dispatched once, and again as often as the policy has it.  One attempt more is made
exactly if all before failed, each for a fault after which some rule allows another attempt; it is
the same request each time.  The outcome is that of the last attempt, at the time of its answer: the
first success if there is one.  After a failure the next attempt comes with the first millisecond at
which the pause of the first rule that allows it is over.  No more attempts are made than the most
generous rule grants, and their number can be counted in 32 bits.  An activity does not even wait if
the pause is no time at all. -/
theorem attempts_follow_policy {σ : Type} (p : Policy) (dispatch : Dispatch σ) (request : Request)
    (now : ℕ) (s : σ) :
    (∃ calls earlier last s', calls = earlier ++ [last] ∧
      attempts p dispatch request now s = (last.outcome, last.answered, s') ∧
      attempts p (recording dispatch) request now ([], s) =
        (last.outcome, last.answered, calls, s') ∧
      (∀ call ∈ calls, call.request = request) ∧
      (∀ k, k < calls.length ↔ ∀ i < k, ∃ call fault, calls[i]? = some call ∧
        call.outcome = .error fault ∧ ∃ r ∈ p.rules, r.Allows fault (i + 1)) ∧
      (∀ call ∈ earlier, ∃ fault, call.outcome = .error fault) ∧
      calls.head?.map Call.sent = some now ∧
      (∀ i call next, calls[i]? = some call → calls[i + 1]? = some next →
        ∃ fault pause, call.outcome = .error fault ∧ p.Grants fault (i + 1) pause ∧
          ∀ t, next.sent ≤ t ↔ call.answered * 1000000 + pause.nanos ≤ t * 1000000) ∧
      (calls.length ≤ 1 ∨ ∃ r ∈ p.rules, calls.length ≤ r.maxAttempts.toNat) ∧
      calls.length < UInt32.size) ∧
    ∀ route standard number fault pause (w : Simulation.World), p.Grants fault number.toNat pause →
      (Simulation.Dispatching.settle route request p standard
          (Simulation.Dispatching.left p number) number (.error fault)).run w =
        if pause = .zero then
          (Simulation.Dispatching.attemptFrom route request p standard
            (Simulation.Dispatching.left p (number + 1)) (number + 1)).run w
        else
          let t : Simulation.Timer := ⟨w.now + pause.millisUp, some w.stamp⟩
          (.wait ⟨route, request, p, standard, number, .pausing t⟩ [.timer t],
            { w with stamp := w.stamp + 1 }) := by
  refine ⟨?_, fun route standard number fault pause w h => Simulation.Dispatching.run_settle h w⟩
  have hfuel : p.maxAttempts ≤ 0 + 1 + (p.maxAttempts - 1) := by omega
  obtain ⟨earlier, last, s', htries, hrun, hrecorded⟩ :=
    attemptsFrom_tries dispatch request hfuel (by decide) [] now s
  have hmade : ∀ k, k < (earlier ++ [last]).length ↔ ∀ i < k, ∃ call fault,
      (earlier ++ [last])[i]? = some call ∧ call.outcome = .error fault ∧
        ∃ r ∈ p.rules, r.Allows fault (i + 1) := by
    intro k
    simpa only [Nat.zero_add] using htries.lt_length_iff k
  have hlength : (earlier ++ [last]).length = earlier.length + 1 := List.length_append ..
  have hbound : (earlier ++ [last]).length ≤ 1 ∨
      ∃ r ∈ p.rules, (earlier ++ [last]).length ≤ r.maxAttempts.toNat := by
    cases hearlier : earlier.length with
    | zero => exact .inl (by omega)
    | succ n =>
      -- the last attempt was allowed after the others
      obtain ⟨_, _, -, -, r, hr, hallows, -⟩ := (hmade (n + 1)).mp (by omega) n (Nat.lt_succ_self n)
      exact .inr ⟨r, hr, by omega⟩
  refine ⟨_, earlier, last, s', rfl, hrun, hrecorded, htries.asked, hmade, ?_, htries.head?_sent,
    ?_, hbound, ?_⟩
  · intro call hcall
    obtain ⟨i, hi, rfl⟩ := List.mem_iff_getElem.mp hcall
    obtain ⟨call, fault, heq, hfailed, -⟩ := (hmade (i + 1)).mp (by omega) i (Nat.lt_succ_self i)
    rw [List.getElem?_append_left hi, List.getElem?_eq_getElem hi] at heq
    cases heq
    exact ⟨fault, hfailed⟩
  · intro i call next hcall hnext
    obtain ⟨fault, pause, hfailed, hgrants, hsent⟩ := htries.paused hcall hnext
    rw [Nat.zero_add] at hgrants
    refine ⟨fault, pause, hfailed, hgrants, fun t => ?_⟩
    rw [hsent, Duration.add_millisUp_le_iff]
  · rcases hbound with hone | ⟨r, -, hr⟩
    · exact Nat.lt_of_le_of_lt hone (by decide)
    · exact Nat.lt_of_le_of_lt hr r.maxAttempts.toNat_lt

/-- The first rule is used up after two attempts; the third one comes after the pause of the second
rule, which allows as many as can be counted. -/
theorem attempts_follow_policy_rule_used_up :
    ∃ first second third s',
      attempts ⟨[⟨Condition.network, 2, .fixed (.ofMillis 10)⟩,
          ⟨fun _ => true, 0xFFFFFFFF, .fixed (.ofMicros 1)⟩]⟩ (recording Scripted.dispatch) .ping 0
          ([], .start [⟨.error (.transport "gone"), 3⟩, ⟨.error (.transport "gone"), 0⟩,
            ⟨.ok [], 5⟩]) =
        (.ok [], 19, [first, second, third], s') ∧
      [first, second, third].map Call.sent = [0, 13, 14] ∧
      ∀ t, third.sent ≤ t ↔ second.answered * 1000000 + 1000 ≤ t * 1000000 := by
  obtain ⟨⟨calls, _, _, _, -, -, hrecorded, -, -, -, -, hpaused, -⟩, -⟩ := attempts_follow_policy
    ⟨[⟨Condition.network, 2, .fixed (.ofMillis 10)⟩,
      ⟨fun _ => true, 0xFFFFFFFF, .fixed (.ofMicros 1)⟩]⟩ Scripted.dispatch .ping 0
    (.start [⟨.error (.transport "gone"), 3⟩, ⟨.error (.transport "gone"), 0⟩, ⟨.ok [], 5⟩])
  have hcalls : calls = [⟨.ping, 0, .error (.transport "gone"), 3⟩,
      ⟨.ping, 13, .error (.transport "gone"), 13⟩, ⟨.ping, 14, .ok [], 19⟩] :=
    (congrArg (·.2.2.1) hrecorded).symm
  subst hcalls
  obtain ⟨fault, pause, hfailed, hgrants, hsent⟩ := hpaused 1 _ _ rfl rfl
  cases hfailed
  have hpause : Policy.pauseAfter? _ (.transport "gone") 2 = some pause :=
    Policy.pauseAfter?_eq_some_iff.mpr hgrants
  cases hpause
  exact ⟨_, _, _, _, rfl, rfl, hsent⟩

end Retry

end Switchboard
