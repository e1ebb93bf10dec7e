import Mathlib.Data.List.Rotate
import Switchboard.Selection

/-!
# Taking turns

Every caller that picks among candidates takes the number at a cursor and moves the cursor on, both
at once.  So what callers get is settled by the order in which they reach the cursor, whoever they
are and whatever callers at other cursors do, and between two wraps of the cursor candidates are
picked in a circle.

## Main definitions

- `Selector.Call` — a caller asks for an index
- `Selector.cursors`, `Selector.place` — the cursors, and which of them a caller goes to
- `Selector.after`, `Selector.answers` — the selector after some calls, and what they returned
- `Selector.turns` — how many calls moved a cursor
- `Selector.picksAt` — the indices picked at a cursor
- `Selector.rounds` — so many numbers, counted on from a start, within a circle

## Main statements

- `Selector.cursors_answer` — a call moves one cursor, or none
- `Selector.cursor_after` — a cursor counts the calls that moved it
- `Selector.picksAt_eq_map` — the indices picked among equally many candidates
- `Selector.take_drop_rounds`, `Selector.count_rounds` — a circle visits all alike
- `Selector.turns_are_fair` — all of these for a cursor and any calls
-/

namespace Switchboard.Selector

/-- A caller asks for the index of one of `count` candidates.  The caller belongs to a shard; a
random choice would go by `draw`. -/
structure Call where
  shard : ℕ
  draw : ℕ
  count : ℕ

/-- The cursors, one for all callers or one for each shard. -/
def cursors : Selector → List UInt64
  | .roundRobin cursor => [cursor]
  | .parallelRoundRobin cursors => cursors
  | .random => []

/-- The place of the cursor that the callers of a shard go to. -/
def place : Selector → ℕ → ℕ
  | .parallelRoundRobin cursors, shard => shard % cursors.length
  | _, _ => 0

/-- What a call returns, and the selector afterwards. -/
def answer (s : Selector) (call : Call) : Option ℕ × Selector :=
  s.pick call.shard call.draw call.count

/-- The selector after calls of any callers, in the order in which they reach the cursors. -/
def after (s : Selector) (calls : List Call) : Selector :=
  calls.foldl (fun s call => (s.answer call).2) s

/-- What the calls return. -/
def answers : Selector → List Call → List (Option ℕ)
  | _, [] => []
  | s, call :: rest => (s.answer call).1 :: answers (s.answer call).2 rest

/-- Does the call move the cursor? -/
def moves (s : Selector) (i : ℕ) (call : Call) : Bool :=
  s.place call.shard = i ∧ call.count ≠ 0

/-- How many of the calls move the cursor. -/
def turns (s : Selector) (i : ℕ) (calls : List Call) : ℕ :=
  calls.countP (s.moves i)

/-- The indices that the calls at the cursor return. -/
def picksAt (s : Selector) (i : ℕ) (calls : List Call) : List ℕ :=
  (calls.zip (s.answers calls)).filterMap fun p => if s.place p.1.shard = i then p.2 else none

variable {s : Selector} {i j k K : ℕ} {c : UInt64} {call : Call} {calls : List Call}

/-- The calls of one caller, who may be the only one. -/
theorem pickAll_eq_answers (shard draw : ℕ) (s : Selector) (counts : List ℕ) :
    pickAll shard draw s counts = s.answers (counts.map fun count => ⟨shard, draw, count⟩) := by
  induction counts generalizing s with
  | nil => rfl
  | cons count rest ih => exact congrArg _ (ih _)

/-! ### One call -/

theorem answer_of_count_eq_zero (h : call.count = 0) : s.answer call = (none, s) := by
  unfold answer pick
  rw [if_pos h]

theorem place_answer (s : Selector) (call : Call) : (s.answer call).2.place = s.place := by
  by_cases hcount : call.count = 0
  · rw [answer_of_count_eq_zero hcount]
  · unfold answer pick
    rw [if_neg hcount]
    cases s with
    | parallelRoundRobin cursors =>
      funext shard
      simp only [place, List.length_set]
    | _ => rfl

/-- A call for one of some candidates moves the cursor that the caller goes to, and no other. -/
theorem cursors_answer (h : call.count ≠ 0) :
    (s.answer call).2.cursors = s.cursors.modify (s.place call.shard) (· + 1) := by
  unfold answer pick
  rw [if_neg h]
  cases s with
  | parallelRoundRobin cursors =>
    simp only [Selector.cursors, place, List.modify_eq_set, List.getD_eq_getElem?_getD]
    rfl
  | _ => rfl

theorem moves_eq_true_iff : s.moves i call = true ↔ s.place call.shard = i ∧ call.count ≠ 0 :=
  decide_eq_true_iff

theorem moves_answer (s : Selector) (call : Call) : (s.answer call).2.moves = s.moves := by
  funext i call'
  simp only [moves, place_answer]

theorem turns_cons (s : Selector) (i : ℕ) (call : Call) (rest : List Call) :
    s.turns i (call :: rest) = s.turns i rest + if s.moves i call then 1 else 0 :=
  List.countP_cons

theorem turns_answer (s : Selector) (call : Call) : (s.answer call).2.turns = s.turns := by
  funext i rest
  rw [turns, turns, moves_answer]

/-- The cursor after a call. -/
theorem cursor_answer (hcursor : s.cursors[i]? = some c) (call : Call) :
    (s.answer call).2.cursors[i]? = some (if s.moves i call then c + 1 else c) := by
  by_cases hcount : call.count = 0
  · rw [answer_of_count_eq_zero hcount, hcursor, if_neg]
    exact fun hmoves => (moves_eq_true_iff.mp hmoves).2 hcount
  · rw [cursors_answer hcount, List.getElem?_modify, hcursor]
    simp [moves, hcount]

/-- What a caller who goes to the cursor gets. -/
theorem answer_fst (hcursor : s.cursors[i]? = some c) (hplace : s.place call.shard = i) :
    (s.answer call).1 = if call.count = 0 then none else some (index c call.count) := by
  unfold answer pick
  split
  · rfl
  · subst hplace
    cases s with
    | roundRobin cursor =>
      cases hcursor
      rfl
    | parallelRoundRobin cursors =>
      have hget : cursors.getD (call.shard % cursors.length) 0 = c := by
        rw [List.getD_eq_getElem?_getD]
        exact congrArg (Option.getD · 0) hcursor
      simp only [hget]
    | random => cases hcursor

/-! ### Many calls -/

theorem place_after (s : Selector) (calls : List Call) : (s.after calls).place = s.place := by
  induction calls generalizing s with
  | nil => rfl
  | cons call rest ih => exact (ih _).trans (place_answer s call)

/-- A cursor counts the calls that move it. -/
theorem cursor_after (hcursor : s.cursors[i]? = some c) (calls : List Call) :
    (s.after calls).cursors[i]? = some (c + (s.turns i calls).toUInt64) := by
  induction calls generalizing s c with
  | nil => simp [after, turns, hcursor]
  | cons call rest ih =>
    have hrest := ih (cursor_answer hcursor call)
    rw [turns_answer] at hrest
    refine hrest.trans (congrArg some ?_)
    rw [turns_cons]
    cases s.moves i call with
    | false => rfl
    | true =>
      simp only [if_true, Nat.toUInt64_eq, UInt64.ofNat_add, UInt64.add_assoc]
      rw [UInt64.add_comm 1]
      rfl

theorem toNat_add_toUInt64 (c : UInt64) (n : ℕ) :
    (c + n.toUInt64).toNat = (c.toNat + n) % UInt64.size := by
  simp [UInt64.toNat_add, Nat.toUInt64_eq, UInt64.size]

theorem getElem?_answers (h : calls[j]? = some call) :
    (s.answers calls)[j]? = some ((s.after (calls.take j)).answer call).1 := by
  induction calls generalizing s j with
  | nil => cases h
  | cons first rest ih =>
    cases j with
    | zero =>
      cases h
      rfl
    | succ j => exact ih h

theorem after_take_succ (h : calls[j]? = some call) :
    s.after (calls.take (j + 1)) = ((s.after (calls.take j)).answer call).2 := by
  rw [List.take_add_one, h, after, List.foldl_append]
  rfl

/-- What a call returns is settled by the calls before it that moved the cursor. -/
theorem getElem?_answers_eq (hcursor : s.cursors[i]? = some c) (hcall : calls[j]? = some call)
    (hplace : s.place call.shard = i) :
    (s.answers calls)[j]? = some (if call.count = 0 then none
      else some ((c.toNat + s.turns i (calls.take j)) % UInt64.size % call.count)) := by
  rw [getElem?_answers hcall, answer_fst (cursor_after hcursor _) (place_after s _ ▸ hplace), index,
    toNat_add_toUInt64]

theorem picksAt_cons (s : Selector) (i : ℕ) (call : Call) (rest : List Call) :
    s.picksAt i (call :: rest) =
      (if s.place call.shard = i then (s.answer call).1 else none).toList ++
        (s.answer call).2.picksAt i rest := by
  rw [picksAt, picksAt, answers, List.zip_cons_cons, List.filterMap_cons, place_answer]
  split
  · next hnone =>
    rw [hnone]
    rfl
  · next hsome =>
    rw [hsome]
    rfl

theorem picksAt_cons_of_not_moves (h : s.moves i call = false) (rest : List Call) :
    s.picksAt i (call :: rest) = (s.answer call).2.picksAt i rest := by
  have hnone : (if s.place call.shard = i then (s.answer call).1 else none) = none := by
    split
    · next hplace =>
      have hcount : call.count = 0 := by simpa [moves, hplace] using h
      rw [answer_of_count_eq_zero hcount]
    · rfl
  rw [picksAt_cons, hnone]
  rfl

theorem picksAt_cons_of_moves (hcursor : s.cursors[i]? = some c) (h : s.moves i call = true)
    (rest : List Call) :
    s.picksAt i (call :: rest) = index c call.count :: (s.answer call).2.picksAt i rest := by
  obtain ⟨hplace, hcount⟩ := moves_eq_true_iff.mp h
  rw [picksAt_cons, if_pos hplace, answer_fst hcursor hplace, if_neg hcount]
  rfl

/-- Among equally many candidates the indices picked go by the cursor alone. -/
theorem picksAt_eq_map (hcursor : s.cursors[i]? = some c)
    (hcounts : ∀ call ∈ calls, s.place call.shard = i → call.count = 0 ∨ call.count = K) :
    s.picksAt i calls =
      (List.range (s.turns i calls)).map fun j => (c.toNat + j) % UInt64.size % K := by
  induction calls generalizing s c with
  | nil => rfl
  | cons call rest ih =>
    have hrest := ih (cursor_answer hcursor call) fun call' hmem hplace =>
      hcounts call' (List.mem_cons_of_mem _ hmem) (place_answer s call ▸ hplace)
    rw [turns_answer] at hrest
    rw [turns_cons]
    cases hmoves : s.moves i call with
    | false =>
      rw [picksAt_cons_of_not_moves hmoves, hrest, hmoves]
      rfl
    | true =>
      obtain ⟨hplace, hcount⟩ := moves_eq_true_iff.mp hmoves
      have hK : call.count = K := (hcounts call List.mem_cons_self hplace).resolve_left hcount
      rw [picksAt_cons_of_moves hcursor hmoves, hrest, hmoves, if_pos rfl, if_pos rfl, hK,
        List.range_succ_eq_map, List.map_cons, List.map_map]
      -- the first turn is at the cursor, the others are those of the cursor after it
      refine congrArg₂ List.cons ?_ (List.map_congr_left fun j _ => ?_)
      · rw [index, Nat.add_zero, Nat.mod_eq_of_lt c.toNat_lt]
      · have hnext : (c + 1).toNat = (c.toNat + 1) % UInt64.size := UInt64.toNat_add c 1
        simp only [Function.comp, hnext, Nat.mod_add_mod, Nat.succ_eq_add_one]
        rw [Nat.add_assoc, Nat.add_comm 1 j]

/-! ### Going round -/

/-- The `n` numbers from `start` on, within a circle of `K`. -/
def rounds (start n K : ℕ) : List ℕ :=
  (List.range n).map fun j => (start + j) % K

variable {start n a : ℕ}

theorem rounds_add (start m n K : ℕ) :
    rounds start (m + n) K = rounds start m K ++ rounds (start + m) n K := by
  simp only [rounds, List.range_add, List.map_append, List.map_map, Function.comp_def,
    Nat.add_assoc]

@[simp] theorem length_rounds : (rounds start n K).length = n := by
  rw [rounds, List.length_map, List.length_range]

/-- One round is a rotation of the candidates. -/
theorem rounds_self (start K : ℕ) : rounds start K K = (List.range K).rotate start := by
  refine List.ext_getElem (by simp) fun j hj hj' => ?_
  simp [rounds, List.getElem_rotate, Nat.add_comm]

/-- Wherever one begins, the next `K` are a rotation of the candidates. -/
theorem take_drop_rounds (start : ℕ) (h : k + K ≤ n) :
    ((rounds start n K).drop k).take K = (List.range K).rotate (start + k) := by
  obtain ⟨m, rfl⟩ := Nat.exists_eq_add_of_le h
  rw [Nat.add_assoc, rounds_add, List.drop_left' length_rounds, rounds_add,
    List.take_left' length_rounds, rounds_self]

theorem nodup_rounds (h : n ≤ K) : (rounds start n K).Nodup := by
  obtain ⟨m, rfl⟩ := Nat.exists_eq_add_of_le h
  have hround : (rounds start (n + m) (n + m)).Nodup := by
    rw [rounds_self, List.nodup_rotate]
    exact List.nodup_range
  rw [rounds_add] at hround
  exact hround.sublist (List.sublist_append_left ..)

/-- Each candidate is visited once a round, and perhaps once more. -/
theorem count_rounds (start n : ℕ) (ha : a < K) :
    n / K ≤ (rounds start n K).count a ∧ (rounds start n K).count a ≤ n / K + 1 := by
  induction n using Nat.strong_induction_on generalizing start with
  | _ n ih =>
    rcases Nat.lt_or_ge n K with hlt | hge
    · rw [Nat.div_eq_of_lt hlt]
      exact ⟨Nat.zero_le _, List.nodup_iff_count_le_one.mp (nodup_rounds hlt.le) a⟩
    · -- the first round visits the candidate once; the rest is a shorter walk
      obtain ⟨m, rfl⟩ := Nat.exists_eq_add_of_le hge
      have hround : (rounds start K K).count a = 1 := by
        refine List.count_eq_one_of_mem (nodup_rounds le_rfl) ?_
        rw [rounds_self, List.mem_rotate, List.mem_range]
        exact ha
      have hrest := ih m (by omega) (start + K)
      rw [rounds_add, List.count_append, hround, Nat.add_div_left m (by omega)]
      omega

theorem picksAt_eq_rounds (hcursor : s.cursors[i]? = some c)
    (hcounts : ∀ call ∈ calls, s.place call.shard = i → call.count = 0 ∨ call.count = K)
    (hwrap : c.toNat + s.turns i calls ≤ UInt64.size) :
    s.picksAt i calls = rounds c.toNat (s.turns i calls) K := by
  rw [picksAt_eq_map hcursor hcounts, rounds]
  refine List.map_congr_left fun j hj => ?_
  have hlt : c.toNat + j < UInt64.size := by
    rw [List.mem_range] at hj
    omega
  rw [Nat.mod_eq_of_lt hlt]

-- where the cursor wraps the circle is broken off
example : (roundRobin 0xFFFFFFFFFFFFFFFF).answers [⟨0, 0, 3⟩, ⟨0, 0, 3⟩] = [some 0, some 0] := by
  decide

/-- Whatever calls reach the cursors, and in whichever order: a call for one of some candidates gets
an index among them, by the number of calls before it that moved the same cursor; a call for one of
no candidates gets none and changes nothing.

If the callers at a cursor always choose among `K` candidates, and the cursor does not wrap, then
the indices picked there count on from the cursor in a circle.  So any `K` in a row are a rotation
of all candidates, and no candidate is ever picked twice more than another. -/
theorem turns_are_fair (hcursor : s.cursors[i]? = some c) (calls : List Call) :
    (∀ j call, calls[j]? = some call → s.place call.shard = i →
      (call.count = 0 → (s.answers calls)[j]? = some none ∧
        s.after (calls.take (j + 1)) = s.after (calls.take j)) ∧
      (0 < call.count → ∃ index < call.count, (s.answers calls)[j]? = some (some index) ∧
        index = (c.toNat + s.turns i (calls.take j)) % UInt64.size % call.count)) ∧
    ∀ K, 1 ≤ K → (∀ call ∈ calls, s.place call.shard = i → call.count = 0 ∨ call.count = K) →
      c.toNat + s.turns i calls ≤ UInt64.size →
      s.picksAt i calls = (List.range (s.turns i calls)).map (fun j => (c.toNat + j) % K) ∧
      (∀ k, k + K ≤ s.turns i calls →
        ((s.picksAt i calls).drop k).take K = (List.range K).rotate (c.toNat + k) ∧
        (((s.picksAt i calls).drop k).take K).Perm (List.range K)) ∧
      ∀ a < K, ∀ b < K, (s.picksAt i calls).count a ≤ (s.picksAt i calls).count b + 1 := by
  constructor
  · intro j call hcall hplace
    have hanswer := getElem?_answers_eq hcursor hcall hplace
    constructor
    · intro hzero
      rw [if_pos hzero] at hanswer
      rw [after_take_succ hcall, answer_of_count_eq_zero hzero]
      exact ⟨hanswer, rfl⟩
    · intro hpos
      rw [if_neg (by omega)] at hanswer
      exact ⟨_, Nat.mod_lt _ hpos, hanswer, rfl⟩
  · intro K _ hcounts hwrap
    have hpicks := picksAt_eq_rounds hcursor hcounts hwrap
    refine ⟨hpicks, fun k hk => ?_, fun a ha b hb => ?_⟩
    · rw [hpicks, take_drop_rounds c.toNat hk]
      exact ⟨rfl, List.rotate_perm ..⟩
    · have hmost := (count_rounds c.toNat (s.turns i calls) ha).2
      have hleast := (count_rounds c.toNat (s.turns i calls) hb).1
      rw [hpicks]
      omega

/-- Three cursors.  The one in the middle wraps after three turns. -/
def nearWrap : Selector :=
  .parallelRoundRobin [0, 0xFFFFFFFFFFFFFFFD, 2]

/-- Callers of two shards at the cursor in the middle, one of them for nothing, and one caller
elsewhere. -/
def mixedCalls : List Call :=
  [⟨1, 0, 2⟩, ⟨0, 0, 7⟩, ⟨4, 0, 0⟩, ⟨4, 0, 2⟩, ⟨1, 0, 2⟩]

theorem turns_are_fair_near_wrap :
    nearWrap.cursors[1]? = some 0xFFFFFFFFFFFFFFFD ∧
      (nearWrap.answers mixedCalls)[2]? = some none ∧
      (nearWrap.answers mixedCalls)[4]? = some (some 1) ∧
      nearWrap.picksAt 1 mixedCalls = [1, 0, 1] ∧
      (((nearWrap.picksAt 1 mixedCalls).drop 1).take 2).Perm [0, 1] ∧
      (nearWrap.picksAt 1 mixedCalls).count 1 ≤ (nearWrap.picksAt 1 mixedCalls).count 0 + 1 := by
  have hcursor : nearWrap.cursors[1]? = some 0xFFFFFFFFFFFFFFFD := rfl
  obtain ⟨hcalls, hturns⟩ := turns_are_fair hcursor mixedCalls
  obtain ⟨hpicks, hwindow, hcount⟩ := hturns 2 (by decide) (by decide) (by decide)
  obtain ⟨index, -, hanswer, rfl⟩ := (hcalls 4 ⟨1, 0, 2⟩ rfl rfl).2 (by decide)
  refine ⟨hcursor, ((hcalls 2 ⟨4, 0, 0⟩ rfl rfl).1 rfl).1, hanswer, hpicks, ?_, ?_⟩
  · exact (hwindow 1 (by decide)).2
  · exact hcount 1 (by decide) 0 (by decide)

end Switchboard.Selector
