import Mathlib.Data.List.Forall2
import Mathlib.Data.List.Infix
import Switchboard.Proofs.RoundTrip

/-!
# Frames one behind the other

A stream of complete frames is drained to the messages that they carry.  Where it is cut off, the
messages of the frames in front of the cut are drained, and the part of a frame behind them waits.

## Main definitions

- `Frame.Carries` — octets that are one frame, and its message
- `Frame.IsCut` — a stream of pieces that is cut off somewhere
- `Frame.Takes` — messages taken off the front of a buffer one by one

## Main statements

- `Frame.drain_flatten` — complete frames are drained to their messages
- `Frame.IsCut.drain_eq` — so is a stream of frames that is cut off anywhere, but for its end
- `Frame.Takes.isPrefix` — what has been taken off a buffer is what draining it begins with
-/

namespace Switchboard.Wire.Frame

/-- The octets are one frame, and the message is what it carries. -/
def Carries (f : Octets) (m : Message) : Prop :=
  decode f = .ok (some (m, f.length))

/-- What has been written carries the message, with the code that its number stands for. -/
theorem carries_of_encode {h : Header} {b f : Octets} (hf : encode h b = .ok f)
    (hb : b = [] ∨ MessagePack.IsValue b) : Carries f ⟨h.canonical, b⟩ := by
  have hdecode := decode_append_of_encode hf []
  rw [List.append_nil, decodeContents_of_isValue h hb] at hdecode
  exact hdecode

theorem drains_flatten {frames : List Octets} {messages : List Message}
    (h : List.Forall₂ Carries frames messages) :
    Drains frames.flatten ⟨messages.zip (frames.map List.length), [], none⟩ := by
  induction h with
  | nil => exact .waiting rfl
  | @cons f m frames messages hf _ ih =>
    have hfirst : decode (f ++ frames.flatten) = .ok (some (m, f.length)) := by
      rw [decode_append (by rw [hf]; simp), hf]
    have hrest : (f ++ frames.flatten).drop f.length = frames.flatten := List.drop_left ..
    rw [← hrest] at ih
    exact .message hfirst ih

/-- Complete frames are drained with nothing left. -/
theorem drain_flatten {frames : List Octets} {messages : List Message}
    (h : List.Forall₂ Carries frames messages) :
    (drain frames.flatten).messages.map Prod.fst = messages ∧ (drain frames.flatten).rest = [] ∧
      (drain frames.flatten).fault = none := by
  rw [← drains_iff.mp (drains_flatten h)]
  refine ⟨?_, rfl, rfl⟩
  rw [List.map_fst_zip]
  rw [List.length_map, h.length_eq]

/-- A loop that has ended without a fault waits for more octets. -/
theorem Drains.waits {b : Octets} {d : Drained} (h : Drains b d) (hn : d.fault = none) :
    decode d.rest = .ok none := by
  induction h with
  | faulty => cases hn
  | waiting hb => exact hb
  | message _ _ ih => exact ih hn

theorem drain_rest {b : Octets} (hn : (drain b).fault = none) :
    drain (drain b).rest = ⟨[], (drain b).rest, none⟩ :=
  (drains_iff.mp (.waiting ((drains_drain b).waits hn))).symm

/-- If draining all of it finds no fault, draining its front finds none. -/
theorem fault_eq_none_of_append {x y : Octets} (h : (drain (x ++ y)).fault = none) :
    (drain x).fault = none := by
  cases hx : (drain x).fault with
  | none => rfl
  | some e =>
    rw [drain_append_of_fault hx] at h
    cases h

/-! ### Streams that are cut off -/

/-- The octets are the first `n` pieces, one behind the other, and a proper part of the next. -/
structure IsCut (pieces : List Octets) (w : Octets) (n : ℕ) (cut : Octets) : Prop where
  le : n ≤ pieces.length
  eq : w = (pieces.take n).flatten ++ cut
  last : pieces[n]? = none → cut = []
  part : ∀ next, pieces[n]? = some next → ∃ behind, behind ≠ [] ∧ cut ++ behind = next

/-- Wherever a stream of pieces ends, it is a cut through them. -/
theorem exists_isCut {pieces : List Octets} {w : Octets} (h : w <+: pieces.flatten) :
    ∃ n cut, IsCut pieces w n cut := by
  induction pieces generalizing w with
  | nil => exact ⟨0, [], Nat.le_refl 0, by simpa using h, fun _ => rfl, nofun⟩
  | cons piece pieces ih =>
    by_cases hwhole : piece <+: w
    · obtain ⟨w', rfl⟩ := hwhole
      rw [List.flatten_cons, List.prefix_append_right_inj] at h
      obtain ⟨n, cut, hcut⟩ := ih h
      refine ⟨n + 1, cut, Nat.succ_le_succ hcut.le, ?_, hcut.last, hcut.part⟩
      rw [List.take_succ_cons, List.flatten_cons, List.append_assoc, ← hcut.eq]
    · -- the first piece is not whole, so the stream ends inside it
      rw [List.flatten_cons] at h
      have hpart := (List.prefix_or_prefix_of_prefix h (List.prefix_append ..)).resolve_right hwhole
      obtain ⟨behind, rfl⟩ := hpart
      refine ⟨0, w, Nat.zero_le _, rfl, nofun, ?_⟩
      rintro next hnext
      cases hnext
      refine ⟨behind, ?_, rfl⟩
      rintro rfl
      rw [List.append_nil] at hwhole
      exact hwhole (List.prefix_refl w)

/-- A proper part of a frame, or nothing behind the last one, is waited for. -/
theorem IsCut.decode_eq_none {frames : List Octets} {messages : List Message} {w cut : Octets}
    {n : ℕ} (hcut : IsCut frames w n cut) (h : List.Forall₂ Carries frames messages) :
    decode cut = .ok none := by
  cases hnext : frames[n]? with
  | none =>
    rw [hcut.last hnext]
    rfl
  | some f =>
    obtain ⟨behind, hne, hpart⟩ := hcut.part f hnext
    obtain ⟨hn, rfl⟩ := List.getElem?_eq_some_iff.mp hnext
    have hcarries := h.get hn (h.length_eq ▸ hn)
    exact decode_of_cut hcarries (by rw [hpart]; exact List.take_length.symm) hne

/-- A stream of frames that is cut off is drained to the messages of those that are complete. -/
theorem IsCut.drain_eq {frames : List Octets} {messages : List Message} {w cut : Octets} {n : ℕ}
    (hcut : IsCut frames w n cut) (h : List.Forall₂ Carries frames messages) :
    (drain w).messages.map Prod.fst = messages.take n ∧ (drain w).rest = cut ∧
      (drain w).fault = none := by
  obtain ⟨hmessages, hrest, hfault⟩ := drain_flatten (List.forall₂_take n h)
  have hwait := drains_iff.mp (.waiting (hcut.decode_eq_none h))
  have hwhole := drain_append hfault cut
  rw [hrest, List.nil_append, ← hwait] at hwhole
  rw [hcut.eq, hwhole]
  refine ⟨?_, rfl, rfl⟩
  rw [Drained.behind, List.append_nil, hmessages]

/-! ### Messages taken off one by one -/

/-- The messages have been taken off a buffer one by one, and `rest` is left of it. -/
inductive Takes : Octets → List Message → Octets → Prop
  | nil {b : Octets} : Takes b [] b
  | cons {b rest : Octets} {m : Message} {n : ℕ} {messages : List Message}
      (h : decode b = .ok (some (m, n))) (ht : Takes (b.drop n) messages rest) :
      Takes b (m :: messages) rest

theorem Takes.snoc {b rest : Octets} {messages : List Message} (h : Takes b messages rest)
    {m : Message} {n : ℕ} (hm : decode rest = .ok (some (m, n))) :
    Takes b (messages ++ [m]) (rest.drop n) := by
  induction h with
  | nil => exact .cons hm .nil
  | cons hfirst _ ih => exact .cons hfirst (ih hm)

/-- More octets behind those that have been read do not change what has been taken. -/
theorem Takes.append {b rest : Octets} {messages : List Message} (h : Takes b messages rest)
    (x : Octets) : Takes (b ++ x) messages (rest ++ x) := by
  induction h with
  | nil => exact .nil
  | @cons b rest m n messages hm _ ih =>
    have hmore : decode (b ++ x) = .ok (some (m, n)) := by rw [decode_append (by simp [hm]) x, hm]
    rw [← List.drop_append_of_le_length (decode_used hm).2] at ih
    exact .cons hmore ih

/-- Draining a buffer gives what has been taken off it and what draining the rest gives. -/
theorem Takes.map_drain {b rest : Octets} {messages : List Message} (h : Takes b messages rest) :
    (drain b).messages.map Prod.fst = messages ++ (drain rest).messages.map Prod.fst := by
  induction h with
  | nil => rfl
  | @cons b rest m n messages hm _ ih =>
    rw [← drains_iff.mp (.message hm (drains_drain _)), List.cons_append, ← ih]
    rfl

/-- What has been taken off a buffer is what draining it begins with. -/
theorem Takes.isPrefix {b rest : Octets} {messages : List Message} (h : Takes b messages rest) :
    messages <+: (drain b).messages.map Prod.fst :=
  ⟨_, h.map_drain.symm⟩

/-- Nothing is drained from a buffer that has no message in front. -/
theorem messages_drain_eq_nil {b : Octets} (h : ∀ m n, decode b ≠ .ok (some (m, n))) :
    (drain b).messages = [] := by
  rcases hdecode : decode b with e | (_ | ⟨m, n⟩)
  · rw [← drains_iff.mp (.faulty hdecode)]
  · rw [← drains_iff.mp (.waiting hdecode)]
  · exact absurd hdecode (h m n)

end Switchboard.Wire.Frame
