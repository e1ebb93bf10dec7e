import Mathlib.Data.List.Basic
import Switchboard.Wire.Frame

/-!
# Frames in a stream

A stream arrives in chunks that know nothing of frames.  What is decoded from it depends on its
octets alone: a frame that is complete stays the same frame whatever follows, a fault stays the same
fault, and a frame cut short is waited for.

## Main definitions

- `Frame.Drains` — the drain loop as a relation, with no bound on its rounds
- `Frame.Drained.feed` — what a chunk adds to what has been drained
- `Frame.drainChunks` — what draining after each chunk comes to

## Main statements

- `Frame.decode_append` — what has been decided about a buffer stays decided
- `Frame.decode_of_cut` — a frame cut short is waited for
- `Frame.drains_iff` — the loop ends on every buffer, with what `Frame.drain` computes
- `Frame.drain_append` — draining can be interrupted anywhere
- `Frame.decoding_ignores_chunks` — chunks do not matter
-/

namespace Switchboard.Wire.Frame

/-! ### Stability -/

/-- A length that has been read is not affected by what follows. -/
theorem decodeLength_append {b rest : Octets} {size width : ℕ}
    (h : decodeLength b = .ok (some (size, width, rest))) (x : Octets) :
    decodeLength (b ++ x) = .ok (some (size, width, rest ++ x)) := by
  cases b with
  | nil => simp [decodeLength] at h
  | cons marker tail =>
    simp only [decodeLength, List.cons_append] at h ⊢
    cases hw : lengthWidth? marker with
    | error e => simp [hw] at h
    | ok w =>
      cases w with
      | none =>
        simp only [hw, Except.ok.injEq, Option.some.injEq, Prod.mk.injEq] at h ⊢
        obtain ⟨rfl, rfl, rfl⟩ := h
        exact ⟨rfl, rfl, rfl⟩
      | some w =>
        simp only [hw, Except.ok.injEq, Option.map_eq_some_iff] at h ⊢
        obtain ⟨⟨front, behind⟩, hs, heq⟩ := h
        simp only [Prod.mk.injEq] at heq
        obtain ⟨rfl, rfl, rfl⟩ := heq
        exact ⟨(front, behind ++ x), Octets.split?_append_of_some hs x, rfl⟩

theorem decodeLength_append_of_error {b : Octets} {e : FrameFault}
    (h : decodeLength b = .error e) (x : Octets) : decodeLength (b ++ x) = .error e := by
  cases b with
  | nil => simp [decodeLength] at h
  | cons marker tail =>
    simp only [decodeLength, List.cons_append] at h ⊢
    cases hw : lengthWidth? marker with
    | error e' => simpa [hw] using h
    | ok w => cases w <;> simp [hw] at h

/-- The octets of a length, at least its marker, stand in front of what follows it. -/
theorem exists_front_of_decodeLength {b rest : Octets} {size width : ℕ}
    (h : decodeLength b = .ok (some (size, width, rest))) :
    ∃ front, front ++ rest = b ∧ front.length = width ∧ 0 < width := by
  cases b with
  | nil => cases h
  | cons marker tail =>
    simp only [decodeLength] at h
    split at h
    · cases h
    · cases h
      exact ⟨[marker], rfl, rfl, Nat.one_pos⟩
    · simp only [Except.ok.injEq, Option.map_eq_some_iff] at h
      obtain ⟨⟨front, behind⟩, hs, heq⟩ := h
      cases heq
      refine ⟨marker :: front, congrArg (marker :: ·) (Octets.append_of_split? hs), ?_, by omega⟩
      rw [List.length_cons, Octets.length_of_split? hs, Nat.add_comm]

/-- What a buffer has in front when more octets cannot change it: no length, a length beyond the
limit, or the whole contents of a frame. -/
inductive Decided (b : Octets) : Except FrameFault (Option (Message × ℕ)) → Prop
  | badLength {e : FrameFault} (hl : decodeLength b = .error e) : Decided b (.error e)
  | tooLarge {size width : ℕ} {rest : Octets}
      (hl : decodeLength b = .ok (some (size, width, rest))) (hsize : maxSize < size) :
      Decided b (.error (.tooLarge size))
  | contents {size width : ℕ} {rest contents behind : Octets}
      (hl : decodeLength b = .ok (some (size, width, rest))) (hsize : ¬maxSize < size)
      (hs : Octets.split? size rest = some (contents, behind)) :
      Decided b ((decodeContents contents).map fun m => some (m, width + size))

theorem Decided.decode_eq {b : Octets} {r : Except FrameFault (Option (Message × ℕ))}
    (h : Decided b r) : decode b = r := by
  cases h with
  | badLength hl => simp only [decode, hl]
  | tooLarge hl hsize => simp only [decode, hl, if_pos hsize]
  | contents hl hsize hs => simp only [decode, hl, if_neg hsize, hs]

/-- What is decided stays decided, whatever follows. -/
theorem Decided.append {b : Octets} {r : Except FrameFault (Option (Message × ℕ))}
    (h : Decided b r) (x : Octets) : Decided (b ++ x) r := by
  cases h with
  | badLength hl => exact .badLength (decodeLength_append_of_error hl x)
  | tooLarge hl hsize => exact .tooLarge (decodeLength_append hl x) hsize
  | contents hl hsize hs =>
    exact .contents (decodeLength_append hl x) hsize (Octets.split?_append_of_some hs x)

/-- Unless more octets are waited for, the buffer is decided. -/
theorem decided_of_ne_none {b : Octets} (h : decode b ≠ .ok none) : Decided b (decode b) := by
  cases hl : decodeLength b with
  | error e =>
    rw [(Decided.badLength hl).decode_eq]
    exact .badLength hl
  | ok l =>
    rcases l with _ | ⟨size, width, rest⟩
    · simp [decode, hl] at h
    · by_cases hsize : maxSize < size
      · rw [(Decided.tooLarge hl hsize).decode_eq]
        exact .tooLarge hl hsize
      · cases hs : Octets.split? size rest with
        | none => simp [decode, hl, if_neg hsize, hs] at h
        | some p =>
          rw [(Decided.contents hl hsize hs).decode_eq]
          exact .contents hl hsize hs

/-- A message or a fault found in a buffer is not affected by what follows. -/
theorem decode_append {b : Octets} (h : decode b ≠ .ok none) (x : Octets) :
    decode (b ++ x) = decode b :=
  ((decided_of_ne_none h).append x).decode_eq

/-- A message takes at least one octet and no more than there are. -/
theorem decode_used {b : Octets} {m : Message} {n : ℕ} (h : decode b = .ok (some (m, n))) :
    0 < n ∧ n ≤ b.length := by
  have hd := decided_of_ne_none (b := b) (by rw [h]; simp)
  rw [h] at hd
  generalize hr : (Except.ok (some (m, n)) : Except FrameFault (Option (Message × ℕ))) = r at hd
  cases hd with
  | badLength hl => cases hr
  | tooLarge hl hsize => cases hr
  | @contents size width rest contents behind hl hsize hs =>
    obtain ⟨front, rfl, hwidth, hpos⟩ := exists_front_of_decodeLength hl
    have hcontents := Octets.length_of_split? hs
    have hrest := congrArg List.length (Octets.append_of_split? hs)
    rw [List.length_append] at hrest ⊢
    cases hc : decodeContents contents with
    | error e => simp [hc, Except.map] at hr
    | ok m' =>
      have hn : n = width + size := by
        simp only [hc, Except.map, Except.ok.injEq, Option.some.injEq, Prod.mk.injEq] at hr
        exact hr.2
      omega

/-- A frame cut short is waited for.  Anything else found in a part of it would, by stability, be
found in the whole frame too. -/
theorem decode_of_cut {b part rest : Octets} {m : Message} {n : ℕ}
    (h : decode b = .ok (some (m, n))) (hcut : part ++ rest = b.take n) (hne : rest ≠ []) :
    decode part = .ok none := by
  have hb : part ++ (rest ++ b.drop n) = b := by
    rw [← List.append_assoc, hcut, List.take_append_drop]
  have hshort : part.length < n := by
    have hlen := congrArg List.length hcut
    have hrest := List.length_pos_iff.mpr hne
    rw [List.length_append, List.length_take] at hlen
    omega
  by_contra hpart
  have hfound : decode part = .ok (some (m, n)) := by
    rw [← decode_append hpart (rest ++ b.drop n), hb, h]
  have hused := (decode_used hfound).2
  omega

/-! ### The drain loop -/

/-- The drain loop: as long as a message is in front it is taken off.  A derivation is a run of the
loop to its end, so a buffer on which the loop went on forever would have none. -/
inductive Drains : Octets → Drained → Prop
  | faulty {b : Octets} {e : FrameFault} (h : decode b = .error e) : Drains b ⟨[], b, some e⟩
  | waiting {b : Octets} (h : decode b = .ok none) : Drains b ⟨[], b, none⟩
  | message {b : Octets} {m : Message} {n : ℕ} {d : Drained}
      (h : decode b = .ok (some (m, n))) (hd : Drains (b.drop n) d) :
      Drains b ⟨(m, n) :: d.messages, d.rest, d.fault⟩

/-- What has been drained, behind messages drained earlier. -/
def Drained.behind (d : Drained) (earlier : List (Message × ℕ)) : Drained :=
  ⟨earlier ++ d.messages, d.rest, d.fault⟩

/-- With more fuel than octets the bounded loop runs to its end. -/
theorem exists_drains_drainFrom (fuel : ℕ) (b : Octets) (taken : List (Message × ℕ))
    (hfuel : b.length < fuel) :
    ∃ d, Drains b d ∧ drainFrom fuel b taken = d.behind taken.reverse := by
  induction fuel generalizing b taken with
  | zero => omega
  | succ fuel ih =>
    cases hb : decode b with
    | error e => exact ⟨_, .faulty hb, by simp [drainFrom, hb, Drained.behind]⟩
    | ok found =>
      rcases found with _ | ⟨m, n⟩
      · exact ⟨_, .waiting hb, by simp [drainFrom, hb, Drained.behind]⟩
      · -- a message takes at least one octet, so a round less is enough for what it leaves
        obtain ⟨hpos, hle⟩ := decode_used hb
        have hshort : (b.drop n).length < fuel := by
          rw [List.length_drop]
          omega
        obtain ⟨d, hd, heq⟩ := ih (b.drop n) ((m, n) :: taken) hshort
        refine ⟨_, .message hb hd, ?_⟩
        simp [drainFrom, hb, heq, Drained.behind]

theorem drains_drain (b : Octets) : Drains b (drain b) := by
  obtain ⟨d, hd, heq⟩ := exists_drains_drainFrom (b.length + 1) b [] (Nat.lt_succ_self _)
  have hdrain : drain b = d := by
    rw [drain, heq]
    simp [Drained.behind]
  rwa [hdrain]

theorem Drains.unique {b : Octets} {d d' : Drained} (h : Drains b d) (h' : Drains b d') :
    d = d' := by
  induction h generalizing d' with
  | faulty hb => cases h' <;> simp_all
  | waiting hb => cases h' <;> simp_all
  | @message b m n d hb hd ih =>
    cases h' with
    | faulty hb' => simp [hb] at hb'
    | waiting hb' => simp [hb] at hb'
    | @message _ m' n' d' hb' hd' =>
      rw [hb] at hb'
      simp only [Except.ok.injEq, Option.some.injEq, Prod.mk.injEq] at hb'
      obtain ⟨rfl, rfl⟩ := hb'
      rw [ih hd']

/-- `drain` computes what the loop ends with. -/
theorem drains_iff {b : Octets} {d : Drained} : Drains b d ↔ d = drain b := by
  constructor
  · intro h
    exact h.unique (drains_drain b)
  · rintro rfl
    exact drains_drain b

/-- A loop that ended with a fault ends with it whatever follows. -/
theorem Drains.append_of_fault {x : Octets} {d : Drained} {e : FrameFault} (h : Drains x d)
    (he : d.fault = some e) (y : Octets) : Drains (x ++ y) ⟨d.messages, d.rest ++ y, some e⟩ := by
  induction h with
  | @faulty b e' hb =>
    have hy : decode (b ++ y) = .error e' := by rw [decode_append (by simp [hb]) y, hb]
    cases he
    exact .faulty hy
  | waiting hb => cases he
  | @message b m n d hb hd ih =>
    have hy : decode (b ++ y) = .ok (some (m, n)) := by rw [decode_append (by simp [hb]) y, hb]
    have hrest := ih he
    rw [← List.drop_append_of_le_length (decode_used hb).2] at hrest
    exact .message hy hrest

/-- A loop that ended without a fault goes on from what it left when more octets follow. -/
theorem Drains.append {x : Octets} {d d' : Drained} (h : Drains x d) (hn : d.fault = none)
    (y : Octets) (hy : Drains (d.rest ++ y) d') : Drains (x ++ y) (d'.behind d.messages) := by
  induction h with
  | faulty hb => cases hn
  | waiting hb => exact hy
  | @message b m n d hb hd ih =>
    -- the message in front stays, and more octets behind it lengthen what it leaves
    have hwhole : decode (b ++ y) = .ok (some (m, n)) := by
      rw [decode_append (by simp [hb]) y, hb]
    have hrest := ih hn hy
    rw [← List.drop_append_of_le_length (decode_used hb).2] at hrest
    exact .message hwhole hrest

/-- Draining can be interrupted anywhere. -/
theorem drain_append {x : Octets} (h : (drain x).fault = none) (y : Octets) :
    drain (x ++ y) = (drain ((drain x).rest ++ y)).behind (drain x).messages :=
  (drains_iff.mp ((drains_drain x).append h y (drains_drain _))).symm

/-- Nothing is drained after a fault. -/
theorem drain_append_of_fault {x : Octets} {e : FrameFault} (h : (drain x).fault = some e)
    (y : Octets) : drain (x ++ y) = ⟨(drain x).messages, (drain x).rest ++ y, some e⟩ :=
  (drains_iff.mp ((drains_drain x).append_of_fault h y)).symm

/-! ### Chunks -/

/-- A chunk arrives: it joins what is left, and the buffer is drained again.  After a fault nothing
is read any more. -/
def Drained.feed (d : Drained) (chunk : Octets) : Drained :=
  match d.fault with
  | some _ => d
  | none => (drain (d.rest ++ chunk)).behind d.messages

/-- What has been drained once all chunks have arrived, one after the other. -/
def drainChunks (chunks : List Octets) : Drained :=
  chunks.foldl Drained.feed ⟨[], [], none⟩

/-- The same messages and the same fault; without a fault, the same octets left as well. -/
structure Drained.Agrees (d whole : Drained) : Prop where
  messages : d.messages = whole.messages
  fault : d.fault = whole.fault
  rest : whole.fault = none → d.rest = whole.rest

/-- A chunk keeps what has been drained in agreement with all the octets so far. -/
theorem Drained.Agrees.feed {d : Drained} {s : Octets} (h : d.Agrees (drain s)) (chunk : Octets) :
    (d.feed chunk).Agrees (drain (s ++ chunk)) := by
  cases hf : (drain s).fault with
  | none =>
    have hfeed : d.feed chunk = drain (s ++ chunk) := by
      rw [drain_append hf, Drained.feed, h.fault, hf, h.messages, h.rest hf]
    rw [hfeed]
    exact ⟨rfl, rfl, fun _ => rfl⟩
  | some e =>
    have hfeed : d.feed chunk = d := by rw [Drained.feed, h.fault, hf]
    rw [hfeed, drain_append_of_fault hf]
    exact ⟨h.messages, h.fault.trans hf, nofun⟩

/-- Chunks that arrive one by one are drained like their concatenation. -/
theorem Drained.Agrees.foldl_feed {d : Drained} {s : Octets} (h : d.Agrees (drain s))
    (chunks : List Octets) :
    (chunks.foldl Drained.feed d).Agrees (drain (s ++ chunks.flatten)) := by
  induction chunks generalizing d s with
  | nil => simpa using h
  | cons chunk chunks ih =>
    rw [List.foldl_cons, List.flatten_cons, ← List.append_assoc]
    exact ih (h.feed chunk)

/-- Decoding a stream does not depend on how it is cut into chunks: draining after each chunk gives
what draining everything at once gives.  A decoded message and a fault are stable under more octets,
every proper part of a frame is waited for, and the drain loop ends. -/
theorem decoding_ignores_chunks :
    (∀ chunks : List Octets, (drainChunks chunks).Agrees (drain chunks.flatten)) ∧
    (∀ (b : Octets) (m : Message) (n : ℕ), decode b = .ok (some (m, n)) →
      (∀ x, decode (b ++ x) = .ok (some (m, n))) ∧
      ∀ part rest, part ++ rest = b.take n → rest ≠ [] → decode part = .ok none) ∧
    (∀ (b : Octets) (e : FrameFault), decode b = .error e →
      ∀ x, decode (b ++ x) = .error e) ∧
    ∀ (b : Octets) (d : Drained), Drains b d ↔ d = drain b := by
  refine ⟨?_, ?_, ?_, fun b d => drains_iff⟩
  · intro chunks
    have hempty : Drained.Agrees ⟨[], [], none⟩ (drain []) := ⟨rfl, rfl, fun _ => rfl⟩
    exact hempty.foldl_feed chunks
  · intro b m n h
    refine ⟨fun x => ?_, fun part rest => decode_of_cut h⟩
    rw [decode_append (by simp [h]) x, h]
  · intro b e h x
    rw [decode_append (by simp [h]) x, h]

/-- A frame without a body, cut inside its header and followed by the length of another one. -/
theorem decoding_ignores_chunks_cut_header :
    (drainChunks [[5, 0x82, 0], [0, 1], [1, 5]]).Agrees (drain [5, 0x82, 0, 0, 1, 1, 5]) ∧
    (drainChunks [[5, 0x82, 0], [0, 1], [1, 5]]).messages = [(⟨⟨1, .ok, none⟩, []⟩, 6)] ∧
    (∀ x, decode ([5, 0x82, 0, 0, 1, 1] ++ x) = .ok (some (⟨⟨1, .ok, none⟩, []⟩, 6))) ∧
    decode [5, 0x82, 0] = .ok none ∧
    ∀ x, decode ([0xA1] ++ x) = .error (.invalidMarker 0xA1) := by
  obtain ⟨hchunks, hmessage, hfault, -⟩ := decoding_ignores_chunks
  have hvalue : MessagePack.decode [0x82, 0, 0, 1, 1] =
      .ok (.map [(MessagePack.integerValue 0, MessagePack.integerValue 0),
        (MessagePack.integerValue 1, MessagePack.integerValue 1)], []) := by rfl
  have hcontents : decodeContents [0x82, 0, 0, 1, 1] = .ok ⟨⟨1, .ok, none⟩, []⟩ := by
    rw [decodeContents, hvalue]
    rfl
  have hdecided : Decided [5, 0x82, 0, 0, 1, 1]
      ((decodeContents [0x82, 0, 0, 1, 1]).map fun m => some (m, 1 + 5)) :=
    .contents rfl (by decide) rfl
  rw [hcontents] at hdecided
  have hframe : decode [5, 0x82, 0, 0, 1, 1] = .ok (some (⟨⟨1, .ok, none⟩, []⟩, 6)) :=
    hdecided.decode_eq
  have hdrains : Drains [5, 0x82, 0, 0, 1, 1, 5] ⟨[(⟨⟨1, .ok, none⟩, []⟩, 6)], [5], none⟩ :=
    .message (hdecided.append [5]).decode_eq (.waiting rfl)
  obtain ⟨hmore, hpart⟩ := hmessage _ _ _ hframe
  refine ⟨hchunks _, ?_, hmore, ?_, ?_⟩
  · rw [(hchunks _).messages]
    exact congrArg Drained.messages (drains_iff.mp hdrains).symm
  · exact hpart [5, 0x82, 0] [0, 1, 1] rfl (by simp)
  · exact hfault [0xA1] (.invalidMarker 0xA1) rfl

end Switchboard.Wire.Frame
