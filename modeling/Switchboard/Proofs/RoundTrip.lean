import Mathlib.Data.List.Basic
import Switchboard.Proofs.MessagePack.Depth
import Switchboard.Proofs.Streaming

/-!
# Frames there and back

A message that is written as a frame is read back from it, whatever follows.  Only its code may
change: different codes can have the same number, and each number stands for one of them.  A body
that is not one value is never handed out.

## Main definitions

- `Code.IsCanonical` — codes that stand for their number

## Main statements

- `Code.toRaw_ofRaw`, `Code.canonical_eq_iff` — numbers and codes
- `Header.ofValue_toValue` — a header comes back from its map
- `Frame.encode_eq_ok_iff` — which messages can be written
- `Frame.written_comes_back` — a message comes back from its frame exactly when its body is empty or
  one value
-/

namespace Switchboard.Wire

open MessagePack

/-! ### Codes -/

namespace RequestType

theorem number_of_ofNumber? {n : UInt32} {t : RequestType} (h : ofNumber? n = some t) :
    t.number = n := by
  have hfound := List.find?_some h
  exact of_decide_eq_true hfound

theorem ofNumber?_number (t : RequestType) : ofNumber? t.number = some t := by
  cases t <;> rfl

theorem ofNumber?_eq_none_iff {n : UInt32} : ofNumber? n = none ↔ ∀ t, number t ≠ n := by
  constructor
  · intro h t ht
    rw [← ht, ofNumber?_number] at h
    cases h
  · intro h
    rw [ofNumber?, List.find?_eq_none]
    intro t _
    simpa using h t

end RequestType

namespace Code

/-- The codes that stand for their number on the wire: others are read back as one of these. -/
def IsCanonical : Code → Prop
  | .ok | .request _ => True
  | .error n => n &&& errorFlag = 0
  | .unknown n => n ≠ 0 ∧ n &&& errorFlag = 0 ∧ ∀ t, RequestType.number t ≠ n

/-- The flag is one bit: a number without all of it has none of it. -/
theorem and_flag_eq {n : UInt32} (h : n &&& errorFlag ≠ 0) : n &&& errorFlag = errorFlag := by
  have hflag : errorFlag.toBitVec = BitVec.twoPow 32 15 := by decide
  rw [← UInt32.toBitVec_inj.ne, UInt32.toBitVec_and, hflag, BitVec.and_twoPow] at h
  apply UInt32.toBitVec_inj.mp
  rw [UInt32.toBitVec_and, hflag, BitVec.and_twoPow]
  split at h
  · next hbit => rw [if_pos hbit]
  · exact absurd rfl h

theorem ext_bits {m n : UInt32} (h : ∀ i (hi : i < 32), m.toBitVec[i] = n.toBitVec[i]) : m = n :=
  UInt32.toBitVec_inj.mp (BitVec.eq_of_getElem_eq h)

theorem and_not_or {n f : UInt32} (h : n &&& f = f) : n &&& ~~~f ||| f = n := by
  refine ext_bits fun i hi => ?_
  have hbit : (n.toBitVec[i] && f.toBitVec[i]) = f.toBitVec[i] := by
    rw [← BitVec.getElem_and, ← UInt32.toBitVec_and, h]
  simp only [UInt32.toBitVec_or, UInt32.toBitVec_and, UInt32.toBitVec_not, BitVec.getElem_or,
    BitVec.getElem_and, BitVec.getElem_not]
  revert hbit
  cases n.toBitVec[i] <;> cases f.toBitVec[i] <;> decide

theorem or_and_not {n f : UInt32} (h : n &&& f = 0) : (n ||| f) &&& ~~~f = n := by
  refine ext_bits fun i hi => ?_
  have hbit : (n.toBitVec[i] && f.toBitVec[i]) = false := by
    rw [← BitVec.getElem_and, ← UInt32.toBitVec_and, h]
    exact BitVec.getElem_zero hi
  simp only [UInt32.toBitVec_or, UInt32.toBitVec_and, UInt32.toBitVec_not, BitVec.getElem_or,
    BitVec.getElem_and, BitVec.getElem_not]
  revert hbit
  cases n.toBitVec[i] <;> cases f.toBitVec[i] <;> decide

theorem and_not_and (n f : UInt32) : n &&& ~~~f &&& f = 0 := by
  refine ext_bits fun i hi => ?_
  simp only [UInt32.toBitVec_and, UInt32.toBitVec_not, BitVec.getElem_and, BitVec.getElem_not]
  -- the bit is cleared, whatever the two were
  cases n.toBitVec[i] <;> cases f.toBitVec[i] <;> exact (BitVec.getElem_zero hi).symm

theorem or_and (n f : UInt32) : (n ||| f) &&& f = f := by
  refine ext_bits fun i hi => ?_
  simp only [UInt32.toBitVec_and, UInt32.toBitVec_or, BitVec.getElem_and, BitVec.getElem_or]
  cases n.toBitVec[i] <;> cases f.toBitVec[i] <;> rfl

theorem or_flag_ne_zero (n : UInt32) : n ||| errorFlag ≠ 0 := by
  intro h
  have hflag := or_and n errorFlag
  rw [h] at hflag
  exact absurd hflag (by decide)

theorem toRaw_ofRaw (raw : UInt32) : (ofRaw raw).toRaw = raw := by
  unfold ofRaw
  split
  · next h => exact h.symm
  split
  · next h => exact and_not_or (and_flag_eq h)
  cases h : RequestType.ofNumber? raw with
  | some t => exact RequestType.number_of_ofNumber? h
  | none => rfl

theorem IsCanonical.canonical_eq {c : Code} (h : c.IsCanonical) : c.canonical = c := by
  cases c with
  | ok => rfl
  | request t => cases t <;> rfl
  | error n =>
    have hflag : (n ||| errorFlag) &&& errorFlag ≠ 0 := by
      rw [or_and]
      decide
    rw [canonical, toRaw, ofRaw, if_neg (or_flag_ne_zero n), if_pos hflag, or_and_not h]
  | unknown n =>
    obtain ⟨hzero, hflag, hnumbers⟩ := h
    have hnone := RequestType.ofNumber?_eq_none_iff.mpr hnumbers
    rw [canonical, toRaw, ofRaw, if_neg hzero, if_neg (not_not.mpr hflag), hnone]

theorem isCanonical_ofRaw (raw : UInt32) : (ofRaw raw).IsCanonical := by
  unfold ofRaw
  split
  · trivial
  next hzero =>
  split
  · exact and_not_and raw errorFlag
  next hflag =>
  cases h : RequestType.ofNumber? raw with
  | some t => trivial
  | none => exact ⟨hzero, not_not.mp hflag, RequestType.ofNumber?_eq_none_iff.mp h⟩

/-- A code is read back as itself exactly when it is canonical. -/
theorem canonical_eq_iff {c : Code} : c.canonical = c ↔ c.IsCanonical := by
  constructor
  · intro h
    rw [← h]
    exact isCanonical_ofRaw c.toRaw
  · exact IsCanonical.canonical_eq

end Code

/-! ### Headers -/

namespace Header

/-- A header comes back from its map with its code as that is read back. -/
theorem ofValue_toValue (h : Header) : ofValue h.toValue = .ok h.canonical := by
  obtain ⟨sync, code, schema⟩ := h
  have hlt : code.toRaw.toNat < 0x100000000 := code.toRaw.toNat_lt
  cases schema <;>
    simp [toValue, ofValue, ofEntries, lastWord, Value.word?_ofWord, Key.code, Key.sync, Key.schema, hlt,
      canonical, Code.canonical]

theorem fits_toValue (h : Header) : h.toValue.Fits := by
  obtain ⟨sync, code, schema⟩ := h
  cases schema <;> simp [toValue, Value.Fits, Value.FitsEntries, Value.ofWord]

/-- There is no text in a header that could come back as data. -/
theorem norm_toValue (h : Header) : h.toValue.norm = h.toValue := by
  obtain ⟨sync, code, schema⟩ := h
  cases schema <;> rfl

theorem cost_toValue (h : Header) : h.toValue.cost = 3 := by
  obtain ⟨sync, code, schema⟩ := h
  cases schema <;> rfl

theorem spells_encode (h : Header) {depth : ℕ} (hdepth : 3 ≤ depth) :
    Spells depth h.toValue (MessagePack.encode h.toValue) := by
  have hspells := @MessagePack.spells_encode h.toValue depth h.fits_toValue
  rw [norm_toValue, cost_toValue] at hspells
  exact hspells hdepth

end Header

/-! ### Frames -/

namespace Frame

/-- How many octets of header and body a frame has to announce. -/
def announced (h : Header) (b : Octets) : ℕ :=
  (MessagePack.encode h.toValue).length + b.length

/-- Exactly the messages within the limit can be written, and this is what is written for them. -/
theorem encode_eq_ok_iff {h : Header} {b f : Octets} :
    encode h b = .ok f ↔ announced h b ≤ maxSize ∧
      f = 0xCE :: (Octets.bigEndian 4 (announced h b) ++ (MessagePack.encode h.toValue ++ b)) := by
  simp only [encode, encodeFront, announced]
  split
  · next hsize => simp [Except.map, hsize, eq_comm]
  · next hsize => simp [Except.map, hsize]

theorem encode_eq_error {h : Header} {b : Octets} (hsize : maxSize < announced h b) :
    encode h b = .error (.tooLargeToWrite (announced h b)) := by
  simp only [encode, encodeFront, announced] at hsize ⊢
  rw [if_neg (Nat.not_le.mpr hsize)]
  rfl

theorem decodeLength_append_bigEndian {n : ℕ} (h : n ≤ maxSize) (rest : Octets) :
    decodeLength (0xCE :: (Octets.bigEndian 4 n ++ rest)) = .ok (some (n, 5, rest)) := by
  have hfits : n < Nat.pow 256 4 := Nat.lt_of_le_of_lt h (by decide)
  have hsplit := Octets.split?_append (Octets.bigEndian 4 n) rest
  rw [Octets.length_bigEndian] at hsplit
  have hmarker : lengthWidth? 0xCE = .ok (some 4) := rfl
  simp only [decodeLength, hmarker, hsplit, Option.map_some, Octets.ofBigEndian_bigEndian hfits]

/-- Reading a frame that has been written is reading its contents. -/
theorem decode_append_of_encode {h : Header} {b f : Octets} (hf : encode h b = .ok f)
    (r : Octets) :
    decode (f ++ r) =
      (decodeContents (MessagePack.encode h.toValue ++ b)).map fun m => some (m, f.length) := by
  obtain ⟨hsize, rfl⟩ := encode_eq_ok_iff.mp hf
  have hcontents := Octets.split?_append (MessagePack.encode h.toValue ++ b) r
  rw [List.length_append] at hcontents
  have hdecided := Decided.contents
    (decodeLength_append_bigEndian hsize (MessagePack.encode h.toValue ++ b ++ r))
    (Nat.not_lt.mpr hsize) hcontents
  have hlength : 5 + announced h b = (0xCE :: (Octets.bigEndian 4 (announced h b) ++
      (MessagePack.encode h.toValue ++ b))).length := by
    simp only [List.length_cons, List.length_append, Octets.length_bigEndian, announced]
    omega
  rw [← hlength, ← hdecided.decode_eq]
  simp only [List.cons_append, List.append_assoc]

/-- Behind a header that has been written, no body and one value are taken as they are. -/
theorem decodeContents_of_isValue (h : Header) {b : Octets} (hb : b = [] ∨ IsValue b) :
    decodeContents (MessagePack.encode h.toValue ++ b) = .ok ⟨h.canonical, b⟩ := by
  -- a header takes three of the 1024 levels that a value may
  have hread := (h.spells_encode (show 3 ≤ 1024 by decide)).decode_append b
  simp only [decodeContents, hread, Header.ofValue_toValue]
  rcases hb with rfl | hb
  · rfl
  · obtain ⟨v, hv⟩ := isValue_iff.mp hb
    simp only [hv, List.isEmpty_nil, if_true, ite_self]

/-- Behind a header that has been written, any other body is a fault. -/
theorem decodeContents_of_not_isValue (h : Header) {b : Octets} (hne : b ≠ [])
    (hb : ¬IsValue b) :
    ∃ e, decodeContents (MessagePack.encode h.toValue ++ b) = .error e ∧
      ((∃ fault, e = .badBody fault) ∨ ∃ count, e = .trailing count) := by
  have hread := (h.spells_encode (show 3 ≤ 1024 by decide)).decode_append b
  simp only [decodeContents, hread, Header.ofValue_toValue]
  rw [if_neg (by simpa using hne)]
  cases hv : MessagePack.decode b with
  | error e => exact ⟨_, rfl, .inl ⟨e, rfl⟩⟩
  | ok p =>
    obtain ⟨v, rest⟩ := p
    have hrest : rest ≠ [] := by
      rintro rfl
      exact hb (isValue_iff.mpr ⟨v, hv⟩)
    refine ⟨_, if_neg (by simpa using hrest), .inr ⟨rest.length, rfl⟩⟩

/-- The messages within the limit can be written, others are refused.  What has been written is read
back, whatever follows, if the body is empty or one value: the same body and the header with its
code as its number is read.  Any other body is a fault.  Exactly the canonical codes come back
unchanged, and no number on the wire is lost. -/
theorem written_comes_back :
    (∀ (h : Header) (b : Octets),
      if announced h b ≤ maxSize then
        ∃ f, encode h b = .ok f ∧ ∀ r,
          ((b = [] ∨ IsValue b) → decode (f ++ r) = .ok (some (⟨h.canonical, b⟩, f.length))) ∧
          (b ≠ [] → ¬IsValue b → ∃ e, decode (f ++ r) = .error e ∧
            ((∃ fault, e = .badBody fault) ∨ ∃ count, e = .trailing count))
      else encode h b = .error (.tooLargeToWrite (announced h b))) ∧
    (∀ h : Header, h.canonical = h ↔ h.code.IsCanonical) ∧
    ∀ raw, (Code.ofRaw raw).toRaw = raw := by
  refine ⟨?_, ?_, Code.toRaw_ofRaw⟩
  · intro h b
    split
    · next hsize =>
      have hf := encode_eq_ok_iff.mpr ⟨hsize, rfl⟩
      refine ⟨_, hf, fun r => ⟨?_, ?_⟩⟩
      · intro hb
        rw [decode_append_of_encode hf, decodeContents_of_isValue h hb]
        rfl
      · intro hne hb
        obtain ⟨e, he, hkind⟩ := decodeContents_of_not_isValue h hne hb
        refine ⟨e, ?_, hkind⟩
        rw [decode_append_of_encode hf, he]
        rfl
    · next hsize => exact encode_eq_error (Nat.not_le.mp hsize)
  · intro h
    rw [← Code.canonical_eq_iff]
    constructor
    · exact congrArg Header.code
    · intro hc
      rw [Header.canonical, hc]

/-- An error whose number has the flag's bit comes back without it; two values in a row do not come
back at all. -/
theorem written_comes_back_flagged_error :
    ∃ f g, encode ⟨5, .error 0x8021, some 7⟩ [0x80] = .ok f ∧
      decode (f ++ [0x93]) = .ok (some (⟨⟨5, .error 0x21, some 7⟩, [0x80]⟩, f.length)) ∧
      encode ⟨5, .error 0x8021, some 7⟩ [0xC0, 0xC0] = .ok g ∧
      ∃ e, decode (g ++ [0x93]) = .error e := by
  have hone := written_comes_back.1 ⟨5, .error 0x8021, some 7⟩ [0x80]
  have htwo := written_comes_back.1 ⟨5, .error 0x8021, some 7⟩ [0xC0, 0xC0]
  rw [if_pos (by decide)] at hone htwo
  obtain ⟨f, hf, hback⟩ := hone
  obtain ⟨g, hg, hfault⟩ := htwo
  have hvalue : IsValue [0x80] := isValue_iff.mpr ⟨_, rfl⟩
  have hnot : ¬IsValue [0xC0, 0xC0] := by
    intro h
    obtain ⟨v, hv⟩ := isValue_iff.mp h
    cases hv
  obtain ⟨e, he, -⟩ := (hfault [0x93]).2 (by decide) hnot
  exact ⟨f, g, hf, (hback [0x93]).1 (.inr hvalue), hg, e, he⟩

end Frame

end Switchboard.Wire
