import Mathlib.Data.List.Induction
import Switchboard.Proofs.RoundTrip

/-!
# What has been received can be forwarded

A sender may write the header of a frame in many ways: in long forms, in any order, with keys that
count for nothing.  Written anew it takes no more octets than the sender spent on it, so a frame
that has been accepted is never too large to be passed on.

## Main definitions

- `IsWidth` — the widths that numbers come in
- `Header.wordSize` — what an entry with a word takes when written

## Main statements

- `Spells.length_encodeInteger_le` — no octets spell an integer in less than is written for it
- `Header.length_encode_le` — nor a header
- `Frame.received_forwards` — a message that has been read can be written, and comes back
-/

namespace Switchboard

theorem Octets.ofBigEndian_lt (b : Octets) : ofBigEndian b < Nat.pow 256 b.length := by
  induction b using List.reverseRecOn with
  | nil => decide
  | append_singleton front last ih =>
    have hlast : last.toNat < 256 := last.toNat_lt
    have hpow : Nat.pow 256 (front.length + 1) = Nat.pow 256 front.length * 256 := Nat.pow_succ ..
    rw [ofBigEndian, List.foldl_append, List.length_append, List.length_singleton, hpow]
    simp only [ofBigEndian] at ih
    simp only [List.foldl_cons, List.foldl_nil]
    omega

namespace MessagePack

/-! ### The shortest form of an integer -/

/-- The widths that numbers come in. -/
def IsWidth (width : ℕ) : Prop :=
  width = 1 ∨ width = 2 ∨ width = 4 ∨ width = 8

theorem isWidth_of_ofMarker_unsigned {marker : UInt8} {width : ℕ}
    (h : Form.ofMarker marker = .unsigned width) : IsWidth width := by
  simp only [Form.ofMarker] at h
  repeat' split at h
  all_goals simp [IsWidth] at h ⊢
  all_goals omega

theorem isWidth_of_ofMarker_signed {marker : UInt8} {width : ℕ}
    (h : Form.ofMarker marker = .signed width) : IsWidth width := by
  simp only [Form.ofMarker] at h
  repeat' split at h
  all_goals simp [IsWidth] at h ⊢
  all_goals omega

theorem le_of_ofMarker_small {marker : UInt8} {n : Int} (h : Form.ofMarker marker = .small n) :
    -0x20 ≤ n ∧ n < 0x80 := by
  have hmarker := marker.toNat_lt
  simp only [Form.ofMarker] at h
  repeat' split at h
  all_goals simp at h
  all_goals omega

theorem length_encodeInteger_of_small {i : Integer} (hlow : -0x20 ≤ i.val) (hhigh : i.val < 0x80) :
    (encodeInteger i).length = 1 := by
  simp only [encodeInteger]
  split
  · rw [if_pos (by omega)]
    rfl
  · rfl

/-- A number that octets of some width can hold is not written in more. -/
theorem length_encodeInteger_le {i : Integer} {width : ℕ} (hwidth : IsWidth width)
    (hlow : -(Nat.pow 256 width : Int) ≤ 2 * i.val) (hhigh : i.val < Nat.pow 256 width) :
    (encodeInteger i).length ≤ width + 1 := by
  have hpow : Nat.pow 256 1 = 0x100 ∧ Nat.pow 256 2 = 0x10000 ∧ Nat.pow 256 4 = 0x100000000 := by
    decide
  obtain ⟨h1, h2, h4⟩ := hpow
  simp only [encodeInteger]
  rcases hwidth with rfl | rfl | rfl | rfl
  · rw [h1] at hlow hhigh
    split_ifs <;> simp [Octets.length_bigEndian] <;> omega
  · rw [h2] at hlow hhigh
    split_ifs <;> simp [Octets.length_bigEndian] <;> omega
  · rw [h4] at hlow hhigh
    split_ifs <;> simp [Octets.length_bigEndian] <;> omega
  · split_ifs <;> simp [Octets.length_bigEndian]

theorem val_of_integerValue_eq {i : Integer} {n : Int} (h : integerValue n = .int i) :
    i.val = n := by
  simp only [integerValue, Integer.ofInt?] at h
  split at h
  · next heq =>
    split at heq
    · cases heq
      cases h
      rfl
    · cases heq
  · cases h

theorem asSigned_bounds {width n : ℕ} (hwidth : 0 < width) (hn : n < Nat.pow 256 width) :
    -(Nat.pow 256 width : Int) ≤ 2 * asSigned width n ∧ asSigned width n < Nat.pow 256 width := by
  have hhalf := two_mul_pow_eq hwidth
  have hfull : Nat.pow 2 (8 * width) = Nat.pow 256 width := Nat.pow_mul 2 8 width
  rw [asSigned, hfull]
  split <;> omega

theorem IsWidth.pos {width : ℕ} (h : IsWidth width) : 0 < width := by
  unfold IsWidth at h
  omega

theorem Form.Spells.length_encodeInteger_le {depth : ℕ} {marker : UInt8} {i : Integer} {w : Octets}
    (h : (Form.ofMarker marker).Spells depth (.int i) w) :
    (encodeInteger i).length ≤ w.length + 1 := by
  generalize hform : Form.ofMarker marker = form at h
  generalize hvalue : Value.int i = v at h
  cases h with
  | small n =>
    have hval := val_of_integerValue_eq hvalue.symm
    obtain ⟨hlow, hhigh⟩ := le_of_ofMarker_small hform
    rw [length_encodeInteger_of_small (by omega) (by omega)]
    exact Nat.le_add_left ..
  | unsigned =>
    have hval := val_of_integerValue_eq hvalue.symm
    have hlt := Octets.ofBigEndian_lt w
    exact MessagePack.length_encodeInteger_le (isWidth_of_ofMarker_unsigned hform) (by omega)
      (by omega)
  | signed =>
    have hval := val_of_integerValue_eq hvalue.symm
    have hwidth := isWidth_of_ofMarker_signed hform
    obtain ⟨hlow, hhigh⟩ := asSigned_bounds hwidth.pos (Octets.ofBigEndian_lt w)
    exact MessagePack.length_encodeInteger_le hwidth (by omega) (by omega)
  | _ => cases hvalue

/-- No octets spell an integer in less than is written for it. -/
theorem Spells.length_encodeInteger_le {depth : ℕ} {i : Integer} {w : Octets}
    (h : Spells depth (.int i) w) : (encodeInteger i).length ≤ w.length := by
  cases h with
  | scalar _ spells => exact spells.length_encodeInteger_le

theorem integerValue_ne_map (n : Int) (entries : List (Value × Value)) :
    integerValue n ≠ .map entries := by
  rw [integerValue]
  split <;> rintro ⟨⟩

/-- A map is spelled by its entries behind at least one octet. -/
theorem Spells.exists_entries {depth : ℕ} {entries : List (Value × Value)} {w : Octets}
    (h : Spells depth (.map entries) w) :
    ∃ depth' w', SpellsEntries depth' entries w' ∧ w'.length < w.length := by
  generalize hvalue : Value.map entries = v at h
  cases h with
  | scalar _ spells =>
    -- no form of a scalar stands for a map
    exfalso
    generalize Form.ofMarker _ = form at spells
    cases spells with
    | small | unsigned | signed => exact integerValue_ne_map _ _ hvalue.symm
    | _ => cases hvalue
  | array => cases hvalue
  | map _ _ contents =>
    cases hvalue
    refine ⟨_, _, contents, ?_⟩
    rw [List.length_cons, List.length_append]
    omega

theorem eq_ofWord_of_word? {v : Value} {n : UInt64} (h : v.word? = some n) : v = .ofWord n := by
  cases v with
  | int i =>
    obtain ⟨val, lower, upper⟩ := i
    simp only [Value.word?, Integer.toWord?] at h
    split at h
    · next hpos =>
      cases h
      have hval : (val.toNat.toUInt64.toNat : Int) = val := by
        simp only [Nat.toUInt64_eq, UInt64.toNat_ofNat']
        omega
      simp only [Value.ofWord, Integer.ofWord, hval]
    · cases h
  | _ => cases h

end MessagePack

namespace Wire

open MessagePack

/-! ### The shortest form of a header -/

namespace Header

/-- How many octets an entry of a header takes when written; its key takes one of them. -/
def wordSize : Option UInt64 → ℕ
  | none => 0
  | some n => 1 + (MessagePack.encode (.ofWord n)).length

theorem length_encode (h : Header) :
    (MessagePack.encode h.toValue).length =
      1 + (wordSize (some h.code.toRaw.toUInt64) + wordSize (some h.sync) + wordSize h.schema) := by
  -- all keys are small numbers
  have hcode : (MessagePack.encode (.ofWord Key.code)).length = 1 := by decide
  have hsync : (MessagePack.encode (.ofWord Key.sync)).length = 1 := by decide
  have hschema : (MessagePack.encode (.ofWord Key.schema)).length = 1 := by decide
  obtain ⟨sync, code, schema⟩ := h
  cases schema <;> simp [toValue, encode_map, mapHeader, wordSize, hcode, hsync, hschema] <;> omega

/-- The sender has spent at least as many octets on an entry. -/
theorem wordSize_le {depth : ℕ} {k v : Value} {w₁ w₂ : Octets} (hkey : Spells depth k w₁)
    (hvalue : Spells depth v w₂) : wordSize v.word? ≤ w₁.length + w₂.length := by
  cases hword : v.word? with
  | none => exact Nat.zero_le _
  | some n =>
    rw [eq_ofWord_of_word? hword, Value.ofWord] at hvalue
    have hlength := hvalue.length_encodeInteger_le
    have hpos := hkey.length_pos
    simp only [wordSize, Value.ofWord, encode_int]
    omega

/-- The entries that count in the end take no more than those before and all that have been read.
-/
theorem wordSize_lastWord_le {depth : ℕ} {entries : List (Value × Value)} {w : Octets}
    (h : SpellsEntries depth entries w) (code sync schema : Option UInt64) :
    wordSize (lastWord Key.code entries code) + wordSize (lastWord Key.sync entries sync) +
        wordSize (lastWord Key.schema entries schema) ≤
      wordSize code + wordSize sync + wordSize schema + w.length := by
  induction entries generalizing w code sync schema with
  | nil => exact Nat.le_add_right ..
  | cons e entries ih =>
    cases h with
    | @cons _ k v _ w₁ w₂ w' hkey hvalue htail =>
      have hentry := wordSize_le hkey hvalue
      simp only [lastWord, List.length_append]
      -- an entry counts for at most one of the keys, instead of what counted for it before
      by_cases hcode : k.word? = some Key.code
      · rw [if_pos hcode, hcode, if_neg (by decide), if_neg (by decide)]
        have := ih htail v.word? sync schema
        omega
      by_cases hsync : k.word? = some Key.sync
      · rw [if_neg hcode, hsync, if_pos rfl, if_neg (by decide)]
        have := ih htail code v.word? schema
        omega
      rw [if_neg hcode, if_neg hsync]
      split
      · have := ih htail code sync v.word?
        omega
      · have := ih htail code sync schema
        omega

theorem ofEntries_eq_ok_iff {entries : List (Value × Value)} {h : Header} :
    ofEntries entries = .ok h ↔
      ∃ code, lastWord Key.code entries none = some code ∧ code.toNat < 0x100000000 ∧
        lastWord Key.sync entries none = some h.sync ∧ h.code = .ofRaw code.toUInt32 ∧
        lastWord Key.schema entries none = h.schema := by
  obtain ⟨sync, code, schema⟩ := h
  simp only [ofEntries]
  cases lastWord Key.code entries none with
  | none => simp
  | some raw =>
    by_cases hraw : raw.toNat < 0x100000000
    · cases lastWord Key.sync entries none with
      | none => simp [hraw]
      | some sync' => simp [hraw, eq_comm]
    · simp [hraw]

/-- Written anew, a header takes no more octets than the sender spent on it. -/
theorem length_encode_le {depth : ℕ} {v : Value} {w : Octets} {h : Header}
    (hspells : Spells depth v w) (hv : ofValue v = .ok h) :
    (MessagePack.encode h.toValue).length ≤ w.length := by
  cases v with
  | map entries =>
    obtain ⟨depth', w', hcontents, hlength⟩ := hspells.exists_entries
    obtain ⟨raw, hcode, hlt, hsync, hraw, hschema⟩ := ofEntries_eq_ok_iff.mp hv
    have hback : h.code.toRaw.toUInt64 = raw := by
      rw [hraw, Code.toRaw_ofRaw]
      apply UInt64.toNat_inj.mp
      simpa using hlt
    have hle := wordSize_lastWord_le hcontents none none none
    rw [hcode, hsync, hschema] at hle
    have hnone : wordSize none = 0 := rfl
    rw [length_encode, hback]
    omega
  | _ => cases hv

/-- The code of a header that has been read stands for its number. -/
theorem isCanonical_of_ofValue {v : Value} {h : Header} (hv : ofValue v = .ok h) :
    h.code.IsCanonical := by
  cases v with
  | map entries =>
    obtain ⟨raw, -, -, -, hraw, -⟩ := ofEntries_eq_ok_iff.mp hv
    rw [hraw]
    exact Code.isCanonical_ofRaw _
  | _ => cases hv

end Header

namespace Frame

/-! ### Frames passed on -/

theorem decodeContents_eq_ok_iff {contents : Octets} {m : Message} :
    decodeContents contents = .ok m ↔
      ∃ w v, w ++ m.body = contents ∧ Spells depthLimit v w ∧ Header.ofValue v = .ok m.header ∧
        (m.body = [] ∨ IsValue m.body) := by
  constructor
  · intro h
    simp only [decodeContents] at h
    split at h
    · cases h
    next v body hread =>
    obtain ⟨w, rfl, hspells⟩ := decode_eq_ok_iff.mp hread
    split at h
    · cases h
    next header hheader =>
    split at h
    · next hempty =>
      cases h
      exact ⟨w, v, rfl, hspells, hheader, .inl (List.isEmpty_iff.mp hempty)⟩
    split at h
    · cases h
    next u rest hbody =>
    split at h
    · next hrest =>
      cases h
      rw [List.isEmpty_iff.mp hrest] at hbody
      exact ⟨w, v, rfl, hspells, hheader, .inr (isValue_iff.mpr ⟨u, hbody⟩)⟩
    · cases h
  · rintro ⟨w, v, rfl, hspells, hheader, hbody⟩
    simp only [decodeContents, hspells.decode_append, hheader]
    rcases hbody with hbody | hbody
    · rw [if_pos (List.isEmpty_iff.mpr hbody)]
    · obtain ⟨u, hu⟩ := isValue_iff.mp hbody
      simp only [hu, List.isEmpty_nil, if_true, ite_self]

/-- Where a message that has been read stands in its buffer: behind a length that is within the
limit. -/
theorem exists_contents_of_decode {b : Octets} {m : Message} {n : ℕ}
    (h : decode b = .ok (some (m, n))) :
    ∃ front contents rest, b = front ++ contents ++ rest ∧ n = front.length + contents.length ∧
      contents.length ≤ maxSize ∧ decodeContents contents = .ok m := by
  have hd := decided_of_ne_none (b := b) (by rw [h]; simp)
  rw [h] at hd
  generalize hr : (Except.ok (some (m, n)) : Except FrameFault (Option (Message × ℕ))) = r at hd
  cases hd with
  | badLength => cases hr
  | tooLarge => cases hr
  | @contents size width rest contents behind hl hsize hs =>
    cases hc : decodeContents contents with
    | error e => simp [hc, Except.map] at hr
    | ok m' =>
      simp only [hc, Except.map, Except.ok.injEq, Option.some.injEq, Prod.mk.injEq] at hr
      obtain ⟨rfl, rfl⟩ := hr
      have hcontents := Octets.append_of_split? hs
      have hlength := Octets.length_of_split? hs
      obtain ⟨front, hfront, hwidth, -⟩ := exists_front_of_decodeLength hl
      refine ⟨front, contents, behind, ?_, by omega, by omega, hc⟩
      rw [List.append_assoc, hcontents, hfront]

/-- Whatever has been read can be forwarded.  The header is written in no more octets than the
sender spent on it, so the frame stays within the limit; and it is read back as the same message,
whatever follows. -/
theorem received_forwards {buffer : Octets} {m : Message} {n : ℕ}
    (h : decode buffer = .ok (some (m, n))) :
    ∃ front received rest v frame, buffer = front ++ (received ++ m.body) ++ rest ∧
      n = front.length + (received ++ m.body).length ∧
      MessagePack.decode received = .ok (v, []) ∧ Header.ofValue v = .ok m.header ∧
      (MessagePack.encode m.header.toValue).length ≤ received.length ∧
      announced m.header m.body ≤ maxSize ∧ encode m.header m.body = .ok frame ∧
      ∀ r, decode (frame ++ r) = .ok (some (m, frame.length)) := by
  obtain ⟨front, contents, rest, hbuffer, hn, hsize, hcontents⟩ := exists_contents_of_decode h
  obtain ⟨received, v, rfl, hspells, hheader, hbody⟩ := decodeContents_eq_ok_iff.mp hcontents
  have hshort := Header.length_encode_le hspells hheader
  have hfits : announced m.header m.body ≤ maxSize := by
    rw [List.length_append] at hsize
    rw [announced]
    omega
  have hcanonical : m.header.canonical = m.header := by
    rw [Header.canonical, (Header.isCanonical_of_ofValue hheader).canonical_eq]
  have hread : MessagePack.decode received = .ok (v, []) := by
    simpa using hspells.decode_append []
  have hframe := encode_eq_ok_iff.mpr ⟨hfits, rfl⟩
  refine ⟨front, received, rest, v, _, hbuffer, hn, hread, hheader, hshort, hfits, hframe, ?_⟩
  intro r
  rw [decode_append_of_encode hframe, decodeContents_of_isValue m.header hbody, hcanonical]
  rfl

/-- A header in long forms, with the code given twice and a key that means nothing: 23 octets, of
which eleven are left. -/
theorem received_forwards_long_forms :
    ∃ contents frame : Octets,
      decode (0xCF :: 0 :: 0 :: 0 :: 0 :: 0 :: 0 :: 0 :: 26 :: (contents ++ [0x93])) =
        .ok (some (⟨⟨258, .error 0x21, some 7⟩, [0x92, 0xC0, 0xC3]⟩, 35)) ∧
      encode ⟨258, .error 0x21, some 7⟩ [0x92, 0xC0, 0xC3] = .ok frame ∧
      announced ⟨258, .error 0x21, some 7⟩ [0x92, 0xC0, 0xC3] = 11 + 3 ∧
      decode frame = .ok (some (⟨⟨258, .error 0x21, some 7⟩, [0x92, 0xC0, 0xC3]⟩,
        frame.length)) := by
  let contents : Octets := [0xDE, 0, 5, 5, 0xCD, 0, 7, 1, 0xCE, 0, 0, 1, 2, 0xA1, 0x78, 0xC0,
    0xCC, 0, 5, 0, 0xCD, 0x80, 0x21, 0x92, 0xC0, 0xC3]
  have hvalue : MessagePack.decode contents =
      .ok (.map [(integerValue 5, integerValue 7), (integerValue 1, integerValue 258),
        (.str [0x78], .nil), (integerValue 0, integerValue 5),
        (integerValue 0, integerValue 0x8021)], [0x92, 0xC0, 0xC3]) := by rfl
  have hbody : MessagePack.decode [0x92, 0xC0, 0xC3] = .ok (.array [.nil, .bool true], []) := by
    rfl
  have hcontents : decodeContents contents =
      .ok ⟨⟨258, .error 0x21, some 7⟩, [0x92, 0xC0, 0xC3]⟩ := by
    rw [decodeContents, hvalue]
    simp only [hbody]
    rfl
  have hlength : decodeLength
      (0xCF :: 0 :: 0 :: 0 :: 0 :: 0 :: 0 :: 0 :: 26 :: (contents ++ [0x93])) =
      .ok (some (26, 9, contents ++ [0x93])) := by rfl
  have hdecided := Decided.contents hlength (by decide) (Octets.split?_append contents [0x93])
  rw [hcontents] at hdecided
  obtain ⟨_, _, _, _, frame, -, -, -, -, -, -, hframe, hback⟩ :=
    received_forwards hdecided.decode_eq
  refine ⟨contents, frame, hdecided.decode_eq, hframe, by decide, ?_⟩
  simpa using hback []

end Frame

end Wire

end Switchboard
