import Switchboard.Proofs.MessagePack.Writing

/-!
# Values within a depth budget

What is written for a value spells it, as it comes back from the wire, in exactly the budgets that
cover its cost.  In a smaller one the reader stops on its way down.

## Main definitions

- `Value.Fits` — every length in a value has a length field for it
- `Announces` — the octets in front of a value give its length

## Main statements

- `spells_encode` — a value is spelled by what is written for it
- `readValue_encode_of_lt` — in a budget below the cost the reader runs out of depth
- `decode_encode_append` — what reading gives, by the cost of the value
-/

namespace Switchboard.MessagePack

/-! ### Lengths -/

namespace Value

mutual

/-- Every length in the value fits the widest length field. -/
def Fits : Value → Prop
  | .str bytes | .bin bytes | .ext _ bytes => bytes.length < 0x100000000
  | .array items => items.length < 0x100000000 ∧ FitsItems items
  | .map entries => entries.length < 0x100000000 ∧ FitsEntries entries
  | _ => True

/-- Each item fits. -/
def FitsItems : List Value → Prop
  | [] => True
  | v :: rest => v.Fits ∧ FitsItems rest

/-- Each key and value fits. -/
def FitsEntries : List (Value × Value) → Prop
  | [] => True
  | (k, v) :: rest => (k.Fits ∧ v.Fits) ∧ FitsEntries rest

end

theorem cost_pos (v : Value) : 0 < v.cost := by
  cases v <;> simp [cost]

theorem length_normItems (items : List Value) : (normItems items).length = items.length := by
  induction items with
  | nil => rfl
  | cons v rest ih => rw [normItems, List.length_cons, ih, List.length_cons]

theorem length_normEntries (entries : List (Value × Value)) :
    (normEntries entries).length = entries.length := by
  induction entries with
  | nil => rfl
  | cons e rest ih => rw [normEntries, List.length_cons, ih, List.length_cons]

end Value

/-- The octets begin with a marker of this form and give the length. -/
def Announces (form : Length → Form) (n : ℕ) (header : Octets) : Prop :=
  ∃ marker length front, header = marker :: front ∧ Form.ofMarker marker = form length ∧
    length.Spells n front

section

variable {form : Length → Form} {n width : ℕ} {marker : UInt8}

theorem announces_known (h : Form.ofMarker marker = form (.known n)) :
    Announces form n [marker] :=
  ⟨marker, .known n, [], rfl, h, .known n⟩

theorem announces_field (h : Form.ofMarker marker = form (.field width))
    (hn : n < Nat.pow 256 width) : Announces form n (marker :: Octets.bigEndian width n) := by
  have hspells := Length.Spells.field (Octets.bigEndian width n)
  rw [Octets.length_bigEndian, Octets.ofBigEndian_bigEndian hn] at hspells
  exact ⟨marker, _, _, rfl, h, hspells⟩

end

theorem ofMarker_of_fixmap {n : ℕ} (h : n < 16) :
    Form.ofMarker (0x80 + n).toUInt8 = .map (.known n) := by
  simp only [Form.ofMarker, toNat_toUInt8 (show 0x80 + n < 0x100 by omega)]
  rw [if_neg (by omega), if_pos (by omega), Nat.add_sub_cancel_left]

theorem ofMarker_of_fixarray {n : ℕ} (h : n < 16) :
    Form.ofMarker (0x90 + n).toUInt8 = .array (.known n) := by
  simp only [Form.ofMarker, toNat_toUInt8 (show 0x90 + n < 0x100 by omega)]
  rw [if_neg (by omega), if_neg (by omega), if_pos (by omega), Nat.add_sub_cancel_left]

theorem ofMarker_of_fixstr {n : ℕ} (h : n < 32) :
    Form.ofMarker (0xA0 + n).toUInt8 = .text (.known n) := by
  simp only [Form.ofMarker, toNat_toUInt8 (show 0xA0 + n < 0x100 by omega)]
  rw [if_neg (by omega), if_neg (by omega), if_neg (by omega), if_pos (by omega),
    Nat.add_sub_cancel_left]

section

variable {n : ℕ} (hn : n < 0x100000000)
include hn

theorem announces_textHeader : Announces .text n (textHeader n) := by
  simp only [textHeader]
  split
  · next h => exact announces_known (ofMarker_of_fixstr h)
  split
  · next h => exact announces_field rfl h
  split
  · next h => exact announces_field rfl h
  · exact announces_field rfl hn

theorem announces_dataHeader : Announces .data n (dataHeader n) := by
  simp only [dataHeader]
  split
  · next h => exact announces_field rfl h
  split
  · next h => exact announces_field rfl h
  · exact announces_field rfl hn

theorem announces_arrayHeader : Announces .array n (arrayHeader n) := by
  simp only [arrayHeader]
  split
  · next h => exact announces_known (ofMarker_of_fixarray h)
  split
  · next h => exact announces_field rfl h
  · exact announces_field rfl hn

theorem announces_mapHeader : Announces .map n (mapHeader n) := by
  simp only [mapHeader]
  split
  · next h => exact announces_known (ofMarker_of_fixmap h)
  split
  · next h => exact announces_field rfl h
  · exact announces_field rfl hn

theorem announces_extHeader : Announces .extension n (extHeader n) := by
  simp only [extHeader]
  split
  · next h => exact announces_known (h ▸ rfl)
  split
  · next h => exact announces_known (h ▸ rfl)
  split
  · next h => exact announces_known (h ▸ rfl)
  split
  · next h => exact announces_known (h ▸ rfl)
  split
  · next h => exact announces_known (h ▸ rfl)
  split
  · next h => exact announces_field rfl h
  split
  · next h => exact announces_field rfl h
  · exact announces_field rfl hn

end

/-! ### Written values spell themselves -/

theorem encode_array (items : List Value) :
    encode (.array items) = arrayHeader items.length ++ items.flatMap encode := by
  rw [encode, writeValue, writeItems_eq]
  simp [List.reverseAux_eq]

theorem encode_str (text : Octets) :
    encode (.str text) = if Utf8.valid text then textHeader text.length ++ text
      else dataHeader text.length ++ text := by
  simp [encode, writeValue, encodeHead, List.reverseAux_eq]

theorem encode_bin (data : Octets) : encode (.bin data) = dataHeader data.length ++ data := by
  simp [encode, writeValue, encodeHead, List.reverseAux_eq]

theorem encode_ext (kind : UInt8) (data : Octets) :
    encode (.ext kind data) = extHeader data.length ++ kind :: data := by
  simp [encode, writeValue, encodeHead, List.reverseAux_eq]

section

variable {depth n : ℕ} {data : Octets}

theorem spells_text (hn : data.length < 0x100000000) (hdepth : 3 ≤ depth) :
    Spells depth (.str data) (textHeader data.length ++ data) := by
  obtain ⟨depth, rfl⟩ := Nat.exists_eq_add_of_le' hdepth
  obtain ⟨marker, length, front, heq, hform, hcounts⟩ := announces_textHeader hn
  have hspells : Form.Spells (depth + 2) _ _ _ := .text hcounts (Nat.le_add_left ..)
  rw [← hform] at hspells
  rw [heq]
  exact .scalar (by rw [hform]; exact id) hspells

theorem spells_data (hn : data.length < 0x100000000) (hdepth : 2 ≤ depth) :
    Spells depth (.bin data) (dataHeader data.length ++ data) := by
  obtain ⟨depth, rfl⟩ := Nat.exists_eq_add_of_le' hdepth
  obtain ⟨marker, length, front, heq, hform, hcounts⟩ := announces_dataHeader hn
  have hspells : Form.Spells (depth + 1) _ _ _ := .data hcounts (Nat.le_add_left ..)
  rw [← hform] at hspells
  rw [heq]
  exact .scalar (by rw [hform]; exact id) hspells

theorem spells_ext (kind : UInt8) (hn : data.length < 0x100000000) (hdepth : 3 ≤ depth) :
    Spells depth (.ext kind data) (extHeader data.length ++ kind :: data) := by
  obtain ⟨depth, rfl⟩ := Nat.exists_eq_add_of_le' hdepth
  obtain ⟨marker, length, front, heq, hform, hcounts⟩ := announces_extHeader hn
  have hspells : Form.Spells (depth + 2) _ _ _ := .extension kind hcounts (Nat.le_add_left ..)
  rw [← hform] at hspells
  rw [heq]
  exact .scalar (by rw [hform]; exact id) hspells

end

theorem spells_single (depth : ℕ) (bits : UInt32) :
    Spells (depth + 1) (.f32 bits) (0xCA :: Octets.bigEndian 4 bits.toNat) := by
  have hspells : Form.Spells depth _ _ _ :=
    .single (Octets.bigEndian 4 bits.toNat) (Octets.length_bigEndian ..)
  have hbits : bits.toNat.toUInt32 = bits := by simp
  rw [Octets.ofBigEndian_bigEndian bits.toNat_lt, hbits] at hspells
  exact .scalar id hspells

theorem spells_double (depth : ℕ) (bits : UInt64) :
    Spells (depth + 1) (.f64 bits) (0xCB :: Octets.bigEndian 8 bits.toNat) := by
  have hspells : Form.Spells depth _ _ _ :=
    .double (Octets.bigEndian 8 bits.toNat) (Octets.length_bigEndian ..)
  have hbits : bits.toNat.toUInt64 = bits := by simp
  rw [Octets.ofBigEndian_bigEndian bits.toNat_lt, hbits] at hspells
  exact .scalar id hspells

mutual

/-- What is written for a value spells it, as it comes back from the wire, in every budget that
covers its cost. -/
theorem spells_encode : ∀ (v : Value) {depth : ℕ}, v.Fits → v.norm.cost ≤ depth →
    Spells depth v.norm (encode v)
  | .nil, depth + 1, _, _ => .scalar id .nil
  | .bool false, depth + 1, _, _ => .scalar id (.bool false)
  | .bool true, depth + 1, _, _ => .scalar id (.bool true)
  | .int i, depth + 1, _, _ => by
    rw [encode_int]
    exact spells_encodeInteger depth i
  | .f32 bits, depth + 1, _, _ => spells_single depth bits
  | .f64 bits, depth + 1, _, _ => spells_double depth bits
  | .str text, depth, hfits, hcost => by
    rw [encode_str]
    rw [Value.norm] at hcost ⊢
    split
    · next hvalid =>
      rw [if_pos hvalid] at hcost
      exact spells_text hfits hcost
    · next hvalid =>
      rw [if_neg hvalid] at hcost
      exact spells_data hfits hcost
  | .bin data, depth, hfits, hcost => by
    rw [encode_bin]
    exact spells_data hfits hcost
  | .ext kind data, depth, hfits, hcost => by
    rw [encode_ext]
    exact spells_ext kind hfits hcost
  | .array items, depth, hfits, hcost => by
    rw [Value.norm, Value.cost] at hcost
    obtain ⟨inner, rfl⟩ := Nat.exists_eq_add_of_le' (Nat.le_of_add_right_le hcost)
    have hitems : SpellsItems inner _ _ := spellsItems_encode items hfits.2 (by omega)
    obtain ⟨marker, length, front, heq, hform, hcounts⟩ := announces_arrayHeader hfits.1
    rw [← Value.length_normItems] at hcounts
    rw [encode_array, heq]
    exact .array hform hcounts hitems
  | .map entries, depth, hfits, hcost => by
    rw [Value.norm, Value.cost] at hcost
    obtain ⟨inner, rfl⟩ := Nat.exists_eq_add_of_le' (Nat.le_of_add_right_le hcost)
    have hentries : SpellsEntries inner _ _ := spellsEntries_encode entries hfits.2 (by omega)
    obtain ⟨marker, length, front, heq, hform, hcounts⟩ := announces_mapHeader hfits.1
    rw [← Value.length_normEntries] at hcounts
    rw [encode_map, heq]
    exact .map hform hcounts hentries

theorem spellsItems_encode : ∀ (items : List Value) {depth : ℕ}, Value.FitsItems items →
    Value.costItems (Value.normItems items) ≤ depth →
    SpellsItems depth (Value.normItems items) (items.flatMap encode)
  | [], _, _, _ => .nil
  | v :: items, depth, hfits, hcost => by
    have hboth := max_le_iff.mp hcost
    exact .cons (spells_encode v hfits.1 hboth.1) (spellsItems_encode items hfits.2 hboth.2)

theorem spellsEntries_encode : ∀ (entries : List (Value × Value)) {depth : ℕ},
    Value.FitsEntries entries → Value.costEntries (Value.normEntries entries) ≤ depth →
    SpellsEntries depth (Value.normEntries entries)
      (entries.flatMap fun e => encode e.1 ++ encode e.2)
  | [], _, _, _ => .nil
  | (k, v) :: entries, depth, hfits, hcost => by
    have hboth := max_le_iff.mp hcost
    have hentry := max_le_iff.mp hboth.1
    have htail := spellsEntries_encode entries hfits.2 hboth.2
    rw [List.flatMap_cons, List.append_assoc]
    exact .cons (spells_encode k hfits.1.1 hentry.1) (spells_encode v hfits.1.2 hentry.2) htail

end

theorem readValue_encode_append {v : Value} {depth : ℕ} (hfits : v.Fits)
    (hcost : v.norm.cost ≤ depth) (rest : Octets) :
    readValue depth (encode v ++ rest) = .ok (v.norm, rest) :=
  (reads_readValue depth _ _ _).mpr ⟨_, rfl, spells_encode v hfits hcost⟩

/-! ### Running out of depth -/

theorem readLength_append {length : Length} {n : ℕ} {front : Octets} (h : length.Spells n front)
    (rest : Octets) : readLength length (front ++ rest) = .ok (n, rest) :=
  readLength_eq_ok_iff.mpr ⟨front, rfl, h⟩

section

variable {depth n : ℕ} {header : Octets}

/-- Behind the marker of an array its items are read, if anything is left for them. -/
theorem readValue_of_announces_array (depth : ℕ) (h : Announces .array n header) (rest : Octets) :
    readValue 1 (header ++ rest) = .error .depthExceeded ∧
      readValue (depth + 2) (header ++ rest) = readItems (readValue depth) n rest [] := by
  obtain ⟨marker, length, front, rfl, hform, hcounts⟩ := h
  constructor <;> simp only [List.cons_append, readValue, hform, readLength_append hcounts]

/-- Behind the marker of a map its entries are read, if anything is left for them. -/
theorem readValue_of_announces_map (depth : ℕ) (h : Announces .map n header) (rest : Octets) :
    readValue 1 (header ++ rest) = .error .depthExceeded ∧
      readValue (depth + 2) (header ++ rest) = readEntries (readValue depth) n rest [] := by
  obtain ⟨marker, length, front, rfl, hform, hcounts⟩ := h
  constructor <;> simp only [List.cons_append, readValue, hform, readLength_append hcounts]

/-- Behind any other marker the length is read first. -/
theorem readValue_of_announces (depth : ℕ) {form : Length → Form} (hscalar : ∀ l, ¬(form l).IsContainer)
    (h : Announces form n header) (rest : Octets) :
    ∃ length b, readLength length b = .ok (n, rest) ∧
      readValue (depth + 1) (header ++ rest) = readScalar depth (form length) b := by
  obtain ⟨marker, length, front, rfl, hform, hcounts⟩ := h
  refine ⟨length, front ++ rest, readLength_append hcounts rest, ?_⟩
  rw [List.cons_append, readValue_of_scalar _ (hform ▸ hscalar length), hform]

theorem readValue_text_of_lt (h : Announces .text n header) (rest : Octets) (hdepth : depth < 3) :
    readValue depth (header ++ rest) = .error .depthExceeded := by
  cases depth with
  | zero => rfl
  | succ depth =>
    obtain ⟨length, b, hlength, hread⟩ := readValue_of_announces depth (fun _ => id) h rest
    rw [hread]
    simp only [readScalar, hlength]
    exact if_pos (by omega)

theorem readValue_data_of_lt (h : Announces .data n header) (rest : Octets) (hdepth : depth < 2) :
    readValue depth (header ++ rest) = .error .depthExceeded := by
  cases depth with
  | zero => rfl
  | succ depth =>
    obtain ⟨length, b, hlength, hread⟩ := readValue_of_announces depth (fun _ => id) h rest
    rw [hread]
    simp only [readScalar, hlength]
    exact if_pos (by omega)

/-- An extension is given up either before its kind or before its octets. -/
theorem readValue_ext_of_lt (h : Announces .extension n header) (kind : UInt8) (rest : Octets)
    (hdepth : depth < 3) : readValue depth (header ++ kind :: rest) = .error .depthExceeded := by
  cases depth with
  | zero => rfl
  | succ depth =>
    obtain ⟨length, b, hlength, hread⟩ :=
      readValue_of_announces depth (fun _ => id) h (kind :: rest)
    rw [hread]
    simp only [readScalar, hlength]
    by_cases hzero : depth < 1
    · exact if_pos hzero
    · exact (if_neg hzero).trans (if_pos (by omega))

end

mutual

/-- In a budget below its cost, the reader of a written value runs out of depth. -/
theorem readValue_encode_of_lt : ∀ (v : Value) {depth : ℕ} (rest : Octets), v.Fits →
    depth < v.norm.cost → readValue depth (encode v ++ rest) = .error .depthExceeded
  | .nil, depth, rest, _, hcost | .bool _, depth, rest, _, hcost | .int _, depth, rest, _, hcost
  | .f32 _, depth, rest, _, hcost | .f64 _, depth, rest, _, hcost => by
    obtain rfl : depth = 0 := Nat.lt_one_iff.mp hcost
    rfl
  | .str text, depth, rest, hfits, hcost => by
    rw [encode_str]
    rw [Value.norm] at hcost
    split
    · next hvalid =>
      rw [if_pos hvalid] at hcost
      rw [List.append_assoc]
      exact readValue_text_of_lt (announces_textHeader hfits) _ hcost
    · next hvalid =>
      rw [if_neg hvalid] at hcost
      rw [List.append_assoc]
      exact readValue_data_of_lt (announces_dataHeader hfits) _ hcost
  | .bin data, depth, rest, hfits, hcost => by
    rw [encode_bin, List.append_assoc]
    exact readValue_data_of_lt (announces_dataHeader hfits) _ hcost
  | .ext kind data, depth, rest, hfits, hcost => by
    rw [encode_ext, List.append_assoc]
    exact readValue_ext_of_lt (announces_extHeader hfits) kind _ hcost
  | .array items, depth, rest, hfits, hcost => by
    rw [Value.norm, Value.cost] at hcost
    rw [encode_array, List.append_assoc]
    -- the array takes one level for its marker and one for its items
    match depth with
    | 0 => rfl
    | 1 => exact (readValue_of_announces_array 0 (announces_arrayHeader hfits.1) _).1
    | depth + 2 =>
      rw [(readValue_of_announces_array depth (announces_arrayHeader hfits.1) _).2]
      exact readItems_encode_of_lt items rest [] hfits.2 (by omega)
  | .map entries, depth, rest, hfits, hcost => by
    rw [Value.norm, Value.cost] at hcost
    rw [encode_map, List.append_assoc]
    match depth with
    | 0 => rfl
    | 1 => exact (readValue_of_announces_map 0 (announces_mapHeader hfits.1) _).1
    | depth + 2 =>
      rw [(readValue_of_announces_map depth (announces_mapHeader hfits.1) _).2]
      exact readEntries_encode_of_lt entries rest [] hfits.2 (by omega)

/-- The items before the first that costs too much are read. -/
theorem readItems_encode_of_lt : ∀ (items : List Value) {depth : ℕ} (rest : Octets)
    (done : List Value), Value.FitsItems items →
    depth < Value.costItems (Value.normItems items) →
    readItems (readValue depth) items.length (items.flatMap encode ++ rest) done =
      .error .depthExceeded
  | v :: items, depth, rest, done, hfits, hcost => by
    rw [List.flatMap_cons, List.append_assoc, List.length_cons, readItems]
    by_cases hv : v.norm.cost ≤ depth
    · -- the item is read, so it is one behind it that costs too much
      have hrest := (lt_max_iff.mp hcost).resolve_left (Nat.not_lt.mpr hv)
      simp only [readValue_encode_append hfits.1 hv]
      exact readItems_encode_of_lt items rest (v.norm :: done) hfits.2 hrest
    · simp only [readValue_encode_of_lt v _ hfits.1 (Nat.lt_of_not_le hv)]

/-- The entries before the first that costs too much are read. -/
theorem readEntries_encode_of_lt : ∀ (entries : List (Value × Value)) {depth : ℕ} (rest : Octets)
    (done : List (Value × Value)), Value.FitsEntries entries →
    depth < Value.costEntries (Value.normEntries entries) →
    readEntries (readValue depth) entries.length
      ((entries.flatMap fun e => encode e.1 ++ encode e.2) ++ rest) done = .error .depthExceeded
  | (k, v) :: entries, depth, rest, done, hfits, hcost => by
    rw [List.flatMap_cons, List.append_assoc, List.append_assoc, List.length_cons, readEntries]
    by_cases hk : k.norm.cost ≤ depth
    · simp only [readValue_encode_append hfits.1.1 hk]
      by_cases hv : v.norm.cost ≤ depth
      · have hentry : ¬depth < max k.norm.cost v.norm.cost := Nat.not_lt.mpr (max_le hk hv)
        have hrest := (lt_max_iff.mp hcost).resolve_left hentry
        simp only [readValue_encode_append hfits.1.2 hv]
        exact readEntries_encode_of_lt entries rest ((k.norm, v.norm) :: done) hfits.2 hrest
      · simp only [readValue_encode_of_lt v _ hfits.1.2 (Nat.lt_of_not_le hv)]
    · simp only [readValue_encode_of_lt k _ hfits.1.1 (Nat.lt_of_not_le hk)]

end

/-- What reading a written value gives, whatever follows. -/
theorem decode_encode_append {v : Value} (hfits : v.Fits) (rest : Octets) :
    decode (encode v ++ rest) =
      if v.norm.cost ≤ depthLimit then .ok (v.norm, rest) else .error .depthExceeded := by
  split
  · next hcost => exact readValue_encode_append hfits hcost rest
  · next hcost => exact readValue_encode_of_lt v rest hfits (Nat.lt_of_not_le hcost)

end Switchboard.MessagePack
