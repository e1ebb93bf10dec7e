import Mathlib.Logic.Function.Iterate
import Switchboard.Proofs.MessagePack.Depth
import Switchboard.Proofs.Utf8
import Switchboard.Wire.Body

/-!
# Bodies there and back

A value that is sent as a body, or as the result of a response, comes back unless it nests too
deeply.  The text of an error response comes back too, and no body makes its code unreadable.

## Main statements

- `Body.decode_encode`, `Body.decode_encode_append` — a body is one value and nothing else
- `Body.responseData_data` — the result of a response
- `Body.responseFault_error` — the text of an error response
- `Body.bodies_survive` — all of these for every value, code, text and body
-/

namespace Switchboard.Wire.Body

open MessagePack

/-! ### Values as bodies -/

theorem isEmpty_encode_append {v : Value} (hfits : v.Fits) (rest : Octets) :
    (encode v ++ rest).isEmpty = false := by
  have hspells := spells_encode v hfits (Nat.le_refl _)
  have hpos := hspells.length_pos
  cases h : encode v with
  | nil => simp [h] at hpos
  | cons => rfl

theorem decode_encode {v : Value} (hfits : v.Fits) :
    decode (encode v) =
      if v.norm.cost ≤ depthLimit then .ok v.norm else .error (.decode .depthExceeded) := by
  have hempty := isEmpty_encode_append hfits []
  have hread := MessagePack.decode_encode_append hfits []
  rw [List.append_nil] at hempty hread
  by_cases hcost : v.norm.cost ≤ depthLimit
  · rw [if_pos hcost] at hread ⊢
    simp [decode, hempty, hread]
  · rw [if_neg hcost] at hread ⊢
    simp [decode, hempty, hread]

theorem decode_encode_append {v : Value} (hfits : v.Fits) (hcost : v.norm.cost ≤ depthLimit)
    {rest : Octets} (hrest : rest ≠ []) :
    decode (encode v ++ rest) =
      .error (.invalidResponse (toString rest.length ++ " trailing bytes after body")) := by
  have hread := MessagePack.decode_encode_append hfits rest
  rw [if_pos hcost] at hread
  have hmore : rest.isEmpty = false := by simpa using hrest
  simp [decode, isEmpty_encode_append hfits, hread, hmore]

/-! ### Responses -/

section

variable (key : UInt64) {v : Value}

theorem decode_keyed (hfits : v.Fits) :
    decode (keyed [(key, v)]) =
      if v.norm.cost + 2 ≤ depthLimit then .ok (.map [(.ofWord key, v.norm)])
      else .error (.decode .depthExceeded) := by
  have hmap : (Value.map [(.ofWord key, v)]).Fits := by
    simp [Value.Fits, Value.FitsEntries, Value.ofWord, hfits]
  have hcost : (Value.map [(.ofWord key, v.norm)]).cost = v.norm.cost + 2 := by
    have hpos := v.norm.cost_pos
    simp [Value.cost, Value.costEntries, Value.ofWord]
    omega
  have hread := decode_encode hmap
  simp only [Value.norm, Value.normEntries, Value.ofWord] at hread hcost
  rw [hcost] at hread
  exact hread

theorem lookup_keyed : lookup key (.map [(.ofWord key, v)]) = some v := by
  simp [lookup, Value.word?_ofWord]

end

/-- The result of a response comes back unless the map around it makes it too deep. -/
theorem responseData_data {v : Value} (hfits : v.Fits) :
    responseData (data v) =
      if v.norm.cost + 2 ≤ depthLimit then .ok v.norm else .error (.decode .depthExceeded) := by
  rw [responseData, data, decode_keyed Key.data hfits]
  split
  · simp [Except.map, lookup_keyed]
  · rfl

/-- The text of an error response comes back with its code. -/
theorem responseFault_error (code : UInt32) {detail : String}
    (hfits : (Utf8.ofString detail).length < 0x100000000) :
    responseFault code (error detail) = .server code detail := by
  have hvalid : Utf8.valid (Utf8.ofString detail) = true := Utf8.valid_encode _
  have hnorm : (Value.ofString detail).norm = .ofString detail := if_pos hvalid
  have htext : (Value.ofString detail).text? = some detail.toList := Utf8.decode?_encode _
  have hread := decode_keyed Key.error (v := .ofString detail) hfits
  have hcost : (Value.ofString detail).cost + 2 ≤ depthLimit := by
    simp [Value.ofString, Value.cost, depthLimit]
  rw [hnorm, if_pos hcost] at hread
  simp [responseFault, errorText?, error, hread, lookup_keyed, htext]

/-- Bodies survive the wire, lengths being below 2^32.  A value comes back, text that is not UTF-8
as binary data, exactly when it costs no more than the depth budget; with anything behind it it is
refused.  The result of a response may cost two less.  The text of an error response comes back, and
no body makes its code unreadable. -/
theorem bodies_survive :
    (∀ v : Value, v.Fits →
      decode (encode v) =
        (if v.norm.cost ≤ 1024 then .ok v.norm else .error (.decode .depthExceeded)) ∧
      (v.norm.cost ≤ 1024 → ∀ x, x ≠ [] → decode (encode v ++ x) =
        .error (.invalidResponse (toString x.length ++ " trailing bytes after body"))) ∧
      responseData (data v) =
        if v.norm.cost ≤ 1022 then .ok v.norm else .error (.decode .depthExceeded)) ∧
    (∀ (code : UInt32) (detail : String), (Utf8.ofString detail).length < 0x100000000 →
      responseFault code (error detail) = .server code detail) ∧
    ∀ (code : UInt32) (body : Octets), ∃ detail, responseFault code body = .server code detail := by
  refine ⟨?_, ?_, fun code body => ⟨_, rfl⟩⟩
  · intro v hfits
    refine ⟨decode_encode hfits, ?_, ?_⟩
    · intro hcost x hx
      exact decode_encode_append hfits hcost hx
    · rw [responseData_data hfits]
      simp only [depthLimit, Nat.reduceLeDiff]
  · intro code detail hfits
    exact responseFault_error code hfits

section

variable (v : Value) (n : ℕ)

theorem fits_nested (hfits : v.Fits) : ((fun u => Value.array [u])^[n] v).Fits := by
  induction n with
  | zero => exact hfits
  | succ n ih =>
    rw [Function.iterate_succ_apply']
    exact ⟨show 1 < 0x100000000 by decide, ih, trivial⟩

theorem norm_nested :
    ((fun u => Value.array [u])^[n] v).norm = (fun u => Value.array [u])^[n] v.norm := by
  induction n with
  | zero => rfl
  | succ n ih => rw [Function.iterate_succ_apply', Function.iterate_succ_apply', ← ih]; rfl

theorem cost_nested : ((fun u => Value.array [u])^[n] v).cost = v.cost + 2 * n := by
  induction n with
  | zero => rfl
  | succ n ih =>
    rw [Function.iterate_succ_apply', Value.cost, Value.costItems, Value.costItems, ih]
    omega

end

/-- In 511 arrays there is room for one octet that is no text, but not for a letter; nor is there
for the octet when all of it is the result of a response. -/
theorem bodies_survive_nested :
    (∃ octet letter : Value, octet = (fun u => Value.array [u])^[511] (.str [0x80]) ∧
      letter = (fun u => Value.array [u])^[511] (.str [0x61]) ∧
      decode (encode octet) = .ok ((fun u => Value.array [u])^[511] (.bin [0x80])) ∧
      decode (encode octet ++ [0xC0]) = .error (.invalidResponse "1 trailing bytes after body") ∧
      decode (encode letter) = .error (.decode .depthExceeded) ∧
      responseData (data octet) = .error (.decode .depthExceeded)) ∧
    responseFault 0x21 (error "größer") = .server 0x21 "größer" := by
  obtain ⟨hvalues, htexts, -⟩ := bodies_survive
  have hoctet : Value.norm (.str [0x80]) = .bin [0x80] := by rfl
  have hletter : Value.norm (.str [0x61]) = .str [0x61] := by rfl
  have hcost : Value.cost (.bin [0x80]) = 2 ∧ Value.cost (.str [0x61]) = 3 := by decide
  have hfits (b : UInt8) : (Value.str [b]).Fits := show 1 < 0x100000000 by decide
  -- the depth is kept as a variable, so that nothing unfolds the arrays
  generalize hn : 511 = n
  obtain ⟨hback, hmore, hdata⟩ := hvalues _ (fits_nested (.str [0x80]) n (hfits _))
  obtain ⟨hdeep, -, -⟩ := hvalues _ (fits_nested (.str [0x61]) n (hfits _))
  simp only [norm_nested, cost_nested, hoctet, hletter, hcost] at hback hmore hdata hdeep
  refine ⟨⟨_, _, rfl, rfl, ?_, ?_, ?_, ?_⟩, htexts _ _ (by decide)⟩
  · exact hback.trans (if_pos (by omega))
  · exact hmore (by omega) [0xC0] (by decide)
  · exact hdeep.trans (if_neg (by omega))
  · exact hdata.trans (if_neg (by omega))

end Switchboard.Wire.Body
