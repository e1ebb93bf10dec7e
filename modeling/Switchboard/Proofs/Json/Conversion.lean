import Switchboard.Cli.Run
import Switchboard.Proofs.Bodies
import Switchboard.Proofs.Json.Reading

/-!
# Arguments there and back

An argument that has been read from JSON is shown as the same JSON, and stays so when it travels in
a response: JSON nests far less deeply than the budget of a body allows.

## Main definitions

- `Cli.Answered` — a response to a call arrives
- `Json.elements` — the JSON values of which arguments are made

## Main statements

- `Cli.Answered.call` — what a call prints
- `Json.ofValue_toValue` — a value that has been read comes back from MessagePack
- `Json.Proper.cost_toValue_le`, `Json.Proper.fits_toValue` — and has a place in a body
- `Json.arguments_come_back` — arguments come back through a response
-/

namespace Switchboard

namespace MessagePack.Value

theorem costItems_le_iff {items : List Value} {n : ℕ} :
    costItems items ≤ n ↔ ∀ v ∈ items, v.cost ≤ n := by
  induction items with
  | nil => simp [costItems]
  | cons v rest ih => rw [costItems, Nat.max_le, ih, List.forall_mem_cons]

theorem costEntries_le_iff {entries : List (Value × Value)} {n : ℕ} :
    costEntries entries ≤ n ↔ ∀ e ∈ entries, e.1.cost ≤ n ∧ e.2.cost ≤ n := by
  induction entries with
  | nil => simp [costEntries]
  | cons e rest ih => rw [costEntries, Nat.max_le, Nat.max_le, ih, List.forall_mem_cons]

theorem fitsItems_iff {items : List Value} : FitsItems items ↔ ∀ v ∈ items, v.Fits := by
  induction items with
  | nil => simp [FitsItems]
  | cons v rest ih => rw [FitsItems, ih, List.forall_mem_cons]

theorem fitsEntries_iff {entries : List (Value × Value)} :
    FitsEntries entries ↔ ∀ e ∈ entries, e.1.Fits ∧ e.2.Fits := by
  induction entries with
  | nil => simp [FitsEntries]
  | cons e rest ih => rw [FitsEntries, ih, List.forall_mem_cons]

end MessagePack.Value

namespace Cli

open MessagePack Simulation Wire

/-! ### Calls -/

/-- A call of a function is answered: the texts name servers, a client of theirs is opened, a
response with the body arrives, and the client is closed. -/
inductive Answered (settings : Settings) (texts : List String) (function : String)
    (arguments : List Value) (body : Octets) (e : Engine) (shown : List String) :
    Engine → List String → Prop
  | intro {servers e₁ e₂ e₃ shown₁ shown₂ shown₃} (named : parseAddresses texts = .ok servers)
    (opened : openClient settings servers e shown = (.ok (), e₁, shown₁))
    (response : dispatch settings (.call function arguments) .data e₁ shown₁ =
      (.ok (Reading.data.read (.ok body)), e₂, shown₂))
    (closed : closeClient e₂ shown₂ = (.ok (), e₃, shown₃)) :
    Answered settings texts function arguments body e shown e₃ shown₃

/-- The data of the response is what a call prints. -/
theorem Answered.call {settings : Settings} {texts : List String} {function : String}
    {text : Option String} {arguments : List Value} {body : Octets} {v : Value} {e e' : Engine}
    {shown shown' : List String}
    (h : Answered settings texts function arguments body e shown e' shown')
    (harguments : callArguments text = .ok arguments) (hdata : Body.responseData body = .ok v) :
    Cli.call settings texts function text e shown =
      print (Json.ofValue v).compact e' shown' := by
  obtain ⟨named, opened, response, closed⟩ := h
  have hread : Reading.data.read (.ok body) = .ok (.value v) := by
    simp [Reading.read, Except.bind, hdata, Except.map]
  rw [hread] at response
  simp only [Cli.call, addresses, named, harguments, bind, Step.bind, pure, opened, response,
    closed, orFail, payloadValue]

end Cli

namespace Json

open MessagePack Wire

/-! ### Values -/

theorem toValues_eq (items : List Json) : toValues items = items.map toValue := by
  induction items with
  | nil => rfl
  | cons v rest ih => rw [toValues, ih, List.map_cons]

theorem toEntries_eq (members : List (String × Json)) :
    toEntries members = members.map fun m => (.ofString m.1, m.2.toValue) := by
  induction members with
  | nil => rfl
  | cons m rest ih => rw [toEntries, ih, List.map_cons]

theorem norm_ofString (s : String) : (Value.ofString s).norm = .ofString s :=
  if_pos (Utf8.valid_encode s.toList)

mutual

/-- All text is UTF-8. -/
theorem norm_toValue : ∀ v : Json, v.toValue.norm = v.toValue
  | .null | .bool _ | .int _ | .float _ => rfl
  | .string text => norm_ofString text
  | .array items => by rw [toValue, Value.norm, normItems_toValues items]
  | .object members => by rw [toValue, Value.norm, normEntries_toEntries members]

theorem normItems_toValues : ∀ items : List Json,
    Value.normItems (toValues items) = toValues items
  | [] => rfl
  | v :: rest => by rw [toValues, Value.normItems, norm_toValue v, normItems_toValues rest]

theorem normEntries_toEntries : ∀ members : List (String × Json),
    Value.normEntries (toEntries members) = toEntries members
  | [] => rfl
  | (name, v) :: rest => by
    rw [toEntries, Value.normEntries, norm_ofString, norm_toValue v, normEntries_toEntries rest]

end

/-- A level of JSON costs two levels of the budget, a text in it at most three more. -/
theorem Proper.cost_toValue_le {size depth : ℕ} {v : Json} (h : Proper size depth v) :
    v.toValue.cost ≤ 2 * depth + 3 := by
  induction h with
  | null | bool | int | float => exact Nat.le_add_left ..
  | string => exact Nat.le_add_left ..
  | @array depth items _ _ ih =>
    have hitems : Value.costItems (toValues items) ≤ 2 * depth + 3 := by
      rw [toValues_eq, Value.costItems_le_iff]
      exact List.forall_mem_map.mpr ih
    rw [toValue, Value.cost]
    omega
  | @object depth members _ _ _ _ ih =>
    have hmembers : Value.costEntries (toEntries members) ≤ 2 * depth + 3 := by
      rw [toEntries_eq, Value.costEntries_le_iff]
      exact List.forall_mem_map.mpr fun m hm => ⟨Nat.le_add_left .., ih m hm⟩
    rw [toValue, Value.cost]
    omega

/-- Every length in a value that is read from a text of less than 2^32 octets has a field. -/
theorem Proper.fits_toValue {size depth : ℕ} {v : Json} (h : Proper size depth v)
    (hsize : size < 0x100000000) : v.toValue.Fits := by
  induction h with
  | null | bool | int | float => trivial
  | string length => exact Nat.lt_of_le_of_lt length hsize
  | @array depth items count _ ih =>
    rw [toValue, toValues_eq, Value.Fits, List.length_map, Value.fitsItems_iff]
    exact ⟨Nat.lt_of_le_of_lt count hsize, List.forall_mem_map.mpr ih⟩
  | @object depth members count _ names _ ih =>
    rw [toValue, toEntries_eq, Value.Fits, List.length_map, Value.fitsEntries_iff]
    refine ⟨Nat.lt_of_le_of_lt count hsize, List.forall_mem_map.mpr fun m hm => ?_⟩
    exact ⟨Nat.lt_of_le_of_lt (names m hm) hsize, ih m hm⟩

/-! ### Values there and back -/

theorem decodeLossy_ofString (s : String) :
    String.ofList (Utf8.decodeLossy (Utf8.ofString s)) = s := by
  rw [Utf8.ofString, Utf8.decodeLossy_encode, String.ofList_toList]

theorem ofValues_toValues {items : List Json} (h : ∀ v ∈ items, ofValue v.toValue = v)
    (shown : List Json) : ofValues (toValues items) shown = shown.reverse ++ items := by
  induction items generalizing shown with
  | nil => simp [toValues, ofValues]
  | cons v rest ih =>
    obtain ⟨hv, hrest⟩ := List.forall_mem_cons.mp h
    rw [toValues, ofValues, hv, ih hrest]
    simp

/-- Members in order are set one behind the other. -/
theorem ofEntries_toEntries {members shown : List (String × Json)}
    (h : ∀ m ∈ members, ofValue m.2.toValue = m.2) (hsorted : IsSorted (shown ++ members)) :
    ofEntries (toEntries members) shown = shown ++ members := by
  induction members generalizing shown with
  | nil => simp [toEntries, ofEntries]
  | cons m rest ih =>
    obtain ⟨hm, hrest⟩ := List.forall_mem_cons.mp h
    -- the members shown so far are before the next one, which is therefore put behind them
    have hlast : ∀ other ∈ shown, other.1 < m.1 := fun other hother =>
      (List.pairwise_append.mp hsorted).2.2 other hother m (List.mem_cons_self ..)
    have hname : memberName (.ofString m.1) (ofValue (.ofString m.1)) = m.1 :=
      decodeLossy_ofString m.1
    rw [toEntries, ofEntries, hname, hm, putMember_of_lt hlast, ih hrest]
    · simp
    · simpa using hsorted

/-- A value that has been read comes back from its MessagePack value. -/
theorem ofValue_toValue {size depth : ℕ} {v : Json} (h : Proper size depth v) :
    ofValue v.toValue = v := by
  induction h with
  | null | bool | int => rfl
  | @float _ bits finite =>
    obtain ⟨hfinite, hback⟩ := Binary.toBits_ofBits bits.toNat_lt finite
    rw [toValue, ofValue, ofScalar, ofFloat, if_pos hfinite, hback]
    · simp
    all_goals rintro _ ⟨⟩
  | @string _ text => exact congrArg Json.string (decodeLossy_ofString text)
  | array _ _ ih => rw [toValue, ofValue, ofValues_toValues ih, List.reverse_nil, List.nil_append]
  | object _ sorted _ _ ih =>
    exact congrArg Json.object (ofEntries_toEntries ih sorted)

/-! ### Arguments -/

/-- The JSON values of which arguments are made: the items of an array, or the one value. -/
def elements : Json → List Json
  | .array items => items
  | v => [v]

theorem arguments_eq (v : Json) : v.arguments = v.elements.map toValue := by
  cases v with
  | array items => exact toValues_eq items
  | _ => rfl

theorem callArguments_eq_ok_iff {text : String} {args : List Value} :
    Cli.callArguments (some text) = .ok args ↔ ∃ v, parse text = .ok v ∧ v.arguments = args := by
  rw [Cli.callArguments]
  cases parse text <;> simp

theorem Proper.of_mem_elements {size depth : ℕ} {v e : Json} (h : Proper size depth v)
    (he : e ∈ v.elements) : ∃ depth' ≤ depth, Proper size depth' e := by
  cases h with
  | array count each => exact ⟨_, Nat.le_succ _, each e he⟩
  | null | bool | int | float | string | object =>
    obtain rfl := List.mem_singleton.mp he
    exact ⟨_, Nat.le_refl _, by constructor <;> assumption⟩

/-- JSON that the reader accepts costs at most 257 of the 1022 that the result of a response may. -/
theorem Proper.responseData_data {size depth : ℕ} {v : Json} (h : Proper size depth v)
    (hdepth : depth ≤ 127) (hfits : v.toValue.Fits) :
    Body.responseData (Body.data v.toValue) = .ok v.toValue := by
  have hcost := h.cost_toValue_le
  rw [Body.responseData_data hfits, norm_toValue, if_pos]
  rw [depthLimit]
  omega

/-- JSON in, JSON out.  Arguments are the items of an array or the one value.  Each is shown as the
JSON from which it was made, also after it has been the result of a response; and a call that is
answered with one of its arguments prints the JSON of that argument.  Its lengths must have fields,
and those of a text below a third of 2^32 octets have. -/
theorem arguments_come_back {text : String} {args : List Value}
    (h : Cli.callArguments (some text) = .ok args) :
    ∃ v, parse text = .ok v ∧ args = v.elements.map toValue ∧ ∀ e ∈ v.elements,
      ofValue e.toValue = e ∧
      (e.toValue.Fits →
        (Body.responseData (Body.data e.toValue)).map ofValue = .ok e ∧
        ∀ {settings texts function before shown after shown'},
          Cli.Answered settings texts function args (Body.data e.toValue) before shown after
            shown' →
          Cli.call settings texts function (some text) before shown =
            Cli.print e.compact after shown') ∧
      (3 * (Utf8.ofString text).length < 0x100000000 → e.toValue.Fits) := by
  obtain ⟨v, hv, hargs⟩ := callArguments_eq_ok_iff.mp h
  refine ⟨v, hv, hargs ▸ arguments_eq v, fun e he => ?_⟩
  obtain ⟨depth, hdepth, hproper⟩ := (proper_of_parse hv).of_mem_elements he
  have hback := ofValue_toValue hproper
  refine ⟨hback, fun hfits => ?_, hproper.fits_toValue⟩
  have hdata := hproper.responseData_data hdepth hfits
  refine ⟨by rw [hdata, Except.map, hback], fun hanswered => ?_⟩
  rw [hanswered.call h hdata, hback]

/-- An object whose members are out of order, with one name twice, the largest whole number, a whole
number with a point, an escaped letter and a negative zero. -/
theorem arguments_come_back_object :
    ∃ text e, parse text = .ok (.array [e]) ∧
      text = "[\x7b\"b\": 1, \"a\": [18446744073709551615, 1.5e1, \"ü\\u00e9\"], \"b\": -0.0\x7d]" ∧
      e = object [("a", .array [.int (.ofWord 0xFFFFFFFFFFFFFFFF), .float 0x402E000000000000,
        .string "üé"]), ("b", .float 0x8000000000000000)] ∧
      ofValue e.toValue = e ∧ (Body.responseData (Body.data e.toValue)).map ofValue = .ok e := by
  have hparse : parse
      "[\x7b\"b\": 1, \"a\": [18446744073709551615, 1.5e1, \"ü\\u00e9\"], \"b\": -0.0\x7d]" =
      .ok (.array [object [("a", .array [.int (.ofWord 0xFFFFFFFFFFFFFFFF),
        .float 0x402E000000000000, .string "üé"]), ("b", .float 0x8000000000000000)]]) := by rfl
  refine ⟨_, _, hparse, rfl, rfl, ?_⟩
  obtain ⟨v, hv, -, helements⟩ :=
    arguments_come_back (callArguments_eq_ok_iff.mpr ⟨_, hparse, rfl⟩)
  obtain rfl := Except.ok.inj (hparse.symm.trans hv)
  obtain ⟨hback, hresponse, hfits⟩ := helements _ (List.mem_singleton_self _)
  exact ⟨hback, (hresponse (hfits (by decide))).1⟩

end Json

end Switchboard
