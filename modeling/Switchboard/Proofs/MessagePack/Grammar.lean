import Mathlib.Data.List.Basic
import Switchboard.MessagePack.Decoder

/-!
# The grammar of MessagePack

Which octets spell which value is said by rules that know nothing of reading.  Reading from the
front of a byte string succeeds exactly when a part of it spells a value, gives that value, and
leaves the rest.

## Main definitions

- `Length.Spells` — octets that give a length
- `Form.Spells` — octets behind a marker that announces a value without contents
- `Spells`, `SpellsItems`, `SpellsEntries` — octets that spell a value within a depth budget, and
  its contents one after the other
- `IsValue` — octets that spell one value within the budget of a whole value

## Main statements

- `reads_readValue` — reading finds what the grammar says
- `isValue_iff` — one value and nothing else is what a reader takes whole
-/

namespace Switchboard.MessagePack

/-! ### Lengths and data -/

/-- The octets give a length in the way that the marker announces. -/
inductive Length.Spells : Length → ℕ → Octets → Prop
  | known (n : ℕ) : Spells (.known n) n []
  | field (front : Octets) : Spells (.field front.length) (Octets.ofBigEndian front) front

theorem readNumber_eq_ok_iff {width n : ℕ} {b rest : Octets} :
    readNumber width b = .ok (n, rest) ↔
      ∃ front, front ++ rest = b ∧ front.length = width ∧ Octets.ofBigEndian front = n := by
  rw [readNumber]
  constructor
  · intro h
    cases hs : Octets.split? width b with
    | none => simp [hs] at h
    | some p =>
      obtain ⟨front, behind⟩ := p
      simp only [hs, Except.ok.injEq, Prod.mk.injEq] at h
      obtain ⟨rfl, rfl⟩ := h
      exact ⟨front, Octets.append_of_split? hs, Octets.length_of_split? hs, rfl⟩
  · rintro ⟨front, rfl, rfl, rfl⟩
    rw [Octets.split?_append]

theorem readLength_eq_ok_iff {length : Length} {n : ℕ} {b rest : Octets} :
    readLength length b = .ok (n, rest) ↔ ∃ front, front ++ rest = b ∧ length.Spells n front := by
  cases length with
  | known m =>
    constructor
    · rintro ⟨⟩
      exact ⟨[], rfl, .known n⟩
    · rintro ⟨front, rfl, ⟨⟩⟩
      rfl
  | field width =>
    rw [readLength, readNumber_eq_ok_iff]
    constructor
    · rintro ⟨front, hb, rfl, rfl⟩
      exact ⟨front, hb, .field front⟩
    · rintro ⟨front, hb, ⟨⟩⟩
      exact ⟨front, hb, rfl, rfl⟩

theorem readData_eq_ok_iff {n : ℕ} {b data rest : Octets} :
    readData n b = .ok (data, rest) ↔ data ++ rest = b ∧ data.length = n := by
  have hsplit : readData n b = .ok (data, rest) ↔ Octets.split? n b = some (data, rest) := by
    simp only [readData, Octets.split?]
    split <;> simp
  rw [hsplit]
  constructor
  · intro h
    exact ⟨Octets.append_of_split? h, Octets.length_of_split? h⟩
  · rintro ⟨rfl, rfl⟩
    exact Octets.split?_append data rest

/-! ### Values without contents -/

/-- The octets behind a marker of this form spell a value that holds no other values, so much being
left of the depth budget. -/
inductive Form.Spells (depth : ℕ) : Form → Value → Octets → Prop
  | nil : Spells depth .nil .nil []
  | bool (b : Bool) : Spells depth (.bool b) (.bool b) []
  | small (n : Int) : Spells depth (.small n) (integerValue n) []
  | unsigned (front : Octets) :
    Spells depth (.unsigned front.length) (integerValue (Octets.ofBigEndian front)) front
  | signed (front : Octets) :
    Spells depth (.signed front.length)
      (integerValue (asSigned front.length (Octets.ofBigEndian front))) front
  | single (front : Octets) (width : front.length = 4) :
    Spells depth .single (.f32 (Octets.ofBigEndian front).toUInt32) front
  | double (front : Octets) (width : front.length = 8) :
    Spells depth .double (.f64 (Octets.ofBigEndian front).toUInt64) front
  | text {length : Length} {front data : Octets} (counts : length.Spells data.length front)
    (budget : 2 ≤ depth) : Spells depth (.text length) (.str data) (front ++ data)
  | data {length : Length} {front data : Octets} (counts : length.Spells data.length front)
    (budget : 1 ≤ depth) : Spells depth (.data length) (.bin data) (front ++ data)
  | extension {length : Length} {front data : Octets} (kind : UInt8)
    (counts : length.Spells data.length front) (budget : 2 ≤ depth) :
    Spells depth (.extension length) (.ext kind data) (front ++ kind :: data)

/-- The form announces a value that holds other values. -/
def Form.IsContainer : Form → Prop
  | .array _ | .map _ => True
  | _ => False

theorem bind_eq_ok_iff {ε α β : Type} {x : Except ε α} {f : α → Except ε β} {r : β} :
    (x >>= f) = .ok r ↔ ∃ a, x = .ok a ∧ f a = .ok r := by
  cases x <;> simp [bind, Except.bind]

theorem guarded_eq_ok_iff {ε α β : Type} {c : Prop} [Decidable c] {e : ε} {f : α → Except ε β}
    {x : Except ε β} {r : β} :
    (if c then throw e >>= f else x) = .ok r ↔ ¬c ∧ x = .ok r := by
  by_cases h : c <;> simp [h, throw, throwThe, MonadExceptOf.throw, bind, Except.bind]

theorem pure_eq_ok_iff {ε α : Type} {a r : α} : (pure a : Except ε α) = .ok r ↔ a = r := by
  simp [pure, Except.pure]

theorem spells_of_readScalar {depth : ℕ} {form : Form} {v : Value} {b rest : Octets}
    (hform : ¬form.IsContainer) (h : readScalar depth form b = .ok (v, rest)) :
    ∃ w, w ++ rest = b ∧ form.Spells depth v w := by
  cases form with
  | array | map => exact absurd trivial hform
  | nil =>
    cases h
    exact ⟨[], rfl, .nil⟩
  | bool x =>
    cases h
    exact ⟨[], rfl, .bool x⟩
  | small n =>
    cases h
    exact ⟨[], rfl, .small n⟩
  | unsigned width =>
    simp only [readScalar, bind_eq_ok_iff, pure_eq_ok_iff, Prod.mk.injEq,
      Prod.exists, readNumber_eq_ok_iff] at h
    obtain ⟨_, _, ⟨front, rfl, rfl, rfl⟩, rfl, rfl⟩ := h
    exact ⟨front, rfl, .unsigned front⟩
  | signed width =>
    simp only [readScalar, bind_eq_ok_iff, pure_eq_ok_iff, Prod.mk.injEq,
      Prod.exists, readNumber_eq_ok_iff] at h
    obtain ⟨_, _, ⟨front, rfl, rfl, rfl⟩, rfl, rfl⟩ := h
    exact ⟨front, rfl, .signed front⟩
  | single =>
    simp only [readScalar, bind_eq_ok_iff, pure_eq_ok_iff, Prod.mk.injEq,
      Prod.exists, readNumber_eq_ok_iff] at h
    obtain ⟨_, _, ⟨front, rfl, hwidth, rfl⟩, rfl, rfl⟩ := h
    exact ⟨front, rfl, .single front hwidth⟩
  | double =>
    simp only [readScalar, bind_eq_ok_iff, pure_eq_ok_iff, Prod.mk.injEq,
      Prod.exists, readNumber_eq_ok_iff] at h
    obtain ⟨_, _, ⟨front, rfl, hwidth, rfl⟩, rfl, rfl⟩ := h
    exact ⟨front, rfl, .double front hwidth⟩
  | text length =>
    simp only [readScalar, bind_eq_ok_iff, guarded_eq_ok_iff, pure_eq_ok_iff, Prod.mk.injEq,
      Prod.exists, readLength_eq_ok_iff, readData_eq_ok_iff] at h
    obtain ⟨_, _, ⟨front, rfl, hcounts⟩, hbudget, data, _, ⟨rfl, rfl⟩, rfl, rfl⟩ := h
    exact ⟨front ++ data, List.append_assoc .., .text hcounts (Nat.le_of_not_lt hbudget)⟩
  | data length =>
    simp only [readScalar, bind_eq_ok_iff, guarded_eq_ok_iff, pure_eq_ok_iff, Prod.mk.injEq,
      Prod.exists, readLength_eq_ok_iff, readData_eq_ok_iff] at h
    obtain ⟨_, _, ⟨front, rfl, hcounts⟩, hbudget, data, _, ⟨rfl, rfl⟩, rfl, rfl⟩ := h
    exact ⟨front ++ data, List.append_assoc .., .data hcounts (Nat.le_of_not_lt hbudget)⟩
  | extension length =>
    simp only [readScalar, bind_eq_ok_iff, guarded_eq_ok_iff, Prod.exists,
      readLength_eq_ok_iff] at h
    obtain ⟨_, behind, ⟨front, rfl, hcounts⟩, -, h⟩ := h
    cases behind with
    | nil => cases h
    | cons kind behind =>
      simp only [bind_eq_ok_iff, guarded_eq_ok_iff, pure_eq_ok_iff, Prod.mk.injEq,
        Prod.exists, readData_eq_ok_iff] at h
      obtain ⟨hbudget, data, _, ⟨rfl, rfl⟩, rfl, rfl⟩ := h
      exact ⟨front ++ kind :: data, by simp, .extension kind hcounts (Nat.le_of_not_lt hbudget)⟩

theorem Form.Spells.readScalar_append {depth : ℕ} {form : Form} {v : Value} {w : Octets}
    (h : form.Spells depth v w) (rest : Octets) :
    readScalar depth form (w ++ rest) = .ok (v, rest) := by
  cases h with
  | nil | bool | small => rfl
  | unsigned | signed =>
    simp only [readScalar, bind_eq_ok_iff, pure_eq_ok_iff, Prod.exists, readNumber_eq_ok_iff]
    exact ⟨_, _, ⟨w, rfl, rfl, rfl⟩, rfl⟩
  | single _ hwidth | double _ hwidth =>
    simp only [readScalar, bind_eq_ok_iff, pure_eq_ok_iff, Prod.exists, readNumber_eq_ok_iff]
    exact ⟨_, _, ⟨w, rfl, hwidth, rfl⟩, rfl⟩
  | @text _ front data hcounts hbudget | @data _ front data hcounts hbudget =>
    simp only [readScalar, bind_eq_ok_iff, guarded_eq_ok_iff, pure_eq_ok_iff, Prod.exists,
      readLength_eq_ok_iff, readData_eq_ok_iff]
    exact ⟨_, data ++ rest, ⟨front, (List.append_assoc ..).symm, hcounts⟩, Nat.not_lt.mpr hbudget,
      data, rest, ⟨rfl, rfl⟩, rfl⟩
  | @extension length front data kind hcounts hbudget =>
    have hlength : readLength length (front ++ kind :: data ++ rest) =
        .ok (data.length, kind :: (data ++ rest)) :=
      readLength_eq_ok_iff.mpr ⟨front, by simp, hcounts⟩
    have hdata : readData data.length (data ++ rest) = .ok (data, rest) :=
      readData_eq_ok_iff.mpr ⟨rfl, rfl⟩
    simp only [readScalar, bind_eq_ok_iff, guarded_eq_ok_iff]
    refine ⟨_, hlength, by omega, ?_⟩
    simp only [bind_eq_ok_iff, guarded_eq_ok_iff]
    exact ⟨Nat.not_lt.mpr hbudget, _, hdata, rfl⟩

/-! ### Values -/

mutual

/-- The octets spell a value within the depth budget.  Behind the marker stands what its form asks
for; the contents of an array or map have to do with two less. -/
inductive Spells : ℕ → Value → Octets → Prop
  | scalar {depth : ℕ} {marker : UInt8} {v : Value} {w : Octets}
    (form : ¬(Form.ofMarker marker).IsContainer)
    (spells : (Form.ofMarker marker).Spells depth v w) : Spells (depth + 1) v (marker :: w)
  | array {depth : ℕ} {marker : UInt8} {length : Length} {items : List Value} {front w : Octets}
    (form : Form.ofMarker marker = .array length) (counts : length.Spells items.length front)
    (contents : SpellsItems depth items w) :
    Spells (depth + 2) (.array items) (marker :: (front ++ w))
  | map {depth : ℕ} {marker : UInt8} {length : Length} {entries : List (Value × Value)}
    {front w : Octets} (form : Form.ofMarker marker = .map length)
    (counts : length.Spells entries.length front) (contents : SpellsEntries depth entries w) :
    Spells (depth + 2) (.map entries) (marker :: (front ++ w))

/-- The octets spell one item after the other, each within the budget. -/
inductive SpellsItems : ℕ → List Value → Octets → Prop
  | nil {depth : ℕ} : SpellsItems depth [] []
  | cons {depth : ℕ} {v : Value} {items : List Value} {w w' : Octets} (head : Spells depth v w)
    (tail : SpellsItems depth items w') : SpellsItems depth (v :: items) (w ++ w')

/-- The octets spell one entry after the other, each key before its value. -/
inductive SpellsEntries : ℕ → List (Value × Value) → Octets → Prop
  | nil {depth : ℕ} : SpellsEntries depth [] []
  | cons {depth : ℕ} {k v : Value} {entries : List (Value × Value)} {w₁ w₂ w' : Octets}
    (key : Spells depth k w₁) (value : Spells depth v w₂) (tail : SpellsEntries depth entries w') :
    SpellsEntries depth ((k, v) :: entries) (w₁ ++ (w₂ ++ w'))

end

theorem Spells.length_pos {depth : ℕ} {v : Value} {w : Octets} (h : Spells depth v w) :
    0 < w.length := by
  cases h <;> exact Nat.succ_pos _

/-- The reader finds what the grammar says, within the depth budget. -/
def Reads (read : Octets → Except DecodeFault (Value × Octets)) (depth : ℕ) : Prop :=
  ∀ b v rest, read b = .ok (v, rest) ↔ ∃ w, w ++ rest = b ∧ Spells depth v w

variable {read : Octets → Except DecodeFault (Value × Octets)} {depth : ℕ}

/-- Items are read one after the other, behind those already read. -/
theorem Reads.readItems_iff (h : Reads read depth) {count : ℕ} {b rest : Octets}
    {done : List Value} {v : Value} :
    readItems read count b done = .ok (v, rest) ↔
      ∃ items w, v = .array (done.reverse ++ items) ∧ items.length = count ∧ w ++ rest = b ∧
        SpellsItems depth items w := by
  -- on how many are left; `done` holds those read before, the last one first
  induction count generalizing b done with
  | zero =>
    simp only [readItems, Except.ok.injEq, Prod.mk.injEq]
    constructor
    · rintro ⟨rfl, rfl⟩
      exact ⟨[], [], by simp, rfl, rfl, .nil⟩
    · rintro ⟨items, w, rfl, hcount, rfl, hitems⟩
      rw [List.length_eq_zero_iff] at hcount
      subst hcount
      cases hitems
      simp
  | succ count ih =>
    rw [readItems]
    constructor
    · intro hr
      cases hv : read b with
      | error e => simp [hv] at hr
      | ok p =>
        simp only [hv] at hr
        obtain ⟨w, rfl, hw⟩ := (h b p.1 p.2).mp hv
        obtain ⟨items, w', rfl, rfl, heq, hitems⟩ := ih.mp hr
        refine ⟨p.1 :: items, w ++ w', by simp, rfl, ?_, .cons hw hitems⟩
        rw [List.append_assoc, heq]
    · rintro ⟨items, w, rfl, hcount, rfl, hitems⟩
      cases hitems with
      | nil => cases hcount
      | @cons _ v items w w' hw hitems =>
        have hv : read (w ++ w' ++ rest) = .ok (v, w' ++ rest) :=
          (h _ _ _).mpr ⟨w, (List.append_assoc ..).symm, hw⟩
        simp only [hv]
        exact ih.mpr ⟨items, w', by simp, Nat.succ.inj hcount, rfl, hitems⟩

/-- Entries are read one after the other, behind those already read. -/
theorem Reads.readEntries_iff (h : Reads read depth) {count : ℕ} {b rest : Octets}
    {done : List (Value × Value)} {v : Value} :
    readEntries read count b done = .ok (v, rest) ↔
      ∃ entries w, v = .map (done.reverse ++ entries) ∧ entries.length = count ∧ w ++ rest = b ∧
        SpellsEntries depth entries w := by
  induction count generalizing b done with
  | zero =>
    simp only [readEntries, Except.ok.injEq, Prod.mk.injEq]
    constructor
    · rintro ⟨rfl, rfl⟩
      exact ⟨[], [], by simp, rfl, rfl, .nil⟩
    · rintro ⟨entries, w, rfl, hcount, rfl, hentries⟩
      rw [List.length_eq_zero_iff] at hcount
      subst hcount
      cases hentries
      simp
  | succ count ih =>
    rw [readEntries]
    constructor
    · intro hr
      cases hk : read b with
      | error e => simp [hk] at hr
      | ok p =>
        simp only [hk] at hr
        cases hv : read p.2 with
        | error e => simp [hv] at hr
        | ok q =>
          simp only [hv] at hr
          obtain ⟨w₁, rfl, hkey⟩ := (h b p.1 p.2).mp hk
          obtain ⟨w₂, hw₂, hvalue⟩ := (h p.2 q.1 q.2).mp hv
          obtain ⟨entries, w', rfl, rfl, heq, hentries⟩ := ih.mp hr
          refine ⟨(p.1, q.1) :: entries, w₁ ++ (w₂ ++ w'), by simp, rfl, ?_,
            .cons hkey hvalue hentries⟩
          rw [List.append_assoc, List.append_assoc, heq, hw₂]
    · rintro ⟨entries, w, rfl, hcount, rfl, hentries⟩
      cases hentries with
      | nil => cases hcount
      | @cons _ k v entries w₁ w₂ w' hkey hvalue hentries =>
        have hk : read (w₁ ++ (w₂ ++ w') ++ rest) = .ok (k, w₂ ++ (w' ++ rest)) :=
          (h _ _ _).mpr ⟨w₁, by simp, hkey⟩
        have hv : read (w₂ ++ (w' ++ rest)) = .ok (v, w' ++ rest) :=
          (h _ _ _).mpr ⟨w₂, rfl, hvalue⟩
        simp only [hk, hv]
        exact ih.mpr ⟨entries, w', by simp, Nat.succ.inj hcount, rfl, hentries⟩

/-! ### Reading -/

/-- Behind a marker whose form has no contents, reading is reading what the form announces. -/
theorem readValue_of_scalar {marker : UInt8} (b : Octets)
    (h : ¬(Form.ofMarker marker).IsContainer) :
    readValue (depth + 1) (marker :: b) = readScalar depth (Form.ofMarker marker) b := by
  rw [readValue]
  cases hform : Form.ofMarker marker with
  | array | map =>
    rw [hform] at h
    exact absurd trivial h
  | _ => rfl

/-- Behind the marker of an array come its length and its items. -/
theorem readValue_of_array {marker : UInt8} {length : Length}
    (hform : Form.ofMarker marker = .array length) (h : Reads (readValue depth) depth)
    {b rest : Octets} {v : Value} :
    readValue (depth + 2) (marker :: b) = .ok (v, rest) ↔
      ∃ w, w ++ rest = marker :: b ∧ Spells (depth + 2) v w := by
  simp only [readValue, hform]
  constructor
  · intro hr
    cases hl : readLength length b with
    | error e => simp [hl] at hr
    | ok p =>
      simp only [hl] at hr
      obtain ⟨front, rfl, hcounts⟩ := readLength_eq_ok_iff.mp hl
      obtain ⟨items, w, rfl, hcount, heq, hitems⟩ := h.readItems_iff.mp hr
      refine ⟨marker :: (front ++ w), ?_, .array hform (hcount ▸ hcounts) hitems⟩
      rw [List.cons_append, List.append_assoc, heq]
  · rintro ⟨w, hw, hspells⟩
    cases hspells with
    | scalar form =>
      cases hw
      rw [hform] at form
      exact absurd trivial form
    | map form =>
      cases hw
      rw [hform] at form
      cases form
    | @array _ _ _ items front w form hcounts hitems =>
      rw [List.cons_append, List.cons.injEq] at hw
      obtain ⟨rfl, rfl⟩ := hw
      rw [hform] at form
      cases form
      have hl : readLength length (front ++ w ++ rest) = .ok (items.length, w ++ rest) :=
        readLength_eq_ok_iff.mpr ⟨front, (List.append_assoc ..).symm, hcounts⟩
      simp only [hl]
      exact h.readItems_iff.mpr ⟨items, w, rfl, rfl, rfl, hitems⟩

/-- Behind the marker of a map come its length and its entries. -/
theorem readValue_of_map {marker : UInt8} {length : Length}
    (hform : Form.ofMarker marker = .map length) (h : Reads (readValue depth) depth)
    {b rest : Octets} {v : Value} :
    readValue (depth + 2) (marker :: b) = .ok (v, rest) ↔
      ∃ w, w ++ rest = marker :: b ∧ Spells (depth + 2) v w := by
  simp only [readValue, hform]
  constructor
  · intro hr
    cases hl : readLength length b with
    | error e => simp [hl] at hr
    | ok p =>
      simp only [hl] at hr
      obtain ⟨front, rfl, hcounts⟩ := readLength_eq_ok_iff.mp hl
      obtain ⟨entries, w, rfl, hcount, heq, hentries⟩ := h.readEntries_iff.mp hr
      refine ⟨marker :: (front ++ w), ?_, .map hform (hcount ▸ hcounts) hentries⟩
      rw [List.cons_append, List.append_assoc, heq]
  · rintro ⟨w, hw, hspells⟩
    cases hspells with
    | scalar form =>
      cases hw
      rw [hform] at form
      exact absurd trivial form
    | array form =>
      cases hw
      rw [hform] at form
      cases form
    | @map _ _ _ entries front w form hcounts hentries =>
      rw [List.cons_append, List.cons.injEq] at hw
      obtain ⟨rfl, rfl⟩ := hw
      rw [hform] at form
      cases form
      have hl : readLength length (front ++ w ++ rest) = .ok (entries.length, w ++ rest) :=
        readLength_eq_ok_iff.mpr ⟨front, (List.append_assoc ..).symm, hcounts⟩
      simp only [hl]
      exact h.readEntries_iff.mpr ⟨entries, w, rfl, rfl, rfl, hentries⟩

theorem readValue_one_of_container {marker : UInt8} (b : Octets)
    (h : (Form.ofMarker marker).IsContainer) (v : Value) (rest : Octets) :
    readValue 1 (marker :: b) ≠ .ok (v, rest) := by
  simp only [readValue]
  cases hform : Form.ofMarker marker with
  | array length | map length => cases hl : readLength length b <;> simp [hl]
  | _ =>
    rw [hform] at h
    exact h.elim

/-- Reading finds what the grammar says. -/
theorem reads_readValue : ∀ depth, Reads (readValue depth) depth
  | 0 => by
    intro b v rest
    constructor
    · intro h
      cases h
    · rintro ⟨w, rfl, ⟨⟩⟩ -- nothing is spelled without a budget
  | depth + 1 => by
    rintro (_ | ⟨marker, b⟩) v rest
    · constructor
      · intro h
        cases h
      · rintro ⟨w, hw, h⟩
        rw [(List.append_eq_nil_iff.mp hw).1] at h
        cases h
    by_cases hform : (Form.ofMarker marker).IsContainer
    · -- the contents of an array or map are read with two less
      cases depth with
      | zero =>
        constructor
        · intro h
          exact absurd h (readValue_one_of_container b hform v rest)
        · rintro ⟨w, hw, h⟩
          cases h with
          | scalar form =>
            obtain ⟨rfl, -⟩ := List.cons.inj hw
            exact absurd hform form
      | succ inner =>
        cases hmarker : Form.ofMarker marker with
        | array => exact readValue_of_array hmarker (reads_readValue inner)
        | map => exact readValue_of_map hmarker (reads_readValue inner)
        | _ =>
          rw [hmarker] at hform
          exact hform.elim
    · rw [readValue_of_scalar b hform]
      constructor
      · intro h
        obtain ⟨w, rfl, hw⟩ := spells_of_readScalar hform h
        exact ⟨marker :: w, rfl, .scalar hform hw⟩
      · rintro ⟨w, hw, h⟩
        cases h with
        | scalar _ spells =>
          obtain ⟨rfl, rfl⟩ := List.cons.inj hw
          exact spells.readScalar_append rest
        | array form | map form =>
          obtain ⟨rfl, -⟩ := List.cons.inj hw
          rw [form] at hform
          exact absurd trivial hform

/-- The octets spell one value within the budget of a whole value. -/
def IsValue (b : Octets) : Prop :=
  ∃ v, Spells depthLimit v b

theorem decode_eq_ok_iff {b rest : Octets} {v : Value} :
    decode b = .ok (v, rest) ↔ ∃ w, w ++ rest = b ∧ Spells depthLimit v w :=
  reads_readValue depthLimit b v rest

/-- What is spelled is read whatever follows. -/
theorem Spells.decode_append {w : Octets} {v : Value} (h : Spells depthLimit v w) (rest : Octets) :
    decode (w ++ rest) = .ok (v, rest) :=
  decode_eq_ok_iff.mpr ⟨w, rfl, h⟩

/-- One value and nothing else is what a reader takes whole. -/
theorem isValue_iff {b : Octets} : IsValue b ↔ ∃ v, decode b = .ok (v, []) := by
  simp only [IsValue, decode_eq_ok_iff, List.append_nil, exists_eq_left]

end Switchboard.MessagePack
