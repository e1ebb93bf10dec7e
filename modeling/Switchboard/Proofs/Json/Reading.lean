import Mathlib.Data.List.Basic
import Switchboard.Json.Reader
import Switchboard.Proofs.Json.Numbers
import Switchboard.Proofs.MessagePack.Grammar
import Switchboard.Proofs.Utf8

/-!
# Values read from JSON

A text is read as a value whose numbers are finite, whose objects are sorted, and which nests no
deeper than the reader goes.  No string and no list in it is longer than the text allows.

## Main definitions

- `IsSorted` — names in ascending order
- `Proper` — what a value that has been read is like

## Main statements

- `isSorted_putMember` — setting a member keeps an object sorted
- `readValue_leaves` — every value that is read is proper
- `proper_of_parse` — so is the value of a whole text
-/

namespace Switchboard.Json

/-! ### Proper values -/

/-- The members stand in ascending order of their names, and no name occurs twice. -/
def IsSorted (members : List (String × Json)) : Prop :=
  members.Pairwise fun a b => a.1 < b.1

/-- Numbers are finite, objects are sorted, at most so many arrays and objects nest, and no string
and no list is longer than `size`. -/
inductive Proper (size : ℕ) : ℕ → Json → Prop
  | null {depth : ℕ} : Proper size depth .null
  | bool {depth : ℕ} (b : Bool) : Proper size depth (.bool b)
  | int {depth : ℕ} (i : MessagePack.Integer) : Proper size depth (.int i)
  | float {depth : ℕ} {bits : UInt64} (finite : IsFiniteBits bits.toNat) :
    Proper size depth (.float bits)
  | string {depth : ℕ} {text : String} (length : (Utf8.ofString text).length ≤ size) :
    Proper size depth (.string text)
  | array {depth : ℕ} {items : List Json} (count : items.length ≤ size)
    (each : ∀ v ∈ items, Proper size depth v) : Proper size (depth + 1) (.array items)
  | object {depth : ℕ} {members : List (String × Json)} (count : members.length ≤ size)
    (sorted : IsSorted members) (names : ∀ m ∈ members, (Utf8.ofString m.1).length ≤ size)
    (each : ∀ m ∈ members, Proper size depth m.2) : Proper size (depth + 1) (.object members)

theorem proper_ofFloat {b : Binary} (h : b.Bounded) (size depth : ℕ) :
    Proper size depth (.ofFloat b) := by
  rw [ofFloat]
  split
  · next hfinite =>
    obtain ⟨hlt, hbits⟩ := h.isFiniteBits hfinite
    have hback : (b.toBits .double).toUInt64.toNat = b.toBits .double := by
      rw [Nat.toUInt64_eq, UInt64.toNat_ofNat', Nat.mod_eq_of_lt hlt]
    exact .float (by rwa [hback])
  · exact .null

/-! ### Members -/

variable {members : List (String × Json)} {name : String} {v : Json}

theorem mem_putMember {m : String × Json} (h : m ∈ putMember name v members) :
    m = (name, v) ∨ m ∈ members := by
  induction members with
  | nil => exact .inl (List.mem_singleton.mp h)
  | cons other rest ih =>
    rw [putMember] at h
    split at h
    · rcases List.mem_cons.mp h with h | h
      · exact .inl h
      · exact .inr (List.mem_cons_of_mem _ h)
    split at h
    · exact List.mem_cons.mp h
    · rcases List.mem_cons.mp h with rfl | h
      · exact .inr (List.mem_cons_self ..)
      · exact (ih h).imp_right (List.mem_cons_of_mem _)

/-- What holds of the new member and of those before holds of all. -/
theorem forall_putMember {holds : String × Json → Prop} (hnew : holds (name, v))
    (hmembers : ∀ m ∈ members, holds m) : ∀ m ∈ putMember name v members, holds m := by
  intro m hm
  rcases mem_putMember hm with rfl | hm
  · exact hnew
  · exact hmembers m hm

theorem length_putMember_le (name : String) (v : Json) (members : List (String × Json)) :
    (putMember name v members).length ≤ members.length + 1 := by
  induction members with
  | nil => exact Nat.le_refl _
  | cons other rest ih =>
    rw [putMember]
    split
    · exact Nat.le_succ _
    split
    · exact Nat.le_refl _
    · exact Nat.succ_le_succ ih

/-- Setting a member keeps an object sorted. -/
theorem isSorted_putMember (h : IsSorted members) : IsSorted (putMember name v members) := by
  induction members with
  | nil => exact List.pairwise_singleton ..
  | cons other rest ih =>
    obtain ⟨hother, hrest⟩ := List.pairwise_cons.mp h
    rw [putMember]
    split
    · next heq => exact List.pairwise_cons.mpr ⟨heq ▸ hother, hrest⟩
    next hne =>
    split
    · next hlt =>
      refine List.pairwise_cons.mpr ⟨?_, h⟩
      intro m hm
      rcases List.mem_cons.mp hm with rfl | hm
      · exact hlt
      · exact String.lt_trans hlt (hother m hm)
    next hnlt =>
    have hgreater : other.1 < name := Std.lt_of_le_of_ne hnlt (Ne.symm hne)
    exact List.pairwise_cons.mpr ⟨forall_putMember hgreater hother, ih hrest⟩

/-- A member that belongs behind the others is put there. -/
theorem putMember_of_lt (h : ∀ m ∈ members, m.1 < name) :
    putMember name v members = members ++ [(name, v)] := by
  induction members with
  | nil => rfl
  | cons other rest ih =>
    have hother := h other (List.mem_cons_self ..)
    rw [putMember, if_neg (String.ne_of_lt hother).symm, if_neg (String.lt_asymm hother),
      ih fun m hm => h m (List.mem_cons_of_mem _ hm), List.cons_append]

/-! ### Strings -/

theorem length_of_readHex {text rest : Octets} {n : ℕ} (h : readHex text = .ok (n, rest)) :
    rest.length + 4 = text.length := by
  rw [readHex.eq_def] at h
  split at h
  · dsimp only at h
    split at h
    · cases h
      rfl
    · cases h
  · cases h

theorem length_of_expectInPair {expected : UInt8} {text rest : Octets}
    (h : expectInPair expected text = .ok rest) : rest.length + 1 = text.length := by
  rw [expectInPair.eq_def] at h
  split at h
  · cases h
  split at h
  · cases h
    rfl
  · cases h

/-- A character given by its number takes no more octets than its digits do. -/
theorem length_of_readUnicode {text rest : Octets} {c : Char}
    (h : readUnicode text = .ok (c, rest)) : rest.length + 4 ≤ text.length := by
  simp only [readUnicode, MessagePack.bind_eq_ok_iff, Prod.exists] at h
  obtain ⟨n, behind, hn, h⟩ := h
  have hfour := length_of_readHex hn
  split at h
  · cases h
  split at h
  · simp only [MessagePack.bind_eq_ok_iff, Prod.exists] at h
    obtain ⟨after, hslash, after', hletter, m, last, hm, h⟩ := h
    have hone := length_of_expectInPair hslash
    have htwo := length_of_expectInPair hletter
    have hagain := length_of_readHex hm
    split at h
    · simp only [MessagePack.pure_eq_ok_iff, Prod.mk.injEq] at h
      obtain ⟨-, rfl⟩ := h
      omega
    · cases h
  · simp only [MessagePack.pure_eq_ok_iff, Prod.mk.injEq] at h
    obtain ⟨-, rfl⟩ := h
    omega

theorem length_of_readEscape {text rest : Octets} {c : Char} (h : readEscape text = .ok (c, rest)) :
    (String.utf8EncodeChar c).length + rest.length ≤ text.length := by
  rw [readEscape.eq_def] at h
  split at h
  · cases h
  next b behind =>
  split at h
  -- the character is given by its number
  case h_9 =>
    have hle := Utf8.length_utf8EncodeChar_le c
    have hread := length_of_readUnicode h
    rw [List.length_cons]
    omega
  case h_10 => cases h
  all_goals
    cases h
    exact Nat.le_of_eq (Nat.add_comm ..)

/-- A string has at most three octets for each that has been read: the reader may have to replace
single octets that are no characters. -/
theorem readStringFrom_leaves {size : ℕ} (fuel : ℕ) (text read : Octets)
    (hsize : read.length + text.length ≤ size) :
    Leaves (fun s => (Utf8.ofString s).length ≤ 3 * size) (text.length - 1)
      (readStringFrom fuel text read) := by
  induction fuel generalizing text read with
  | zero => exact .error _
  | succ fuel ih =>
    cases text with
    | nil => exact .error _
    | cons b rest =>
      rw [List.length_cons] at hsize
      rw [readStringFrom, List.length_cons, Nat.add_sub_cancel]
      split
      · refine .ok ?_ (Nat.le_refl _)
        have hlossy := Utf8.length_decodeLossy_le read.reverse
        rw [List.length_reverse] at hlossy
        rw [Utf8.ofString, String.toList_ofList]
        omega
      split
      · split
        · exact .error _
        · next c after hc =>
          have hescape := length_of_readEscape hc
          refine (ih after _ ?_).mono (by omega)
          rw [List.reverseAux_eq, List.length_append, List.length_reverse]
          omega
      split
      · exact .error _
      · refine (ih rest (b :: read) ?_).mono (by omega)
        rw [List.length_cons]
        omega

theorem readString_leaves (size : ℕ) (text : Octets) (hsize : text.length ≤ size) :
    Leaves (fun s => (Utf8.ofString s).length ≤ 3 * size) (text.length - 1) (readString text) :=
  readStringFrom_leaves _ text [] (by simpa using hsize)

/-! ### Values -/

theorem length_skipBlanks_le (text : Octets) : (skipBlanks text).length ≤ text.length := by
  induction text with
  | nil => exact Nat.le_refl _
  | cons b rest ih =>
    rw [skipBlanks]
    split
    · exact Nat.le_succ_of_le ih
    · exact Nat.le_refl _

theorem readLiteral_leaves {size depth : ℕ} {v : Json} (hv : Proper size depth v)
    (expected : List UInt8) (text : Octets) :
    Leaves (Proper size depth) text.length (readLiteral v expected text) := by
  induction expected generalizing text with
  | nil => exact .ok hv (Nat.le_refl _)
  | cons a more ih =>
    cases text with
    | nil => exact .error _
    | cons b rest =>
      rw [readLiteral]
      split
      · exact (ih rest).mono (Nat.le_succ _)
      · exact .error _

theorem ofNumeric_leaves {size : ℕ} {r : Except Fault (Numeric × Octets)} (limit depth : ℕ)
    (h : Leaves Numeric.Bounded size r) : Leaves (Proper limit depth) size (r.map ofNumeric) := by
  refine h.map fun x rest hx => ?_
  cases x with
  | int i => exact ⟨_, rfl, .int i⟩
  | float b => exact ⟨_, rfl, proper_ofFloat hx limit depth⟩

/-- A reader of proper values that takes at least one octet. -/
def ReadsProper (size depth : ℕ) (read : ValueReader) : Prop :=
  ∀ text : Octets, text.length ≤ size →
    Leaves (Proper (3 * size) depth) (text.length - 1) (read text)

section

variable {size depth : ℕ} {read : ValueReader}

/-- Each item takes an octet, so there are no more of them than the text has octets. -/
theorem readItems_leaves (hread : ReadsProper size depth read) (fuel : ℕ) (text : Octets)
    (items : List Json) (hsize : items.length + text.length ≤ size)
    (hitems : ∀ v ∈ items, Proper (3 * size) depth v) :
    Leaves (Proper (3 * size) (depth + 1)) (text.length - 1) (readItems read fuel text items) := by
  induction fuel generalizing text items with
  | zero => exact .error _
  | succ fuel ih =>
    have hblanks := length_skipBlanks_le text
    rw [readItems]
    split
    · exact .error _
    · next rest heq =>
      rw [heq, List.length_cons] at hblanks
      refine .ok (.array ?_ fun v hv => hitems v (List.mem_reverse.mp hv)) (by omega)
      rw [List.length_reverse]
      omega
    · next b rest _ heq =>
      rw [heq, List.length_cons] at hblanks
      dsimp only
      split
      · exact .error _
      next after hafter =>
      -- the first item stands where the text begins, all others behind a comma
      have hitem : after.length ≤ rest.length + 1 := by
        have hmore := length_skipBlanks_le rest
        split at hafter
        · cases hafter
          exact Nat.le_refl _
        split at hafter
        · split at hafter
          · cases hafter
          · cases hafter
          · cases hafter
            omega
        · cases hafter
      have hv := hread after (by omega)
      generalize read after = r at hv
      cases hv with
      | error e => exact .error _
      | @ok v behind hv hlength =>
        refine (ih behind (v :: items) ?_ ?_).mono (by omega)
        · rw [List.length_cons]
          omega
        · exact List.forall_mem_cons.mpr ⟨hv, hitems⟩

theorem length_of_readColon {text rest : Octets} (h : readColon text = .ok rest) :
    rest.length ≤ text.length := by
  have hblanks := length_skipBlanks_le text
  rw [readColon] at h
  split at h
  · cases h
  · next heq =>
    cases h
    rw [heq, List.length_cons] at hblanks
    omega
  · cases h

/-- Members are set one after the other, so they stay sorted. -/
theorem readMembers_leaves (hread : ReadsProper size depth read) (fuel : ℕ) (first : Bool)
    (text : Octets) (members : List (String × Json))
    (hsize : members.length + text.length ≤ size) (hsorted : IsSorted members)
    (hnames : ∀ m ∈ members, (Utf8.ofString m.1).length ≤ 3 * size)
    (hmembers : ∀ m ∈ members, Proper (3 * size) depth m.2) :
    Leaves (Proper (3 * size) (depth + 1)) (text.length - 1)
      (readMembers read fuel first text members) := by
  induction fuel generalizing first text members with
  | zero => exact .error _
  | succ fuel ih =>
    have hblanks := length_skipBlanks_le text
    rw [readMembers]
    split
    · exact .error _
    · next rest heq =>
      rw [heq, List.length_cons] at hblanks
      exact .ok (.object (by omega) hsorted hnames hmembers) (by omega)
    · next b rest _ heq =>
      rw [heq, List.length_cons] at hblanks
      dsimp only
      split
      · exact .error _
      next after hafter =>
      -- all names but the first stand behind a comma, and each behind its quote
      have hkey : after.length ≤ rest.length := by
        have hmore := length_skipBlanks_le rest
        split at hafter
        · split at hafter <;> cases hafter
          exact Nat.le_refl _
        split at hafter
        · split at hafter
          · cases hafter
          · next heq' =>
            cases hafter
            rw [heq', List.length_cons] at hmore
            omega
          · cases hafter
          · cases hafter
        · cases hafter
      have hname := readString_leaves size after (by omega)
      generalize readString after = r at hname
      cases hname with
      | error e => exact .error _
      | @ok name behind hname hbehind =>
        dsimp only
        split
        · exact .error _
        next start hcolon =>
        have hstart := length_of_readColon hcolon
        have hv := hread start (by omega)
        generalize read start = r at hv
        cases hv with
        | error e => exact .error _
        | @ok v last hv hlast =>
          have hlength := length_putMember_le name v members
          exact (ih false last _ (by omega) (isSorted_putMember hsorted)
            (forall_putMember hname hnames) (forall_putMember hv hmembers)).mono (by omega)

end

/-- What a value is like follows from what its items or members are like. -/
theorem readValue_step {size depth : ℕ}
    (hinner : ∀ inner, depth = inner + 2 → ReadsProper size inner (readValue (inner + 1))) :
    ReadsProper size (depth - 1) (readValue depth) := by
  intro text hsize
  have hblanks := length_skipBlanks_le text
  rw [readValue]
  split
  · exact .error _
  next b rest heq =>
  rw [heq, List.length_cons] at hblanks
  split
  · exact (readLiteral_leaves .null ..).mono (by omega)
  · exact (readLiteral_leaves (.bool true) ..).mono (by omega)
  · exact (readLiteral_leaves (.bool false) ..).mono (by omega)
  · exact (ofNumeric_leaves _ _ (readNumber_leaves ..)).mono (by omega)
  · refine ((readString_leaves size rest (by omega)).map ?_).mono (by omega)
    intro s rest hs
    exact ⟨_, rfl, .string hs⟩
  · split
    · next inner =>
      exact (readItems_leaves (hinner inner rfl) _ _ [] (by simp; omega) (by simp)).mono (by omega)
    · exact .error _
  · split
    · next inner =>
      exact (readMembers_leaves (hinner inner rfl) _ _ _ [] (by simp; omega) .nil (by simp)
        (by simp)).mono (by omega)
    · exact .error _
  · split
    · refine (ofNumeric_leaves _ _ (readNumber_leaves ..)).mono ?_
      rw [List.length_cons]
      omega
    · exact .error _

/-- Every value that is read is proper.  One level less nests in it than the reader may go. -/
theorem readValue_leaves (size depth : ℕ) : ReadsProper size (depth - 1) (readValue depth) := by
  induction depth with
  | zero => exact readValue_step nofun
  | succ depth ih =>
    refine readValue_step fun inner h => ?_
    obtain rfl : depth = inner + 1 := Nat.succ.inj h
    exact ih

/-- The value of a whole text is proper. -/
theorem proper_of_parse {text : String} {v : Json} (h : parse text = .ok v) :
    Proper (3 * (Utf8.ofString text).length) 127 v := by
  have hv := readValue_leaves _ maxDepth (Utf8.ofString text) (Nat.le_refl _)
  simp only [parse, readWhole] at h
  generalize readValue maxDepth (Utf8.ofString text) = r at h hv
  cases hv with
  | error f => cases h
  | @ok v' rest hv _ =>
    dsimp only [bind, Except.bind] at h
    split at h
    · cases h
      exact hv
    · cases h

end Switchboard.Json
