import Mathlib.Logic.Relation
import Switchboard.Fault
import Switchboard.Proofs.Forwarding

/-!
# Reading headers

Of the entries of a map only the last one with each known key counts for the header, and it counts
even when its value is of no use.  Entries with other keys may stand anywhere, and entries with
different keys in any order, so later versions can add to the map.

## Main definitions

- `Header.read` — the header of a value, or the fault of the connection that received it
- `Header.LastEntry` — the last entry with a key
- `Header.Says` — what the last entries say of a header
- `Header.withKey` — the entries with a key, in their order
- `Header.Shifts` — an unknown entry comes in, or two neighbours change places

## Main statements

- `Header.lastWord_eq_some_iff` — the word that is found belongs to the last entry
- `Header.read_eq_ok_iff`, `Header.exists_read_eq_ok_iff` — which values are headers
- `Header.read_map_congr` — the order counts among entries with one key only
- `Header.last_entries_count` — all of these, and a header comes back from its map
-/

namespace Switchboard

/-- The fault that a value amounts to which should be a header and is none. -/
def Fault.ofHeader (fault : Wire.HeaderFault) : Fault :=
  .framing fault.message

namespace Wire.Header

open MessagePack

variable {entries entries' : List (Value × Value)} {key : UInt64} {v : Value} {h : Header}

/-- The header of a value that has been received. -/
def read (v : Value) : Except Fault Header :=
  (ofValue v).mapError .ofHeader

/-- The keys that a header goes by. -/
def known : List UInt64 :=
  [Key.code, Key.sync, Key.schema]

/-! ### The last entry with a key -/

/-- The value stands in the last entry whose key is this number. -/
def LastEntry (entries : List (Value × Value)) (key : UInt64) (v : Value) : Prop :=
  ∃ before after, entries = before ++ (.ofWord key, v) :: after ∧ ∀ e ∈ after, e.1 ≠ .ofWord key

theorem word?_eq_some_iff {k : Value} : k.word? = some key ↔ k = .ofWord key :=
  ⟨eq_ofWord_of_word?, fun heq => heq ▸ Value.word?_ofWord key⟩

theorem lastWord_append (entries entries' : List (Value × Value)) (found : Option UInt64) :
    lastWord key (entries ++ entries') found =
      lastWord key entries' (lastWord key entries found) := by
  induction entries generalizing found with
  | nil => rfl
  | cons e entries ih => exact ih _

theorem lastWord_of_forall_ne (hne : ∀ e ∈ entries, e.1 ≠ .ofWord key) (found : Option UInt64) :
    lastWord key entries found = found := by
  induction entries with
  | nil => rfl
  | cons e entries ih =>
    have hkey : e.1.word? ≠ some key := word?_eq_some_iff.not.mpr (hne e List.mem_cons_self)
    rw [lastWord, if_neg hkey]
    exact ih fun e' he' => hne e' (List.mem_cons_of_mem _ he')

/-- The value of the last entry is what is found, of use or not. -/
theorem LastEntry.lastWord_eq (hlast : LastEntry entries key v) (found : Option UInt64) :
    lastWord key entries found = v.word? := by
  obtain ⟨before, after, rfl, hafter⟩ := hlast
  rw [lastWord_append, lastWord, if_pos (Value.word?_ofWord key), lastWord_of_forall_ne hafter]

theorem exists_lastEntry (entries : List (Value × Value)) (key : UInt64) :
    (∃ v, LastEntry entries key v) ∨ ∀ e ∈ entries, e.1 ≠ .ofWord key := by
  induction entries with
  | nil => exact .inr nofun
  | cons e entries ih =>
    rcases ih with ⟨v, before, after, rfl, hafter⟩ | hnone
    · exact .inl ⟨v, e :: before, after, rfl, hafter⟩
    · by_cases hkey : e.1 = .ofWord key
      · exact .inl ⟨e.2, [], entries, hkey ▸ rfl, hnone⟩
      · exact .inr (List.forall_mem_cons.mpr ⟨hkey, hnone⟩)

/-- A word is found exactly if it is the value of the last entry. -/
theorem lastWord_eq_some_iff {n : UInt64} :
    lastWord key entries none = some n ↔ LastEntry entries key (.ofWord n) := by
  constructor
  · intro hfound
    rcases exists_lastEntry entries key with ⟨v, hlast⟩ | hnone
    · rw [hlast.lastWord_eq] at hfound
      exact word?_eq_some_iff.mp hfound ▸ hlast
    · rw [lastWord_of_forall_ne hnone] at hfound
      cases hfound
  · intro hlast
    rw [hlast.lastWord_eq, Value.word?_ofWord]

/-! ### Which values are headers -/

/-- What the last entries say of a header: its code and its sync id are numbers, the code one of 32
bits; the schema version is there exactly if it is a number too. -/
structure Says (entries : List (Value × Value)) (h : Header) : Prop where
  code : ∃ raw : UInt32, LastEntry entries Key.code (.ofWord raw.toUInt64) ∧ h.code = .ofRaw raw
  sync : LastEntry entries Key.sync (.ofWord h.sync)
  schema : ∀ n, h.schema = some n ↔ LastEntry entries Key.schema (.ofWord n)

theorem read_eq_ok : read v = .ok h ↔ ofValue v = .ok h := by
  rw [read]
  cases ofValue v with
  | error fault => exact ⟨nofun, nofun⟩
  | ok h' => simp only [Except.mapError, Except.ok.injEq]

/-- Failing to read a header is a fault of framing. -/
theorem exists_framing_of_read {fault : Fault} (hread : read v = .error fault) :
    ∃ cause : HeaderFault, fault = .framing cause.message := by
  rw [read] at hread
  cases hcause : ofValue v with
  | ok h' =>
    rw [hcause] at hread
    cases hread
  | error cause =>
    rw [hcause] at hread
    cases hread
    exact ⟨cause, rfl⟩

theorem schema_eq_iff : (∀ n, h.schema = some n ↔ LastEntry entries Key.schema (.ofWord n)) ↔
    lastWord Key.schema entries none = h.schema := by
  simp only [← lastWord_eq_some_iff]
  constructor
  · intro hschema
    exact Option.ext fun n => (hschema n).symm
  · intro heq n
    rw [heq]

theorem ofEntries_eq_ok_iff_says : ofEntries entries = .ok h ↔ Says entries h := by
  rw [ofEntries_eq_ok_iff]
  constructor
  · rintro ⟨code, hcode, hlt, hsync, hraw, hschema⟩
    have hword : code.toUInt32.toUInt64 = code := by
      apply UInt64.toNat_inj.mp
      rw [UInt32.toNat_toUInt64, UInt64.toNat_toUInt32]
      exact Nat.mod_eq_of_lt hlt
    exact ⟨⟨code.toUInt32, hword.symm ▸ lastWord_eq_some_iff.mp hcode, hraw⟩,
      lastWord_eq_some_iff.mp hsync, schema_eq_iff.mpr hschema⟩
  · rintro ⟨⟨raw, hcode, hraw⟩, hsync, hschema⟩
    refine ⟨raw.toUInt64, lastWord_eq_some_iff.mpr hcode, ?_, lastWord_eq_some_iff.mpr hsync, ?_,
      schema_eq_iff.mp hschema⟩
    · rw [UInt32.toNat_toUInt64]
      exact raw.toNat_lt
    · rw [hraw, UInt32.toUInt32_toUInt64]

/-- A header is read exactly from the maps whose last entries say it. -/
theorem read_eq_ok_iff : read v = .ok h ↔ ∃ entries, v = .map entries ∧ Says entries h := by
  rw [read_eq_ok]
  cases v with
  | map entries =>
    rw [ofValue, ofEntries_eq_ok_iff_says]
    constructor
    · intro hsays
      exact ⟨entries, rfl, hsays⟩
    · rintro ⟨_, heq, hsays⟩
      cases heq
      exact hsays
  | _ =>
    constructor
    · intro hread
      cases hread
    · rintro ⟨_, heq, -⟩
      cases heq

/-- Whether there is a header is up to the code and the sync id. -/
theorem exists_read_eq_ok_iff : (∃ h, read v = .ok h) ↔ ∃ entries, v = .map entries ∧
    (∃ raw : UInt32, LastEntry entries Key.code (.ofWord raw.toUInt64)) ∧
    ∃ sync, LastEntry entries Key.sync (.ofWord sync) := by
  simp only [read_eq_ok_iff]
  constructor
  · rintro ⟨h, entries, rfl, ⟨raw, hcode, -⟩, hsync, -⟩
    exact ⟨entries, rfl, ⟨raw, hcode⟩, h.sync, hsync⟩
  · rintro ⟨entries, rfl, ⟨raw, hcode⟩, sync, hsync⟩
    exact ⟨⟨sync, .ofRaw raw, lastWord Key.schema entries none⟩, entries, rfl, ⟨raw, hcode, rfl⟩,
      hsync, schema_eq_iff.mpr rfl⟩

/-! ### What does not count -/

/-- The entries with the key, in their order. -/
def withKey (key : UInt64) (entries : List (Value × Value)) : List (Value × Value) :=
  entries.filter fun e => e.1.word? = some key

/-- One change that does not count: an entry with an unknown key comes in somewhere, or two
neighbours with different keys change places. -/
inductive Shifts : List (Value × Value) → List (Value × Value) → Prop
  | insert (before after : List (Value × Value)) {e : Value × Value}
    (unknown : ∀ key ∈ known, e.1 ≠ .ofWord key) : Shifts (before ++ after) (before ++ e :: after)
  | swap (before after : List (Value × Value)) {e e' : Value × Value} (different : e.1 ≠ e'.1) :
    Shifts (before ++ e :: e' :: after) (before ++ e' :: e :: after)

theorem withKey_cons_of_eq {e : Value × Value} (heq : e.1 = .ofWord key) :
    withKey key (e :: entries) = e :: withKey key entries := by
  rw [withKey, List.filter_cons_of_pos (by simpa using word?_eq_some_iff.mpr heq), withKey]

theorem withKey_cons_of_ne {e : Value × Value} (hne : e.1 ≠ .ofWord key) :
    withKey key (e :: entries) = withKey key entries := by
  rw [withKey, List.filter_cons_of_neg (by simpa using word?_eq_some_iff.not.mpr hne), withKey]

theorem withKey_append (before after : List (Value × Value)) :
    withKey key (before ++ after) = withKey key before ++ withKey key after :=
  List.filter_append ..

theorem Shifts.withKey_eq (hshifts : Shifts entries entries') (hkey : key ∈ known) :
    withKey key entries = withKey key entries' := by
  cases hshifts with
  | insert before after unknown =>
    rw [withKey_append, withKey_append, withKey_cons_of_ne (unknown key hkey)]
  | @swap before after e e' different =>
    rw [withKey_append, withKey_append]
    congr 1
    -- the key is that of one of the two at most
    by_cases he : e.1 = .ofWord key
    · have he' : e'.1 ≠ .ofWord key := fun heq => different (he.trans heq.symm)
      rw [withKey_cons_of_eq he, withKey_cons_of_ne he', withKey_cons_of_ne he',
        withKey_cons_of_eq he]
    · rw [withKey_cons_of_ne he]
      by_cases he' : e'.1 = .ofWord key
      · rw [withKey_cons_of_eq he', withKey_cons_of_eq he', withKey_cons_of_ne he]
      · rw [withKey_cons_of_ne he', withKey_cons_of_ne he', withKey_cons_of_ne he]

/-- Entries with another key do not change what is found. -/
theorem lastWord_withKey (entries : List (Value × Value)) (found : Option UInt64) :
    lastWord key (withKey key entries) found = lastWord key entries found := by
  induction entries generalizing found with
  | nil => rfl
  | cons e entries ih =>
    by_cases hkey : e.1 = .ofWord key
    · rw [withKey_cons_of_eq hkey, lastWord, lastWord]
      exact ih _
    · have hword : e.1.word? ≠ some key := word?_eq_some_iff.not.mpr hkey
      rw [withKey_cons_of_ne hkey, ih, lastWord, if_neg hword]

/-- Only the order among the entries with one key counts, and only for the known keys. -/
theorem read_map_congr (heq : ∀ key ∈ known, withKey key entries = withKey key entries') :
    read (.map entries) = read (.map entries') := by
  have hword : ∀ key ∈ known, lastWord key entries none = lastWord key entries' none := by
    intro key hkey
    rw [← lastWord_withKey, heq key hkey, lastWord_withKey]
  have hentries : ofEntries entries = ofEntries entries' := by
    simp only [ofEntries, hword Key.code (.head _), hword Key.sync (.tail _ (.head _)),
      hword Key.schema (.tail _ (.tail _ (.head _)))]
  rw [read, read, ofValue, ofValue, hentries]

theorem read_map_eq_of_shifts (hshifts : Relation.EqvGen Shifts entries entries') :
    read (.map entries) = read (.map entries') := by
  induction hshifts with
  | rel _ _ hshift => exact read_map_congr fun key hkey => hshift.withKey_eq hkey
  | refl => rfl
  | symm _ _ _ ih => exact ih.symm
  | trans _ _ _ _ _ ih ih' => exact ih.trans ih'

/-- A value is a header exactly if it is a map whose last entry with the key of the code holds a
number of at most 32 bits, and whose last entry with the key of the sync id holds a number.  These
are the code and the sync id then, and the schema version is that of the last entry with its key, if
it is a number.  Any other value is a fault of framing.

Entries with other keys do not count, nor does the order of entries with different keys.  A header
comes back from its map, with the canonical one of the codes that have the same number. -/
theorem last_entries_count :
    (∀ v, (∃ h, read v = .ok h) ↔ ∃ entries, v = .map entries ∧
      (∃ raw : UInt32, LastEntry entries Key.code (.ofWord raw.toUInt64)) ∧
      ∃ sync, LastEntry entries Key.sync (.ofWord sync)) ∧
    (∀ v h, read v = .ok h ↔ ∃ entries, v = .map entries ∧ Says entries h) ∧
    (∀ v fault, read v = .error fault → ∃ detail, fault = .framing detail) ∧
    (∀ entries entries', (∀ key ∈ known, withKey key entries = withKey key entries') →
      read (.map entries) = read (.map entries')) ∧
    (∀ entries entries', Relation.EqvGen Shifts entries entries' →
      read (.map entries) = read (.map entries')) ∧
    ∀ h : Header, read h.toValue = .ok h.canonical ∧ h.canonical.code.IsCanonical ∧
      h.canonical.code.toRaw = h.code.toRaw := by
  refine ⟨fun v => exists_read_eq_ok_iff, fun v h => read_eq_ok_iff, fun v fault hread => ?_,
    fun entries entries' => read_map_congr, fun entries entries' => read_map_eq_of_shifts,
    fun h => ⟨read_eq_ok.mpr (ofValue_toValue h), Code.isCanonical_ofRaw _, Code.toRaw_ofRaw _⟩⟩
  obtain ⟨cause, rfl⟩ := exists_framing_of_read hread
  exact ⟨cause.message, rfl⟩

/-- The first code is of no use and the last one is; with the schema version it is the other way
round. -/
def repeatedKeys : List (Value × Value) :=
  [(.ofWord Key.code, .bool true), (.ofWord Key.sync, .ofWord 7), (.ofWord Key.schema, .ofWord 3),
    (.ofWord Key.code, .ofWord 10), (.ofWord Key.schema, .nil)]

/-- A header under repeated keys, the same with an unknown entry and two entries exchanged, and none
after a sync id that is of no use. -/
theorem last_entries_count_repeated :
    read (.map repeatedKeys) = .ok ⟨7, .request .call, none⟩ ∧
      read (.map ((.ofWord Key.sync, .ofWord 7) :: (.ofWord Key.code, .bool true) ::
        (.nil, .ofWord 9) :: repeatedKeys.drop 2)) = .ok ⟨7, .request .call, none⟩ ∧
      read (.map ((.nil, .ofWord 9) :: repeatedKeys)) = .ok ⟨7, .request .call, none⟩ ∧
      ∃ fault, read (.map (repeatedKeys ++ [(.ofWord Key.sync, .nil)])) = .error fault ∧
        ∃ detail, fault = .framing detail := by
  obtain ⟨-, hread, hfault, hcongr, hshifts, -⟩ := last_entries_count
  have hcode : LastEntry repeatedKeys Key.code (.ofWord 10) := lastWord_eq_some_iff.mp rfl
  have hsync : LastEntry repeatedKeys Key.sync (.ofWord 7) := lastWord_eq_some_iff.mp rfl
  have hheader : read (.map repeatedKeys) = .ok ⟨7, .request .call, none⟩ :=
    (hread _ _).mpr ⟨_, rfl, ⟨10, hcode, rfl⟩, hsync, schema_eq_iff.mpr rfl⟩
  have hnone : read (.map (repeatedKeys ++ [(.ofWord Key.sync, .nil)])) =
      .error (.ofHeader .noSync) := rfl
  have hunknown : ∀ key ∈ known, Value.nil ≠ .ofWord key := fun _ _ => nofun
  have hdifferent : Value.ofWord Key.code ≠ .ofWord Key.sync := fun heq =>
    absurd (congrArg Value.word? heq) (by decide)
  have hswap : Shifts repeatedKeys ((.ofWord Key.sync, .ofWord 7) ::
      (.ofWord Key.code, .bool true) :: repeatedKeys.drop 2) := .swap [] _ hdifferent
  have hinsert := Shifts.insert [(.ofWord Key.sync, .ofWord 7), (.ofWord Key.code, .bool true)]
    (repeatedKeys.drop 2) (e := (.nil, .ofWord 9)) hunknown
  refine ⟨hheader, ?_, ?_, _, hnone, hfault _ _ hnone⟩
  · rw [← hheader]
    exact (hshifts _ _ (.trans _ _ _ (.rel _ _ hswap) (.rel _ _ hinsert))).symm
  · rw [← hheader]
    exact (hcongr _ _ fun key hkey => (Shifts.insert [] repeatedKeys hunknown).withKey_eq hkey).symm

end Wire.Header

end Switchboard
