import Mathlib.Data.List.Basic
import Switchboard.Proofs.Addresses

/-!
# Lists of node records

Discovery reads the addresses of the nodes in service from a list of records.  The list comes in
several forms, and a record may be any value.  What is read depends only on the records of nodes in
service, each by itself: the form and the order of the list and the other records do not matter.

## Main definitions

- `Topology.FirstEntry` — the first entry of a record with a name
- `Topology.InService` — the record is one of a node in service
- `Topology.Names` — the server that a place names
- `Topology.Reaches` — the record gives the address of a node in service
- `Topology.Presents` — the forms of a list of records

## Main statements

- `Topology.presents_iff` — these are all forms
- `Topology.parseNodes_eq_ok_iff` — what is read from a list of records
- `Topology.parseNodes_of_presents` — when it can be read, and on what it depends
-/

namespace Switchboard

namespace Topology

open MessagePack

variable {name : String} {record v : Value} {uri server : List Char} {a : Address}
  {records : List Value} {data : Value} {set : List Address}

/-! ### One record -/

/-- The first entry of the record with the name has the value `v`. -/
def FirstEntry (name : String) (record v : Value) : Prop :=
  ∃ before key after, record = .map (before ++ (key, v) :: after) ∧
    key.text? = some name.toList ∧ ∀ e ∈ before, e.1.text? ≠ some name.toList

theorem field_eq_some_iff : field name record = some v ↔ FirstEntry name record v := by
  cases record with
  | map entries =>
    rw [field, Option.map_eq_some_iff]
    constructor
    · rintro ⟨⟨key, v'⟩, hfound, rfl⟩
      obtain ⟨hkey, before, after, rfl, hbefore⟩ := List.find?_eq_some_iff_append.mp hfound
      exact ⟨before, key, after, rfl, by simpa using hkey, by simpa using hbefore⟩
    · rintro ⟨before, key, after, heq, hkey, hbefore⟩
      cases heq
      exact ⟨(key, v), List.find?_eq_some_iff_append.mpr
        ⟨by simpa using hkey, before, after, rfl, by simpa using hbefore⟩, rfl⟩
  | _ =>
    refine ⟨fun h => ?_, fun ⟨_, _, _, h, _⟩ => ?_⟩ <;> cases h

/-- The record is one of a node in service at the place: a map whose first entries with the names
`uri` and `status` are text, the second of them one of the statuses of nodes in service. -/
def InService (record : Value) (uri : List Char) : Prop :=
  ∃ place status, FirstEntry "uri" record place ∧ place.text? = some uri ∧
    FirstEntry "status" record status ∧
      (status.text? = some "available".toList ∨ status.text? = some "healthy".toList)

theorem bind_text?_eq_some_iff {text : List Char} :
    (field name record).bind Value.text? = some text ↔
      ∃ v, FirstEntry name record v ∧ v.text? = some text := by
  simp only [Option.bind_eq_some_iff, field_eq_some_iff]

theorem healthyUri?_eq_some_iff : healthyUri? record = some uri ↔ InService record uri := by
  have hparts : healthyUri? record = some uri ↔
      (field "uri" record).bind Value.text? = some uri ∧
        ∃ status ∈ healthyStatuses, (field "status" record).bind Value.text? = some status := by
    rw [healthyUri?]
    cases (field "uri" record).bind Value.text? with
    | none => simp
    | some text => cases (field "status" record).bind Value.text? <;> simp [and_comm]
  simp only [hparts, bind_text?_eq_some_iff, healthyStatuses, List.mem_cons, List.not_mem_nil,
    or_false]
  constructor
  · rintro ⟨⟨place, hplace, huri⟩, text, htext, status, hstatus, heq⟩
    exact ⟨place, status, hplace, huri, hstatus, htext.imp (heq.trans <| congrArg some ·)
      (heq.trans <| congrArg some ·)⟩
  · rintro ⟨place, status, hplace, huri, hstatus, htext | htext⟩
    · exact ⟨⟨place, hplace, huri⟩, _, .inl rfl, status, hstatus, htext⟩
    · exact ⟨⟨place, hplace, huri⟩, _, .inr rfl, status, hstatus, htext⟩

/-- The place names the server: what follows the last `@`, or all of it if there is none. -/
def Names (uri server : List Char) : Prop :=
  (∃ credentials, uri = credentials ++ '@' :: server ∧ '@' ∉ server) ∨ '@' ∉ uri ∧ server = uri

theorem hostPort_eq_iff : hostPort uri = server ↔ Names uri server := by
  rw [hostPort]
  cases hcut : Text.cutLast? '@' uri with
  | none =>
    have hfree := Text.cutLast?_eq_none_iff.mp hcut
    constructor
    · rintro rfl
      exact .inr ⟨hfree, rfl⟩
    · rintro (⟨credentials, rfl, -⟩ | ⟨-, rfl⟩)
      · simp at hfree
      · rfl
  | some cut =>
    obtain ⟨credentials, rest⟩ := cut
    obtain ⟨huri, hrest⟩ := Text.cutLast?_eq_some_iff.mp hcut
    constructor
    · rintro rfl
      exact .inl ⟨credentials, huri, hrest⟩
    · rintro (⟨credentials', huri', hserver⟩ | ⟨hfree, -⟩)
      · have hcut' := Text.cutLast?_eq_some_iff.mpr ⟨huri', hserver⟩
        rw [hcut] at hcut'
        cases hcut'
        rfl
      · simp [huri] at hfree

/-- The record is one of a node in service with the address. -/
def Reaches (record : Value) (a : Address) : Prop :=
  ∃ uri server, InService record uri ∧ Names uri server ∧
    Address.parse (String.ofList server) = .ok a

theorem reaches_iff : Reaches record a ↔
    ∃ uri, healthyUri? record = some uri ∧
      Address.parse (String.ofList (hostPort uri)) = .ok a := by
  simp only [Reaches, ← healthyUri?_eq_some_iff, ← hostPort_eq_iff]
  constructor
  · rintro ⟨uri, _, huri, rfl, ha⟩
    exact ⟨uri, huri, ha⟩
  · rintro ⟨uri, huri, ha⟩
    exact ⟨uri, _, huri, rfl, ha⟩

theorem Reaches.inService (h : Reaches record a) : ∃ uri, InService record uri := by
  obtain ⟨uri, _, hservice, -⟩ := h
  exact ⟨uri, hservice⟩

/-- A record gives at most one address. -/
theorem Reaches.unique {b : Address} (ha : Reaches record a) (hb : Reaches record b) : a = b := by
  obtain ⟨uri, huri, hparsed⟩ := reaches_iff.mp ha
  obtain ⟨uri', huri', hparsed'⟩ := reaches_iff.mp hb
  rw [huri] at huri'
  cases huri'
  rw [hparsed] at hparsed'
  exact Except.ok.inj hparsed'

/-- Whether a record of a node in service gives an address depends on its place alone. -/
theorem InService.exists_reaches_iff (h : InService record uri) :
    (∃ a, Reaches record a) ↔
      ∃ server a, Names uri server ∧ Address.parse (String.ofList server) = .ok a := by
  constructor
  · rintro ⟨a, uri', server, huri', hnames, hparsed⟩
    have heq := (healthyUri?_eq_some_iff.mpr h).symm.trans (healthyUri?_eq_some_iff.mpr huri')
    cases heq
    exact ⟨server, a, hnames, hparsed⟩
  · rintro ⟨server, a, hnames, hparsed⟩
    exact ⟨a, uri, server, h, hnames, hparsed⟩

/-! ### Many records -/

/-- Each record is read by itself. -/
theorem healthyAddresses_cons_eq_ok_iff {rest : List Value} {l : List Address} :
    healthyAddresses (record :: rest) = .ok l ↔
      ∃ own others, healthyAddresses [record] = .ok own ∧ healthyAddresses rest = .ok others ∧
        l = own ++ others := by
  simp only [healthyAddresses]
  cases healthyUri? record with
  | none => simp
  | some uri =>
    cases hparsed : Address.parse (String.ofList (hostPort uri)) with
    | error fault => simp [hparsed]
    | ok a => cases healthyAddresses rest <;> simp [hparsed, Except.map, eq_comm]

theorem healthyAddresses_singleton_eq_ok_iff {own : List Address} :
    healthyAddresses [record] = .ok own ↔
      (∀ uri, ¬InService record uri) ∧ own = [] ∨ ∃ a, Reaches record a ∧ own = [a] := by
  simp only [healthyAddresses, ← healthyUri?_eq_some_iff, reaches_iff]
  cases healthyUri? record with
  | none => simp [eq_comm]
  | some uri =>
    cases hparsed : Address.parse (String.ofList (hostPort uri)) with
    | error fault => simp [hparsed]
    | ok a => simp [hparsed, Except.map, eq_comm]

/-- Records can be read if each one of a node in service gives an address. -/
theorem exists_healthyAddresses_iff :
    (∃ l, healthyAddresses records = .ok l) ↔
      ∀ record ∈ records, ∀ uri, InService record uri → ∃ a, Reaches record a := by
  induction records with
  | nil => simp [healthyAddresses]
  | cons record records ih =>
    have hone : (∃ own, healthyAddresses [record] = .ok own) ↔
        ∀ uri, InService record uri → ∃ a, Reaches record a := by
      simp only [healthyAddresses_singleton_eq_ok_iff]
      constructor
      · rintro ⟨own, ⟨hnone, -⟩ | ⟨a, ha, -⟩⟩ uri huri
        · exact absurd huri (hnone uri)
        · exact ⟨a, ha⟩
      · intro h
        by_cases hservice : ∃ uri, InService record uri
        · obtain ⟨uri, huri⟩ := hservice
          obtain ⟨a, ha⟩ := h uri huri
          exact ⟨[a], .inr ⟨a, ha, rfl⟩⟩
        · exact ⟨[], .inl ⟨not_exists.mp hservice, rfl⟩⟩
    rw [List.forall_mem_cons, ← hone, ← ih]
    constructor
    · rintro ⟨l, hl⟩
      obtain ⟨own, others, hown, hothers, -⟩ := healthyAddresses_cons_eq_ok_iff.mp hl
      exact ⟨⟨own, hown⟩, others, hothers⟩
    · rintro ⟨⟨own, hown⟩, others, hothers⟩
      exact ⟨_, healthyAddresses_cons_eq_ok_iff.mpr ⟨own, others, hown, hothers, rfl⟩⟩

/-- What is read from records are the addresses that they give. -/
theorem mem_healthyAddresses {l : List Address} (h : healthyAddresses records = .ok l) :
    a ∈ l ↔ ∃ record ∈ records, Reaches record a := by
  induction records generalizing l with
  | nil =>
    cases h
    simp
  | cons record records ih =>
    obtain ⟨own, others, hown, hothers, rfl⟩ := healthyAddresses_cons_eq_ok_iff.mp h
    rw [List.mem_append, ih hothers, List.exists_mem_cons_iff]
    refine or_congr_left ?_
    rcases healthyAddresses_singleton_eq_ok_iff.mp hown with ⟨hnone, rfl⟩ | ⟨b, hb, rfl⟩
    · refine iff_of_false List.not_mem_nil fun ha => ?_
      obtain ⟨uri, huri⟩ := ha.inService
      exact hnone uri huri
    · rw [List.mem_singleton]
      refine ⟨fun heq => heq ▸ hb, fun ha => ha.unique hb⟩

/-! ### Lists of records -/

/-- The forms of a list of records. -/
inductive Presents : Value → List Value → Prop
  /-- a map from any keys to the records -/
  | map (entries : List (Value × Value)) : Presents (.map entries) (entries.map Prod.snd)
  /-- an array of the records, unless it holds one value that has no entry with the name `uri` -/
  | array {records : List Value}
      (h : ∀ v, records = [v] → ∃ place, FirstEntry "uri" v place) :
      Presents (.array records) records
  /-- no list at all -/
  | nothing : Presents .nil []
  /-- an array of the records, as the only result of a call -/
  | resultArray (records : List Value) : Presents (.array [.array records]) records
  /-- a map to the records as the only result of a call, unless one of its keys is `uri` -/
  | resultMap {entries : List (Value × Value)} (h : ∀ e ∈ entries, e.1.text? ≠ some "uri".toList) :
      Presents (.array [.map entries]) (entries.map Prod.snd)
  /-- no list at all as the only result of a call -/
  | resultNothing : Presents (.array [.nil]) []

theorem isRecord_iff : isRecord v = true ↔ ∃ place, FirstEntry "uri" v place := by
  simp only [isRecord, Option.isSome_iff_exists, field_eq_some_iff]

theorem isRecord_map_iff {entries : List (Value × Value)} :
    isRecord (.map entries) = true ↔ ∃ e ∈ entries, e.1.text? = some "uri".toList := by
  simp [isRecord, field]

theorem unwrap_singleton : unwrap (.array [v]) = if isRecord v then .array [v] else v :=
  rfl

/-- A list of records is read from these forms and no others. -/
theorem presents_iff : Presents data records ↔ records? (unwrap data) = some records := by
  constructor
  · intro h
    cases h with
    | map entries => rfl
    | @array records h =>
      rcases records with _ | ⟨v, _ | ⟨w, rest⟩⟩
      · rfl
      · rw [unwrap_singleton, if_pos (isRecord_iff.mpr (h v rfl)), records?]
      · rfl
    | nothing => rfl
    | resultArray records => rfl
    | resultMap h =>
      rw [unwrap_singleton, if_neg, records?]
      rintro hrecord
      obtain ⟨e, he, hkey⟩ := isRecord_map_iff.mp hrecord
      exact h e he hkey
    | resultNothing => rfl
  · intro h
    cases data with
    | nil =>
      cases h
      exact .nothing
    | map entries =>
      cases h
      exact .map entries
    | array items =>
      rcases items with _ | ⟨v, _ | ⟨w, rest⟩⟩
      · cases h
        exact .array (by simp)
      · by_cases hrecord : isRecord v = true
        · rw [unwrap_singleton, if_pos hrecord] at h
          cases h
          refine .array fun v' hv => ?_
          cases hv
          exact isRecord_iff.mp hrecord
        · rw [unwrap_singleton, if_neg hrecord] at h
          cases v with
          | nil =>
            cases h
            exact .resultNothing
          | map entries =>
            cases h
            exact .resultMap fun e he hkey => hrecord (isRecord_map_iff.mpr ⟨e, he, hkey⟩)
          | array items =>
            cases h
            exact .resultArray _
          | _ => cases h
      · cases h
        exact .array (by simp)
    | _ => cases h

/-- What is read from a list of records is the set of the addresses of the nodes in service, if
there is one for each. -/
theorem parseNodes_eq_ok_iff : parseNodes data = .ok set ↔ ∃ records, Presents data records ∧
    (∀ record ∈ records, ∀ uri, InService record uri → ∃ a, Reaches record a) ∧
    Address.IsSet set ∧ ∀ a, a ∈ set ↔ ∃ record ∈ records, Reaches record a := by
  simp only [presents_iff, parseNodes]
  cases records? (unwrap data) with
  | none => simp
  | some records =>
    simp only [Option.some.injEq, exists_eq_left', ← exists_healthyAddresses_iff]
    cases hread : healthyAddresses records with
    | error fault => simp
    | ok l =>
      have hmem : ∀ a, a ∈ Address.sortedSet l ↔ ∃ record ∈ records, Reaches record a := fun a => by
        rw [Address.mem_sortedSet, mem_healthyAddresses hread]
      simp only [Except.ok.injEq, exists_eq', true_and]
      constructor
      · rintro rfl
        exact ⟨Address.isSet_sortedSet l, hmem⟩
      · rintro ⟨hset, hmem'⟩
        exact (Address.isSet_sortedSet l).eq_of_mem_iff hset fun a => (hmem a).trans (hmem' a).symm

/-- A list of records can be read if each record of a node in service gives an address. -/
theorem exists_parseNodes_iff (h : Presents data records) : (∃ set, parseNodes data = .ok set) ↔
    ∀ record ∈ records, ∀ uri, InService record uri → ∃ a, Reaches record a := by
  rw [← exists_healthyAddresses_iff]
  simp only [parseNodes, presents_iff.mp h]
  cases healthyAddresses records <;> simp

theorem Presents.unique {records' : List Value} (h : Presents data records)
    (h' : Presents data records') : records = records' :=
  Option.some.inj ((presents_iff.mp h).symm.trans (presents_iff.mp h'))

/-- What is read depends only on which records of nodes in service there are. -/
theorem parseNodes_of_inService_iff {data' : Value} {records' : List Value}
    (h : Presents data records) (h' : Presents data' records')
    (hsame : ∀ record uri, InService record uri → (record ∈ records' ↔ record ∈ records))
    (hset : parseNodes data = .ok set) : parseNodes data' = .ok set := by
  obtain ⟨others, hothers, hread, hisset, hmem⟩ := parseNodes_eq_ok_iff.mp hset
  cases h.unique hothers
  refine parseNodes_eq_ok_iff.mpr ⟨records', h', ?_, hisset, fun a => ?_⟩
  · intro record hrecord uri huri
    exact hread record ((hsame record uri huri).mp hrecord) uri huri
  · rw [hmem]
    refine exists_congr fun record => and_congr_left fun hreaches => ?_
    obtain ⟨uri, huri⟩ := hreaches.inService
    exact (hsame record uri huri).symm

/-- The order of the records does not matter for the set of addresses. -/
theorem parseNodes_perm {data' : Value} {records' : List Value}
    (hrecords : records? (unwrap data) = some records)
    (hrecords' : records? (unwrap data') = some records') (h : records.Perm records')
    (hset : parseNodes data = .ok set) : parseNodes data' = .ok set :=
  parseNodes_of_inService_iff (presents_iff.mpr hrecords) (presents_iff.mpr hrecords')
    (fun _ _ _ => h.mem_iff.symm) hset

/-- A list of records can be read exactly if each record of a node in service gives an address, and
what is read is the set of these addresses.  Nothing else plays a part: the same is read from every
list with the same records of nodes in service, in whatever form and order they are given, and
whichever values stand beside them. -/
theorem parseNodes_of_presents (h : Presents data records) :
    ((∃ set, parseNodes data = .ok set) ↔ ∀ record ∈ records, ∀ uri, InService record uri →
      ∃ server a, Names uri server ∧ Address.parse (String.ofList server) = .ok a) ∧
    (∀ set, parseNodes data = .ok set → Address.IsSet set ∧
      ∀ a, a ∈ set ↔ ∃ record ∈ records, ∃ uri server, InService record uri ∧ Names uri server ∧
        Address.parse (String.ofList server) = .ok a) ∧
    ∀ data' records', Presents data' records' →
      (∀ record uri, InService record uri → (record ∈ records' ↔ record ∈ records)) →
        ∀ set, parseNodes data' = .ok set ↔ parseNodes data = .ok set := by
  refine ⟨?_, ?_, ?_⟩
  · rw [exists_parseNodes_iff h]
    refine forall₂_congr fun record _ => forall₂_congr fun uri huri => ?_
    exact huri.exists_reaches_iff
  · intro set hset
    obtain ⟨others, hothers, -, hisset, hmem⟩ := parseNodes_eq_ok_iff.mp hset
    cases h.unique hothers
    exact ⟨hisset, hmem⟩
  · intro data' records' h' hsame set
    exact ⟨parseNodes_of_inService_iff h' h fun record uri huri => (hsame record uri huri).symm,
      parseNodes_of_inService_iff h h' hsame⟩

/-- The first place of a node counts, and the server's name begins after the last `@` of it; what is
no address does no harm in the record of a node that is down. -/
theorem parseNodes_of_presents_credentials :
    let node : Value := .map [(.ofString "uri", .ofString "user:p@ss@[::1]:3302"),
      (.ofString "status", .ofString "healthy"), (.ofString "uri", .ofString "host:port")]
    let down : Value := .map [(.ofString "status", .ofString "down"),
      (.ofString "uri", .ofString "host:port")]
    Presents (.array [.map [(.nil, node), (.nil, down)]]) [node, down] ∧
      Presents (.array [.nil, node, node]) [.nil, node, node] ∧
        parseNodes (.array [.nil, node, node]) = .ok [⟨"::1", 3302⟩] := by
  intro node down
  have hmap : Presents (.array [.map [(.nil, node), (.nil, down)]]) [node, down] :=
    .resultMap (by simp [Value.text?])
  have harray : Presents (.array [.nil, node, node]) [.nil, node, node] := .array (by simp)
  obtain ⟨-, -, hsame⟩ := parseNodes_of_presents hmap
  refine ⟨hmap, harray, (hsame _ _ harray ?_ _).mpr rfl⟩
  intro record uri hservice
  have huri := healthyUri?_eq_some_iff.mpr hservice
  have hnil : record ≠ .nil := by
    rintro rfl
    cases huri
  have hdown : record ≠ down := by
    rintro rfl
    cases huri
  simp [hnil, hdown]

end Topology

end Switchboard
