import Mathlib.Data.List.DropRight
import Switchboard.Proofs.AddressText

/-!
# The forms of an address

A text names an address in one of three forms: a host in brackets, a host without colons, or a host
of several colons.  A port may follow the first two.  Reading asks a host without brackets to be
there, but takes whatever stands between brackets.  So an address that was read may have no host, and
may have one that is taken for something else when the text of the address is read in its turn.

## Main definitions

- `Address.Names` — the texts that name an address, in each of the forms
- `Address.Misleads` — the texts whose address is not read back

## Main statements

- `Address.parse_eq_ok_iff` — reading accepts the texts of these forms and no others
- `Address.Names.comes_back_iff` — which of them name an address that comes back from its text
- `Address.read_back_unless_misleading` — both together, and what becomes of a missing host
- `Address.empty_brackets_accepted` — a missing host is accepted between brackets
-/

namespace Switchboard

open Text (isBlank trim)

/-! ### Where texts begin -/

namespace Text

/-- A trimmed text does not begin with a blank. -/
theorem isBlank_of_head?_trim {s : List Char} {c : Char} (h : (trim s).head? = some c) :
    isBlank c = false := by
  have hfront : trim s <+: s.dropWhile isBlank := List.rdropWhile_prefix isBlank _
  obtain ⟨rest, hrest⟩ := List.head?_eq_some_iff.mp h
  obtain ⟨tail, htail⟩ := hrest ▸ hfront
  have hhead : (s.dropWhile isBlank).head? = some c := by rw [← htail]; rfl
  have hnot := List.head?_dropWhile_not isBlank s
  rw [hhead] at hnot
  simpa using hnot

end Text

/-- No colon is part of a number. -/
theorem Numeral.colon_notMem_of_parse {bound n : ℕ} {s : List Char}
    (h : Numeral.parse bound s = .ok n) : ':' ∉ s := by
  have hdigits : ∀ (s : List Char) (read : ℕ), readDigits bound s read = .ok n → ':' ∉ s := by
    intro s
    induction s with
    | nil => exact fun _ _ => List.not_mem_nil
    | cons c s ih =>
      intro read h
      rw [readDigits] at h
      split at h
      · cases h
      next hdigit =>
      split at h
      · refine List.not_mem_cons_of_ne_of_not_mem ?_ (ih _ h)
        rintro rfl
        cases hdigit
      · cases h
  unfold Numeral.parse at h
  split at h
  · cases h
  · cases h
  · exact List.not_mem_cons_of_ne_of_not_mem (by decide) (hdigits _ _ h)
  · exact hdigits _ _ h

namespace Address

/-! ### What is accepted -/

/-- What may follow a host: nothing, or a colon and a port. -/
inductive PortTail : List Char → UInt16 → Prop
  | omitted : PortTail [] defaultPort
  | given {port n} (number : Numeral.parse 65535 port = .ok n) : PortTail (':' :: port) n.toUInt16

/-- The text, which has no blanks at its ends, names the address. -/
inductive Names : List Char → Address → Prop
  /-- a host in brackets -/
  | bracketed {host tail p} (closed : ']' ∉ host) (port : PortTail tail p) :
    Names ('[' :: (host ++ ']' :: tail)) ⟨String.ofList host, p⟩
  /-- a host without colons -/
  | plain {host tail p} (first : host.head? ≠ some '[') (present : host ≠ [])
    (colon : ':' ∉ host) (port : PortTail tail p) : Names (host ++ tail) ⟨String.ofList host, p⟩
  /-- a host of several colons -/
  | several {host} (first : host.head? ≠ some '[') (colons : 1 < host.count ':') :
    Names host ⟨String.ofList host, defaultPort⟩

variable {s rest whole host port tail : List Char} {a : Address} {p : UInt16}

theorem parsePort_eq_ok_iff :
    parsePort port whole = .ok p ↔ PortTail (':' :: port) p := by
  rw [parsePort]
  constructor
  · intro h
    split at h
    · next n hn =>
      cases h
      exact .given hn
    · cases h
  · rintro ⟨⟩
    next hn => rw [hn]

theorem map_parsePort_eq_ok_iff :
    (parsePort port whole).map (⟨String.ofList host, ·⟩) = .ok a ↔
      ∃ p, PortTail (':' :: port) p ∧ a = ⟨String.ofList host, p⟩ := by
  have hport (p : UInt16) : PortTail (':' :: port) p ↔ parsePort port whole = .ok p :=
    parsePort_eq_ok_iff.symm
  simp only [hport]
  cases parsePort port whole <;> simp [Except.map, eq_comm]

/-- A port holds no colon but the one in front of it. -/
theorem PortTail.count_le (h : PortTail tail p) : tail.count ':' ≤ 1 := by
  cases h with
  | omitted => exact Nat.zero_le _
  | given number =>
    have hport := List.count_eq_zero.mpr (Numeral.colon_notMem_of_parse number)
    rw [List.count_cons_self, hport]

theorem parseBracketed_eq_ok_iff :
    parseBracketed rest whole = .ok a ↔ ∃ host tail p, rest = host ++ ']' :: tail ∧ ']' ∉ host ∧
      PortTail tail p ∧ a = ⟨String.ofList host, p⟩ := by
  constructor
  · intro h
    rw [parseBracketed] at h
    split at h
    · cases h
    · next host port hcut =>
      obtain ⟨rfl, hhost⟩ := Text.cutFirst?_eq_some_iff.mp hcut
      obtain ⟨p, hp, rfl⟩ := map_parsePort_eq_ok_iff.mp h
      exact ⟨host, _, p, rfl, hhost, hp, rfl⟩
    · next host hcut =>
      obtain ⟨rfl, hhost⟩ := Text.cutFirst?_eq_some_iff.mp hcut
      cases h
      exact ⟨host, [], defaultPort, rfl, hhost, .omitted, rfl⟩
    · cases h
  · rintro ⟨host, tail, p, rfl, hhost, hport, rfl⟩
    rw [parseBracketed, Text.cutFirst?_append_cons hhost]
    cases hport with
    | omitted => rfl
    | given number => exact map_parsePort_eq_ok_iff.mpr ⟨_, .given number, rfl⟩

theorem parsePlain_eq_ok_iff (hs : s ≠ []) :
    parsePlain s = .ok a ↔
      (∃ host tail p, s = host ++ tail ∧ host ≠ [] ∧ ':' ∉ host ∧ PortTail tail p ∧
        a = ⟨String.ofList host, p⟩) ∨
      (1 < s.count ':' ∧ a = ⟨String.ofList s, defaultPort⟩) := by
  rw [parsePlain]
  cases hcut : Text.cutLast? ':' s with
  | none =>
    have hcolon := Text.cutLast?_eq_none_iff.mp hcut
    constructor
    · intro h
      cases h
      exact .inl ⟨s, [], defaultPort, (List.append_nil s).symm, hs, hcolon, .omitted, rfl⟩
    · rintro (⟨host, tail, p, rfl, -, -, hport, rfl⟩ | ⟨hcount, -⟩)
      · cases hport with
        | omitted => rw [List.append_nil]
        | given number => simp at hcolon
      · rw [List.count_eq_zero.mpr hcolon] at hcount
        cases hcount
  | some cut =>
    obtain ⟨front, back⟩ := cut
    obtain ⟨rfl, hback⟩ := Text.cutLast?_eq_some_iff.mp hcut
    have hcount : (front ++ ':' :: back).count ':' = front.count ':' + 1 := by
      rw [List.count_append, List.count_cons_self, List.count_eq_zero.mpr hback]
    dsimp only
    by_cases hfront : ':' ∈ front
    · -- with several colons the whole text is the host
      rw [if_pos (List.contains_iff_mem.mpr hfront)]
      have hseveral : 1 < (front ++ ':' :: back).count ':' := by
        rw [hcount]
        exact Nat.lt_add_of_pos_left (List.count_pos_iff.mpr hfront)
      constructor
      · intro h
        cases h
        exact .inr ⟨hseveral, rfl⟩
      · rintro (⟨host, tail, p, heq, -, hcolon, hport, -⟩ | ⟨-, rfl⟩)
        · rw [heq, List.count_append, List.count_eq_zero.mpr hcolon] at hseveral
          exact absurd hport.count_le (by omega)
        · rfl
    · rw [if_neg (by simpa using hfront)]
      have hsingle : (front ++ ':' :: back).count ':' = 1 := by
        rw [hcount, List.count_eq_zero.mpr hfront]
      cases front with
      | nil =>
        constructor
        · intro h
          cases h
        · rintro (⟨host, tail, p, heq, hhost, hcolon, -, -⟩ | ⟨hcount, -⟩)
          · obtain ⟨c, host, rfl⟩ := List.exists_cons_of_ne_nil hhost
            cases heq
            exact absurd List.mem_cons_self hcolon
          · omega
      | cons c front =>
        rw [List.isEmpty_cons, if_neg (by decide), map_parsePort_eq_ok_iff]
        constructor
        · rintro ⟨p, hport, rfl⟩
          exact .inl ⟨c :: front, _, p, rfl, List.cons_ne_nil c front, hfront, hport, rfl⟩
        · rintro (⟨host, tail, p, heq, hhost, hcolon, hport, rfl⟩ | ⟨hcount, -⟩)
          · cases hport with
            | omitted =>
              rw [List.append_nil] at heq
              exact absurd (heq ▸ by simp) hcolon
            | @given port n number =>
              -- both cut at the last colon
              have hlast := Text.cutLast?_eq_some_iff.mpr
                ⟨heq, Numeral.colon_notMem_of_parse number⟩
              rw [hcut] at hlast
              cases hlast
              exact ⟨_, .given number, rfl⟩
          · omega

theorem names_bracket_iff :
    Names ('[' :: rest) a ↔ ∃ host tail p, rest = host ++ ']' :: tail ∧ ']' ∉ host ∧
      PortTail tail p ∧ a = ⟨String.ofList host, p⟩ := by
  constructor
  · intro h
    generalize hs : '[' :: rest = s at h
    cases h with
    | bracketed closed port =>
      cases hs
      exact ⟨_, _, _, rfl, closed, port, rfl⟩
    | plain first present =>
      rw [← List.head?_append_of_ne_nil _ present, ← hs] at first
      exact absurd rfl first
    | several first =>
      rw [← hs] at first
      exact absurd rfl first
  · rintro ⟨host, tail, p, rfl, hhost, hport, rfl⟩
    exact .bracketed hhost hport

theorem names_of_not_bracket_iff (hs : s.head? ≠ some '[') :
    Names s a ↔
      (∃ host tail p, s = host ++ tail ∧ host ≠ [] ∧ ':' ∉ host ∧ PortTail tail p ∧
        a = ⟨String.ofList host, p⟩) ∨
      (1 < s.count ':' ∧ a = ⟨String.ofList s, defaultPort⟩) := by
  constructor
  · rintro (⟨-, -⟩ | ⟨-, present, colon, port⟩ | ⟨-, colons⟩)
    · exact absurd rfl hs
    · exact .inl ⟨_, _, _, rfl, present, colon, port, rfl⟩
    · exact .inr ⟨colons, rfl⟩
  · rintro (⟨host, tail, p, rfl, hhost, hcolon, hport, rfl⟩ | ⟨hcount, rfl⟩)
    · rw [List.head?_append_of_ne_nil _ hhost] at hs
      exact .plain hs hhost hcolon hport
    · exact .several hs hcount

theorem not_names_nil : ¬Names [] a := by
  rw [names_of_not_bracket_iff (s := []) nofun]
  rintro (⟨host, tail, p, hnil, hhost, -⟩ | ⟨hcount, -⟩)
  · exact hhost (List.append_eq_nil_iff.mp hnil.symm).1
  · cases hcount

/-- A text of blanks names no address. -/
theorem parse_of_blank {text : String} (h : trim text.toList = []) :
    parse text = .error .empty := by
  rw [parse, h]

/-- Reading accepts the texts that name an address, and no others. -/
theorem parse_eq_ok_iff {text : String} : parse text = .ok a ↔ Names (trim text.toList) a := by
  generalize htrim : trim text.toList = s
  by_cases hbracket : s.head? = some '['
  · obtain ⟨rest, rfl⟩ := List.head?_eq_some_iff.mp hbracket
    rw [parse_of_bracket htrim, parseBracketed_eq_ok_iff, names_bracket_iff]
  by_cases hs : s = []
  · subst hs
    rw [parse_of_blank htrim]
    exact iff_of_false (fun h => nomatch h) not_names_nil
  · rw [parse_of_not_bracket htrim hs hbracket, parsePlain_eq_ok_iff hs,
      names_of_not_bracket_iff hbracket]

/-! ### What comes back -/

/-- The text begins as a host does that stands without brackets. -/
def StartsPlain (host : List Char) : Prop :=
  ∃ c rest, host = c :: rest ∧ isBlank c = false ∧ c ≠ '['

/-- The host is taken for something else once the text of the address is read: it stood in brackets,
and will not again, but does not begin as one without brackets; or it will stand in brackets and
holds a closing one. -/
inductive Misleads : List Char → Prop
  | bracketed {host tail : List Char} (closed : ']' ∉ host) (colon : ':' ∉ host)
    (first : ¬StartsPlain host) : Misleads ('[' :: (host ++ ']' :: tail))
  | several {host : List Char} (first : host.head? ≠ some '[') (colons : 1 < host.count ':')
    (closing : ']' ∈ host) : Misleads host

theorem misleads_bracketed_iff (hclosed : ']' ∉ host) :
    Misleads ('[' :: (host ++ ']' :: tail)) ↔ ':' ∉ host ∧ ¬StartsPlain host := by
  refine ⟨fun h => ?_, fun ⟨hcolon, hfirst⟩ => .bracketed hclosed hcolon hfirst⟩
  generalize hwhole : '[' :: (host ++ ']' :: tail) = s at h
  cases h with
  | bracketed closed colon first =>
    -- both hosts end at the first closing bracket
    have hcut := Text.cutFirst?_append_cons (b := tail) hclosed
    rw [List.tail_eq_of_cons_eq hwhole, Text.cutFirst?_append_cons closed] at hcut
    cases hcut
    exact ⟨colon, first⟩
  | several first =>
    subst hwhole
    exact absurd rfl first

theorem misleads_of_not_bracket_iff (hs : s.head? ≠ some '[') :
    Misleads s ↔ 1 < s.count ':' ∧ ']' ∈ s := by
  constructor
  · rintro (_ | ⟨-, colons, closing⟩)
    · exact absurd rfl hs
    · exact ⟨colons, closing⟩
  · rintro ⟨colons, closing⟩
    exact .several hs colons closing

/-- An address comes back from its text unless the text that named it misleads. -/
theorem Names.comes_back_iff (h : Names s a)
    (hfirst : ∀ c, s.head? = some c → isBlank c = false) :
    parse a.display = .ok a ↔ ¬Misleads s := by
  cases h with
  | @bracketed host tail p closed =>
    rw [misleads_bracketed_iff closed]
    by_cases hcolon : ':' ∈ host
    · rw [parse_display_of_colon (by rwa [String.toList_ofList])]
      simp [closed, hcolon]
    · rw [parse_display_of_not_colon (by rwa [String.toList_ofList]), String.toList_ofList]
      simp [hcolon, StartsPlain]
  | @plain host tail p first present colon port =>
    obtain ⟨c, host, rfl⟩ := List.exists_cons_of_ne_nil present
    have hcount : ¬1 < ((c :: host) ++ tail).count ':' := by
      rw [List.count_append, List.count_eq_zero.mpr colon, Nat.zero_add]
      exact Nat.not_lt.mpr port.count_le
    rw [misleads_of_not_bracket_iff (s := c :: host ++ tail) first,
      parse_display_of_not_colon (by rwa [String.toList_ofList]), String.toList_ofList]
    exact iff_of_true ⟨c, host, rfl, hfirst c rfl, fun hc => first (by rw [hc]; rfl)⟩
      fun h => hcount h.1
  | several first colons =>
    have hcolon : ':' ∈ s := List.count_pos_iff.mp (Nat.zero_lt_of_lt colons)
    rw [misleads_of_not_bracket_iff first, parse_display_of_colon (by rwa [String.toList_ofList]),
      String.toList_ofList]
    simp [colons]

/-- Nothing but an empty pair of brackets names an address without a host. -/
theorem Names.host_eq_empty_iff (h : Names s a) :
    a.host = "" ↔ ∃ tail, s = '[' :: ']' :: tail := by
  cases h with
  | @bracketed host tail p closed =>
    cases host with
    | nil => exact iff_of_true rfl ⟨tail, rfl⟩
    | cons c host =>
      refine iff_of_false (by simp) ?_
      rintro ⟨tail', heq⟩
      cases heq
      exact closed List.mem_cons_self
  | @plain host tail p first present =>
    refine iff_of_false (by simpa using present) ?_
    rintro ⟨tail', heq⟩
    rw [← List.head?_append_of_ne_nil _ present, heq] at first
    exact first rfl
  | several first colons =>
    refine iff_of_false ?_ ?_
    · intro hempty
      have hnil : s = [] := by simpa using congrArg String.toList hempty
      rw [hnil] at colons
      cases colons
    · rintro ⟨tail, rfl⟩
      exact first rfl

/-! ### A missing host -/

/-- A port without a host is refused. -/
theorem parse_of_port {text : String} (h : trim text.toList = ':' :: port) (hport : ':' ∉ port) :
    parse text = .error (.missingHost (String.ofList (':' :: port))) := by
  have hcut : Text.cutLast? ':' (':' :: port) = some ([], port) :=
    Text.cutLast?_eq_some_iff.mpr ⟨rfl, hport⟩
  rw [parse_of_not_bracket h nofun (by simp), parsePlain, hcut]
  rfl

/-- What is accepted, and what comes back.  A host that is missing is refused unless it is missing
between brackets, and an address that was read comes back from its text unless the text that named
it misleads. -/
theorem read_back_unless_misleading (text : String) (a : Address) :
    (parse text = .ok a ↔ Names (trim text.toList) a) ∧
    (trim text.toList = [] → parse text = .error .empty) ∧
    (∀ port, trim text.toList = ':' :: port → ':' ∉ port →
      parse text = .error (.missingHost (String.ofList (':' :: port)))) ∧
    (parse text = .ok a →
      (a.host = "" ↔ ∃ tail, trim text.toList = '[' :: ']' :: tail) ∧
      (parse a.display = .ok a ↔ ¬Misleads (trim text.toList))) := by
  refine ⟨parse_eq_ok_iff, parse_of_blank, fun _ => parse_of_port, fun h => ?_⟩
  have hnames := parse_eq_ok_iff.mp h
  exact ⟨hnames.host_eq_empty_iff, hnames.comes_back_iff fun _ => Text.isBlank_of_head?_trim⟩

/-- A host of several colons comes back from brackets; blanks, and a port alone, are refused. -/
theorem read_back_unless_misleading_colons :
    (trim " \t".toList = [] ∧ parse " \t" = .error .empty) ∧
    (trim " :3301".toList = ':' :: "3301".toList ∧ ':' ∉ "3301".toList ∧
      parse " :3301" = .error (.missingHost ":3301")) ∧
    parse "[fe80::1]:3303" = .ok ⟨"fe80::1", 3303⟩ ∧
      parse (display ⟨"fe80::1", 3303⟩) = .ok ⟨"fe80::1", 3303⟩ := by
  obtain ⟨-, hblank, -⟩ := read_back_unless_misleading " \t" default
  obtain ⟨-, -, hport, -⟩ := read_back_unless_misleading " :3301" default
  obtain ⟨-, -, -, hread⟩ := read_back_unless_misleading "[fe80::1]:3303" ⟨"fe80::1", 3303⟩
  have hnone : trim " \t".toList = [] := by decide
  have hlone : trim " :3301".toList = ':' :: "3301".toList := by decide
  have hdigits : ':' ∉ "3301".toList := by decide
  have hok : parse "[fe80::1]:3303" = .ok ⟨"fe80::1", 3303⟩ := by decide
  refine ⟨⟨hnone, hblank hnone⟩, ⟨hlone, hdigits, hport _ hlone hdigits⟩, hok, ?_⟩
  refine (hread hok).2.mpr fun h => ?_
  have htrim : trim "[fe80::1]:3303".toList = '[' :: ("fe80::1".toList ++ ']' :: ":3303".toList) := by
    decide
  rw [htrim, misleads_bracketed_iff (by decide)] at h
  exact h.1 (by decide)

/-- Between brackets a missing host is accepted, and the address does not come back: its text is a
port alone. -/
theorem empty_brackets_accepted :
    (parse "[]:1" = .ok ⟨"", 1⟩ ∧ parse (display ⟨"", 1⟩) = .error (.missingHost ":1")) ∧
    ¬∀ text a, parse text = .ok a → a.host ≠ "" ∧ parse a.display = .ok a := by
  have hread : parse "[]:1" = .ok ⟨"", 1⟩ := by decide
  exact ⟨⟨hread, by decide⟩, fun h => (h _ _ hread).1 rfl⟩

end Address

end Switchboard
