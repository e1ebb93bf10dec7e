import Mathlib.Data.List.TakeWhile
import Switchboard.IpAddress

/-!
# Addresses and their texts

An address is written with its host in brackets if the host holds a colon.  Reading cuts off the
blanks at the ends of a text, takes what an opening bracket begins up to the first closing one, and
else cuts at the last colon.  So an address comes back from its text unless its host is taken for
something else: if the host stands in brackets, for a closing bracket in it; if not, for its first
character.

## Main definitions

- `Address.portText` — the digits of a port

## Main statements

- `Address.parse_display_of_colon` — which addresses come back if the host stands in brackets
- `Address.parse_display_of_not_colon` — which ones do if it does not
- `Address.parse_display_iff` — both together; every address of the network comes back
-/

namespace Switchboard

open Text (isBlank trim cutLast?)

namespace Address

variable {p : UInt16} {s : List Char}

/-! ### Ports -/

/-- The digits of a port. -/
def portText (p : UInt16) : List Char :=
  Nat.toDigits 10 p.toNat

theorem isDigit_of_mem_portText {c : Char} (h : c ∈ portText p) : c.isDigit = true :=
  Nat.isDigit_of_mem_toDigits (by decide) (by decide) h

theorem portText_ne_nil : portText p ≠ [] :=
  Nat.toDigits_ne_nil

theorem parsePort_portText (p : UInt16) (whole : List Char) :
    parsePort (portText p) whole = .ok p := by
  have hbound : p.toNat ≤ 65535 := Nat.le_of_lt_succ p.toNat_lt
  rw [parsePort, portText, Numeral.parse_toDigits hbound]
  exact congrArg Except.ok (UInt16.ofNat_toNat)

/-- A character that is no digit does not occur in a port. -/
theorem notMem_portText {c : Char} (h : c.isDigit = false) : c ∉ portText p := by
  intro hc
  rw [isDigit_of_mem_portText hc] at h
  cases h

/-- A text that ends in a port does not end in a blank. -/
theorem isBlank_getLast {l : List Char} (hs : s = l ++ portText p) (h : s ≠ []) :
    isBlank (s.getLast h) = false := by
  subst hs
  rw [List.getLast_append_of_ne_nil h portText_ne_nil]
  exact Text.isBlank_of_isDigit (isDigit_of_mem_portText (List.getLast_mem _))

/-! ### Hosts in brackets -/

/-- The text of an address. -/
theorem toList_display (a : Address) :
    a.display.toList =
      if ':' ∈ a.host.toList then '[' :: (a.host.toList ++ ']' :: ':' :: portText a.port)
      else a.host.toList ++ ':' :: portText a.port := by
  unfold display
  simp only [List.contains_iff_mem, portText]
  split <;> simp [String.toList_append, Nat.toString_eq_repr]

theorem parse_of_bracket {text : String} {rest : List Char}
    (h : trim text.toList = '[' :: rest) : parse text = parseBracketed rest ('[' :: rest) := by
  rw [parse, h]
  rfl

theorem parse_of_not_bracket {text : String} (h : trim text.toList = s) (hne : s ≠ [])
    (hbracket : s.head? ≠ some '[') : parse text = parsePlain s := by
  rw [parse, h]
  split
  · exact absurd rfl hne
  · exact absurd rfl hbracket
  · rfl

/-- A host is read from brackets up to the first closing one. -/
theorem notMem_host_of_parseBracketed {rest whole : List Char} {a : Address}
    (h : parseBracketed rest whole = .ok a) : ']' ∈ rest ∧ ']' ∉ a.host.toList := by
  rw [parseBracketed] at h
  split at h
  · cases h
  · next host port hcut =>
    obtain ⟨rfl, hhost⟩ := Text.cutFirst?_eq_some_iff.mp hcut
    cases hport : parsePort port whole with
    | error fault => simp [hport, Except.map] at h
    | ok q =>
      rw [hport] at h
      cases h
      exact ⟨by simp, by rwa [String.toList_ofList]⟩
  · next host hcut =>
    obtain ⟨rfl, hhost⟩ := Text.cutFirst?_eq_some_iff.mp hcut
    cases h
    exact ⟨by simp, by rwa [String.toList_ofList]⟩
  · cases h

/-- A host with a colon comes back unless it holds a closing bracket. -/
theorem parse_display_of_colon {a : Address} (hcolon : ':' ∈ a.host.toList) :
    parse a.display = .ok a ↔ ']' ∉ a.host.toList := by
  have htext : a.display.toList =
      [] ++ '[' :: (a.host.toList ++ ']' :: ':' :: portText a.port) := by
    rw [toList_display, if_pos hcolon, List.nil_append]
  have htrim : trim a.display.toList = '[' :: (a.host.toList ++ ']' :: ':' :: portText a.port) := by
    rw [htext, Text.trim_append_cons [] (by decide)]
    · rfl
    · exact isBlank_getLast (p := a.port) (l := '[' :: (a.host.toList ++ [']', ':'])) (by simp) _
  rw [parse_of_bracket htrim]
  refine ⟨fun h => (notMem_host_of_parseBracketed h).2, fun h => ?_⟩
  rw [parseBracketed, Text.cutFirst?_append_cons h]
  simp [parsePort_portText, Except.map]

/-! ### Plain hosts -/

theorem parsePlain_append_port {host : List Char} (hcolon : ':' ∉ host) :
    parsePlain (host ++ ':' :: portText p) =
      if host = [] then .error (.missingHost (String.ofList (host ++ ':' :: portText p)))
      else .ok ⟨String.ofList host, p⟩ := by
  have hcut : cutLast? ':' (host ++ ':' :: portText p) = some (host, portText p) :=
    Text.cutLast?_eq_some_iff.mpr ⟨rfl, notMem_portText (by decide)⟩
  rw [parsePlain, hcut]
  simp [hcolon, parsePort_portText, Except.map]

/-- A host without a colon comes back if it begins with neither a blank nor an opening bracket. -/
theorem parse_display_of_not_colon {a : Address} (hcolon : ':' ∉ a.host.toList) :
    parse a.display = .ok a ↔
      ∃ c rest, a.host.toList = c :: rest ∧ isBlank c = false ∧ c ≠ '[' := by
  obtain ⟨front, hfront⟩ : ∃ front, a.host.toList.dropWhile isBlank = front := ⟨_, rfl⟩
  have hsub : front ⊆ a.host.toList := hfront ▸ (List.dropWhile_sublist _).subset
  have htrim : trim a.display.toList = front ++ ':' :: portText a.port := by
    rw [toList_display, if_neg hcolon, ← hfront]
    exact Text.trim_append_cons _ (by decide) (isBlank_getLast (l := [':']) rfl _)
  have hplain := parsePlain_append_port (p := a.port) fun hmem => hcolon (hsub hmem)
  constructor
  · intro h
    cases front with
    | nil =>
      rw [parse_of_not_bracket htrim (by simp) (by simp), hplain, if_pos rfl] at h
      cases h
    | cons c rest =>
      by_cases hc : c = '['
      · -- the closing bracket would be one of the host
        subst hc
        obtain ⟨hmem, hhost⟩ := notMem_host_of_parseBracketed (parse_of_bracket htrim ▸ h)
        have hrest : ']' ∈ rest := by
          simpa [notMem_portText (p := a.port) (c := ']') (by decide)] using hmem
        exact absurd (hsub (List.mem_cons_of_mem _ hrest)) hhost
      · rw [parse_of_not_bracket htrim (by simp) (by simpa using hc), hplain, if_neg (by simp)] at h
        have hhost : a.host.toList = c :: rest := by
          injection h with h
          rw [← h, String.toList_ofList]
        rw [hhost] at hfront
        refine ⟨c, rest, hhost, ?_, hc⟩
        simpa using List.dropWhile_eq_self_iff.mp hfront
  · rintro ⟨c, rest, hhost, hblank, hc⟩
    have hwhole : front = a.host.toList := by
      rw [← hfront, hhost, List.dropWhile_cons_of_neg (by simp [hblank])]
    rw [parse_of_not_bracket htrim (by simp) (by simpa [hwhole, hhost] using hc), hplain,
      if_neg (by simp [hwhole, hhost]), hwhole, String.ofList_toList]

end Address

/-! ### Network addresses -/

namespace IpAddress

theorem toList_dotted (a b c d : UInt8) :
    (dotted a b c d).toList = Nat.toDigits 10 a.toNat ++ '.' :: (Nat.toDigits 10 b.toNat ++
      '.' :: (Nat.toDigits 10 c.toNat ++ '.' :: Nat.toDigits 10 d.toNat)) := by
  simp [dotted, Nat.toString_eq_repr, String.toList_append]

/-- Four decimal numbers hold nothing but digits and points. -/
theorem notMem_dotted {x : Char} (hdigit : x.isDigit = false) (hpoint : x ≠ '.')
    (a b c d : UInt8) : x ∉ (dotted a b c d).toList := by
  have hdigits : ∀ n, x ∉ Nat.toDigits 10 n := fun n hx =>
    absurd (Nat.isDigit_of_mem_toDigits (by decide) (by decide) hx) (by simp [hdigit])
  simp [toList_dotted, hdigits, hpoint]

/-- Four decimal numbers begin with a digit. -/
theorem exists_dotted_eq_cons (a b c d : UInt8) :
    ∃ x rest, (dotted a b c d).toList = x :: rest ∧ x.isDigit = true := by
  obtain ⟨x, rest, hfirst⟩ : ∃ x rest, Nat.toDigits 10 a.toNat = x :: rest :=
    List.exists_cons_of_ne_nil Nat.toDigits_ne_nil
  have hx : x ∈ Nat.toDigits 10 a.toNat := by simp [hfirst]
  exact ⟨x, _, by rw [toList_dotted, hfirst, List.cons_append],
    Nat.isDigit_of_mem_toDigits (by decide) (by decide) hx⟩

theorem toList_coloned_cons_cons (g k : UInt16) (groups : List UInt16) :
    (coloned (g :: k :: groups)).toList =
      (hexText g.toNat).toList ++ ':' :: (coloned (k :: groups)).toList := by
  simp [coloned, String.toList_append]

theorem bracket_notMem_hexText (n : ℕ) : ']' ∉ (hexText n).toList := by
  intro h
  obtain ⟨d, hd, heq⟩ := exists_of_mem_hexText h
  exact absurd heq ((by decide : ∀ d < 16, ']' ≠ Octets.hexDigit d) d hd)

theorem bracket_notMem_coloned (groups : List UInt16) : ']' ∉ (coloned groups).toList := by
  induction groups with
  | nil => simp [coloned]
  | cons g groups ih =>
    cases groups with
    | nil => simpa [coloned] using bracket_notMem_hexText g.toNat
    | cons k groups =>
      rw [toList_coloned_cons_cons]
      simpa using ⟨bracket_notMem_hexText g.toNat, ih⟩

theorem colon_mem_coloned {groups : List UInt16} (h : 1 < groups.length) :
    ':' ∈ (coloned groups).toList := by
  cases groups with
  | nil => simp at h
  | cons g groups =>
    cases groups with
    | nil => simp at h
    | cons k groups => simp [toList_coloned_cons_cons]

/-- The text of an address of 16 octets holds a colon and no bracket. -/
theorem colon_mem_display_v6 (groups : Vector UInt16 8) :
    ':' ∈ (display (.v6 groups)).toList ∧ ']' ∉ (display (.v6 groups)).toList := by
  rw [display]
  split
  · next high low _ =>
    simp [String.toList_append, notMem_dotted (x := ']') (by decide) (by decide)]
  · split
    next start count _ =>
    split
    · simp [String.toList_append, bracket_notMem_coloned]
    · exact ⟨colon_mem_coloned (by simp), bracket_notMem_coloned _⟩

end IpAddress

namespace Address

/-- Which addresses come back from their texts: those with a colon and no closing bracket in the
host, and those without a colon whose host begins with a character that is neither blank nor an
opening bracket.  All addresses of the network are among them. -/
theorem parse_display_iff :
    (∀ host p, parse (display ⟨host, p⟩) = .ok ⟨host, p⟩ ↔
      (':' ∈ host.toList ∧ ']' ∉ host.toList) ∨
      (':' ∉ host.toList ∧ ∃ c rest, host.toList = c :: rest ∧ isBlank c = false ∧ c ≠ '[')) ∧
    ∀ ip p, parse (ofIp ip p).display = .ok (ofIp ip p) := by
  have hiff : ∀ a : Address, parse a.display = .ok a ↔
      (':' ∈ a.host.toList ∧ ']' ∉ a.host.toList) ∨ (':' ∉ a.host.toList ∧
        ∃ c rest, a.host.toList = c :: rest ∧ isBlank c = false ∧ c ≠ '[') := by
    intro a
    by_cases hcolon : ':' ∈ a.host.toList
    · simp [parse_display_of_colon hcolon, hcolon]
    · simp [parse_display_of_not_colon hcolon, hcolon]
  refine ⟨fun host p => hiff ⟨host, p⟩, fun ip p => (hiff _).mpr ?_⟩
  cases ip with
  | v4 a b c d =>
    obtain ⟨x, rest, hfirst, hdigit⟩ := IpAddress.exists_dotted_eq_cons a b c d
    have hx : x ≠ '[' := by
      rintro rfl
      cases hdigit
    exact .inr ⟨IpAddress.notMem_dotted (by decide) (by decide) a b c d, x, rest, hfirst,
      Text.isBlank_of_isDigit hdigit, hx⟩
  | v6 groups => exact .inl (IpAddress.colon_mem_display_v6 groups)

end Address

end Switchboard
