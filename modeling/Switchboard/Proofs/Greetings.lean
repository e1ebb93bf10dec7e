import Mathlib.Data.List.DropRight
import Switchboard.Connection
import Switchboard.Proofs.Base64
import Switchboard.Proofs.Utf8

/-!
# Greetings there and back

A line of a greeting holds 63 octets of text and no more.  An identity whose words fit in one line
is read as these words.  Up to 45 octets of salt fit in the other line; of a longer salt the line
keeps a part that is no base64, so the client is told, and never goes on with part of a salt.

## Main definitions

- `Wire.Greeting.Presentable` — the identities that can be read from their line

## Main statements

- `Wire.Greeting.readIdentity_identity` — version, protocol and instance id are read as written
- `Wire.Greeting.parse_render_of_fitting`, `Wire.Greeting.parse_render_of_saltless`,
  `Wire.Greeting.parse_render_of_overlong` — what comes of a rendered greeting, by its salt
- `Handshake.greeting_of_render` — which greetings come back, and what is said of the others
-/

namespace Switchboard

open Text (isBlank)

/-! ### Words -/

namespace Text

/-- No character of the text is blank. -/
def Solid (s : List Char) : Prop :=
  ∀ c ∈ s, isBlank c = false

instance (s : List Char) : Decidable (Solid s) :=
  List.decidableBAll (fun c => isBlank c = false) s

variable {p : Char → Bool} {s t word rest : List Char} {b : Char}

/-- What is cut off an end does not matter. -/
theorem dropEndWhile_append (h : ∀ c ∈ t, p c = true) (s : List Char) :
    dropEndWhile p (s ++ t) = dropEndWhile p s := by
  rw [dropEndWhile, List.reverse_append, List.dropWhile_append_of_pos]
  · rfl
  · exact fun c hc => h c (List.mem_reverse.mp hc)

theorem dropEndWhile_of_getLast? (h : ∀ c ∈ s.getLast?, p c = false) : dropEndWhile p s = s :=
  List.rdropWhile_eq_self_iff.mpr fun hne => by
    simp [h _ (List.getLast_mem_getLast? hne)]

/-- The characters up to the next blank belong to the run being read. -/
theorem wordsFrom_append (h : Solid word) (read : List Char) :
    wordsFrom read (word ++ rest) = wordsFrom (word.reverse ++ read) rest := by
  induction word generalizing read with
  | nil => rfl
  | cons c word ih =>
    have hc : isBlank c = false := h c List.mem_cons_self
    rw [List.cons_append, wordsFrom, hc, if_neg Bool.false_ne_true,
      ih fun d hd => h d (List.mem_cons_of_mem c hd), List.reverse_cons, List.append_assoc]
    rfl

/-- A blank ends a word. -/
theorem words_append_cons (hne : word ≠ []) (h : Solid word)
    (hb : isBlank b = true) : words (word ++ b :: rest) = word :: words rest := by
  rw [words, wordsFrom_append h, List.append_nil, wordsFrom, if_pos hb, if_neg,
    List.reverse_reverse]
  · rfl
  · simpa using hne

/-- The end of the text ends a word. -/
theorem words_of_word (hne : word ≠ []) (h : Solid word) :
    words word = [word] := by
  have hread : wordsFrom [] (word ++ []) = wordsFrom (word.reverse ++ []) [] :=
    wordsFrom_append h []
  rw [List.append_nil, List.append_nil] at hread
  rw [words, hread, wordsFrom, if_neg, List.reverse_reverse]
  simpa using hne

end Text

/-- Octets of ASCII are the octets of a text of as many characters. -/
theorem Utf8.encode_map_ofNat {bytes : Octets} (h : ∀ b ∈ bytes, b.toNat < 0x80) :
    encode (bytes.map fun b => Char.ofNat b.toNat) = bytes := by
  induction bytes with
  | nil => rfl
  | cons b bytes ih =>
    have hb : b.toNat < 0x80 := h b List.mem_cons_self
    have hcode : (Char.ofNat b.toNat).val.toNat = b.toNat := toNat_ofNat (.inl (by omega))
    rw [List.map_cons, encode_cons, ih fun c hc => h c (List.mem_cons_of_mem b hc),
      String.utf8EncodeChar, hcode, if_pos (by omega)]
    simp

namespace Wire.Greeting

/-! ### Lines -/

theorem length_padLine (text : Octets) : (padLine text).length = lineSize := by
  have htaken : (text.take (lineSize - 1)).length ≤ lineSize - 1 := List.length_take_le ..
  simp only [padLine, List.length_append, List.length_replicate, List.length_singleton]
  rw [Nat.add_sub_cancel' htaken]
  rfl

/-- A line gives what it shows of a text, but for the filler at the end. -/
theorem readLine_padLine {text : Octets} {s : List Char}
    (h : text.take (lineSize - 1) = Utf8.encode s) :
    readLine (padLine text) = .ok (Text.dropEndWhile isFiller s) := by
  obtain ⟨n, hn⟩ : ∃ n, n = lineSize - 1 - (text.take (lineSize - 1)).length := ⟨_, rfl⟩
  have hspace : String.utf8EncodeChar ' ' = [0x20] := by decide
  have hline : padLine text = Utf8.encode (s ++ (List.replicate n ' ' ++ ['\n'])) := by
    rw [padLine, ← hn, h]
    simp only [Utf8.encode, List.flatMap_append, List.flatMap_replicate, hspace,
      List.flatten_replicate_singleton, List.append_assoc]
    rfl
  rw [readLine, hline, Utf8.decode_encode]
  refine congrArg Except.ok (Text.dropEndWhile_append (fun c hc => ?_) s)
  rw [List.mem_append, List.mem_singleton] at hc
  obtain hc | rfl := hc
  · rw [List.eq_of_mem_replicate hc]
    rfl
  · rfl

/-! ### Identities -/

/-- The identity of the greeting can be read from its line: its words are words, and all of them
fit. -/
structure Presentable (g : Greeting) : Prop where
  version : g.version ≠ ""
  version_solid : Text.Solid g.version.toList
  protocol_solid : Text.Solid g.protocol.toList
  protocol_front : g.protocol.toList.head? ≠ some '(' ∧ g.protocol.toList.head? ≠ some ')'
  protocol_back : g.protocol.toList.getLast? ≠ some '(' ∧ g.protocol.toList.getLast? ≠ some ')'
  uuid : ∀ u ∈ g.uuid, u ≠ ""
  uuid_solid : ∀ u ∈ g.uuid, Text.Solid u.toList
  uuid_back : ∀ u ∈ g.uuid, u.toList.getLast? ≠ some '\x00'
  fits : (Utf8.ofString g.identity).length ≤ lineSize - 1

variable {g : Greeting}

/-- The salt has no part in the identity. -/
theorem Presentable.withSalt (h : g.Presentable) (salt : Octets) :
    ({ g with salt } : Greeting).Presentable :=
  { h with }

/-- The word that names the protocol. -/
def protocolWord (g : Greeting) : List Char :=
  '(' :: (g.protocol.toList ++ [')'])

theorem isParenthesis_eq_false {c : Char} {found : Option Char} (hc : found = some c)
    (h : found ≠ some '(' ∧ found ≠ some ')') : isParenthesis c = false := by
  subst hc
  simpa [isParenthesis] using h

/-- The protocol is what stands between the parentheses. -/
theorem dropParentheses (h : g.Presentable) :
    Text.dropEndWhile isParenthesis (g.protocolWord.dropWhile isParenthesis) =
      g.protocol.toList := by
  have hfront := h.protocol_front
  have hback := h.protocol_back
  rw [protocolWord]
  cases hprotocol : g.protocol.toList with
  | nil => rfl
  | cons c protocol =>
    rw [hprotocol] at hfront hback
    have hc := isParenthesis_eq_false rfl hfront
    rw [List.dropWhile_cons_of_pos (by rfl), List.cons_append,
      List.dropWhile_cons_of_neg (by simp [hc]), ← List.cons_append,
      Text.dropEndWhile_append (by simp [isParenthesis]), Text.dropEndWhile_of_getLast?]
    exact fun d hd => isParenthesis_eq_false hd hback

/-- What an identity has behind its third word. -/
def identityRest (g : Greeting) : List Char :=
  match g.uuid with
  | some uuid => ' ' :: uuid.toList
  | none => []

theorem toList_identity (g : Greeting) :
    g.identity.toList = serverName.toList ++
      ' ' :: (g.version.toList ++ ' ' :: (g.protocolWord ++ g.identityRest)) := by
  rw [identity, protocolWord, identityRest]
  cases g.uuid <;> simp [String.toList_append]

theorem solid_protocolWord (h : g.Presentable) : Text.Solid g.protocolWord := by
  intro c hc
  rw [protocolWord, List.mem_cons, List.mem_append, List.mem_singleton] at hc
  obtain rfl | hc | rfl := hc
  · decide
  · exact h.protocol_solid c hc
  · decide

/-- An identity has three words, or four. -/
theorem words_identity (h : g.Presentable) :
    Text.words g.identity.toList = serverName.toList :: g.version.toList :: g.protocolWord ::
      (g.uuid.map String.toList).toList := by
  have hserver : Text.Solid serverName.toList := by decide
  have hversion : g.version.toList ≠ [] := String.toList_eq_nil_iff.not.mpr h.version
  have hword : g.protocolWord ≠ [] := List.cons_ne_nil _ _
  have hprotocol := solid_protocolWord h
  rw [toList_identity, Text.words_append_cons (by decide) hserver (by decide),
    Text.words_append_cons hversion h.version_solid (by decide), identityRest]
  cases huuid : g.uuid with
  | none =>
    dsimp only
    rw [List.append_nil, Text.words_of_word hword hprotocol]
    rfl
  | some u =>
    have hu : u.toList ≠ [] := String.toList_eq_nil_iff.not.mpr (h.uuid u huuid)
    dsimp only
    rw [Text.words_append_cons hword hprotocol (by decide),
      Text.words_of_word hu (h.uuid_solid u huuid)]
    rfl

/-- Version, protocol and instance id are read as they were written. -/
theorem readIdentity_identity (h : g.Presentable) :
    readIdentity g.identity.toList = .ok (g.version, g.protocol, g.uuid) := by
  have hprotocol := dropParentheses h
  rw [readIdentity, words_identity h]
  simp only [hprotocol, String.ofList_toList, ne_eq, not_true_eq_false, if_false]
  cases g.uuid <;> simp

theorem isFiller_eq_false_iff {c : Char} :
    isFiller c = false ↔ c ≠ '\n' ∧ c ≠ ' ' ∧ c ≠ '\x00' := by
  simp [isFiller, and_assoc]

/-- An identity does not end in filler. -/
theorem dropFiller_identity (h : g.Presentable) :
    Text.dropEndWhile isFiller g.identity.toList = g.identity.toList := by
  apply Text.dropEndWhile_of_getLast?
  intro c hc
  rw [toList_identity, identityRest, Option.mem_def] at hc
  cases huuid : g.uuid with
  | none =>
    rw [huuid] at hc
    obtain rfl : ')' = c := by
      simpa [protocolWord, List.getLast?_append, List.getLast?_cons] using hc
    decide
  | some u =>
    have hu : u.toList ≠ [] := String.toList_eq_nil_iff.not.mpr (h.uuid u huuid)
    have hlast := List.getLast?_eq_some_getLast hu
    rw [huuid] at hc
    obtain rfl : u.toList.getLast hu = c := by
      simpa [List.getLast?_append, List.getLast?_cons, hlast] using hc
    have hsolid := h.uuid_solid u huuid _ (List.getLast_mem hu)
    have hback : u.toList.getLast hu ≠ '\x00' := fun hnul =>
      h.uuid_back u huuid (hnul ▸ hlast)
    refine isFiller_eq_false_iff.mpr ⟨?_, ?_, hback⟩
    all_goals
      intro hblank
      rw [hblank] at hsolid
      exact absurd hsolid (by decide)

/-! ### Whole greetings -/

theorem length_render (g : Greeting) : g.render.length = size := by
  rw [render, List.length_append, length_padLine, length_padLine]
  rfl

/-- The line of a salt is the part of its symbols that it shows. -/
theorem exists_readLine_salt (salt : Octets) :
    ∃ line, Utf8.encode line = (Base64.encode salt).take (lineSize - 1) ∧
      readLine (padLine (Base64.encode salt)) = .ok line := by
  have hgraphic : ∀ b ∈ (Base64.encode salt).take (lineSize - 1),
      0x20 < b.toNat ∧ b.toNat < 0x7F :=
    fun b hb => Base64.graphic_of_mem_encode (List.mem_of_mem_take hb)
  have hline := Utf8.encode_map_ofNat fun b hb => Nat.lt_succ_of_lt (hgraphic b hb).2
  refine ⟨_, hline, ?_⟩
  rw [readLine_padLine hline.symm, Text.dropEndWhile_of_getLast?]
  intro c hc
  obtain ⟨b, hb, rfl⟩ := List.mem_map.mp (List.mem_of_getLast? hc)
  have hb := hgraphic b hb
  have hcode : 0x20 < (Char.ofNat b.toNat).toNat := by
    rw [Utf8.toNat_ofNat (.inl (by omega))]
    exact hb.1
  refine isFiller_eq_false_iff.mpr ⟨?_, ?_, ?_⟩
  all_goals
    intro hfiller
    rw [hfiller] at hcode
    exact absurd hcode (by decide)

/-- What comes of a rendered greeting depends on what its second line shows of the salt. -/
theorem exists_parse_render (h : g.Presentable) :
    ∃ line, Utf8.encode line = (Base64.encode g.salt).take (lineSize - 1) ∧
      parse g.render = (readSalt line).map fun salt => { g with salt } := by
  obtain ⟨line, hencode, hsalt⟩ := exists_readLine_salt g.salt
  have hshown : (Utf8.ofString g.identity).take (lineSize - 1) = Utf8.encode g.identity.toList :=
    List.take_of_length_le h.fits
  have hidentity : readLine (padLine (Utf8.ofString g.identity)) = .ok g.identity.toList := by
    rw [readLine_padLine hshown, dropFiller_identity h]
  have hfront : g.render.take lineSize = padLine (Utf8.ofString g.identity) := by
    rw [render, ← length_padLine (Utf8.ofString g.identity), List.take_left]
  have hback : g.render.drop lineSize = padLine (Base64.encode g.salt) := by
    rw [render, ← length_padLine (Utf8.ofString g.identity), List.drop_left]
  refine ⟨line, hencode, ?_⟩
  rw [parse, if_neg (not_not.mpr (length_render g)), hfront, hback, hidentity, hsalt]
  simp only [bind, Except.bind, readIdentity_identity h, pure, Except.pure, Except.map]

/-- A salt that fits comes back. -/
theorem parse_render_of_fitting (h : g.Presentable) (some : g.salt ≠ [])
    (fitting : g.salt.length ≤ 45) : parse g.render = .ok g := by
  obtain ⟨line, hline, hparse⟩ := exists_parse_render h
  have hlength := Base64.length_encode g.salt
  rw [List.take_of_length_le (by simp only [lineSize]; omega)] at hline
  rw [hparse, readSalt, hline, Base64.decode_encode]
  cases hsalt : g.salt with
  | nil => exact absurd hsalt some
  | cons => simp [Except.map, ← hsalt]

/-- A greeting without salt is refused. -/
theorem parse_render_of_saltless (h : g.Presentable) (none : g.salt = []) :
    parse g.render = .error .emptySalt := by
  obtain ⟨line, hline, hparse⟩ := exists_parse_render h
  rw [hparse, readSalt, hline, none]
  rfl

/-- Of a salt that is too long a line shows no whole groups, so that it is refused. -/
theorem parse_render_of_overlong (h : g.Presentable) (overlong : 45 < g.salt.length) :
    ∃ fault, parse g.render = .error (.invalidSalt fault) := by
  obtain ⟨line, hline, hparse⟩ := exists_parse_render h
  have hlength := Base64.length_encode g.salt
  cases hdecode : Base64.decode (Utf8.encode line) with
  | error fault => exact ⟨fault, by simp only [hparse, readSalt, hdecode, Except.map]⟩
  | ok bytes =>
    -- the line shows all of its 63 symbols, which is no multiple of four
    have hwhole := Base64.length_of_decode_eq_ok hdecode
    rw [hline, List.length_take, lineSize] at hwhole
    omega

end Wire.Greeting

namespace Handshake

open Wire

/-- A rendered greeting whose identity can be read comes back with its salt; without salt, or with
one that does not fit in a line, it is refused. -/
theorem greeting_of_render {g : Greeting} (h : g.Presentable) :
    g.render.length = Greeting.size ∧
      (1 ≤ g.salt.length → g.salt.length ≤ 45 → greeting g.render = .ok g) ∧
      (g.salt = [] →
        greeting g.render = .error (.handshake GreetingFault.emptySalt.message)) ∧
      (45 < g.salt.length → ∃ fault : Base64.Fault,
        greeting g.render = .error (.handshake (GreetingFault.invalidSalt fault).message)) := by
  refine ⟨Greeting.length_render g, fun some fitting => ?_, fun none => ?_, fun overlong => ?_⟩
  · rw [greeting, Greeting.parse_render_of_fitting h (List.length_pos_iff.mp some) fitting]
    rfl
  · rw [greeting, Greeting.parse_render_of_saltless h none]
    rfl
  · obtain ⟨fault, hparse⟩ := Greeting.parse_render_of_overlong h overlong
    refine ⟨fault, ?_⟩
    rw [greeting, hparse]
    rfl

/-- One octet of salt comes back; none, or one more than fit, are refused. -/
theorem greeting_of_render_by_salt :
    let g (salt : Octets) : Greeting := ⟨"2.11.1", "Binary", some "é", salt⟩
    greeting (g [7]).render = .ok (g [7]) ∧
      greeting (g []).render = .error (.handshake "greeting has an empty salt") ∧
      ∃ fault : Base64.Fault, greeting (g (List.replicate 46 7)).render =
        .error (.handshake (GreetingFault.invalidSalt fault).message) := by
  intro g
  have h : (g []).Presentable :=
    { version := by decide
      version_solid := by decide
      protocol_solid := by decide
      protocol_front := by decide
      protocol_back := by decide
      uuid := by decide
      uuid_solid := by decide
      uuid_back := by decide
      fits := by decide }
  exact ⟨(greeting_of_render (h.withSalt [7])).2.1 (by decide) (by decide),
    (greeting_of_render h).2.2.1 rfl,
    (greeting_of_render (h.withSalt (List.replicate 46 7))).2.2.2 (by decide)⟩

end Handshake

end Switchboard
