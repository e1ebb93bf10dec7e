import Mathlib.Data.Prod.Lex
import Switchboard.Proofs.Establishing.Steps

/-!
# From the greeting to the reader

Three read the server's octets one after the other: who waits for the greeting, who waits for the
reply to the request for authentication, and the reader.  What comes of opening a connection depends
on the octets alone, however they are cut into pieces, and each octet is read by exactly one of
them.

## Main definitions

- `Establishing.verdict?` — what is to come of opening a connection, by the server's octets
- `Establishing.State.Sound` — which octets have been read, and what they said

## Main statements

- `Establishing.verdict?_append` — what is decided stays decided, whatever the server says next
- `Establishing.State.Sound.advance` — what every step preserves
- `Establishing.Run.loses_no_octet` — what has come of opening the connection, and what the reader
  has heard
-/

namespace Switchboard

open Wire

namespace Handshake

variable {read arrived : Octets}

theorem greeting_eq_ok_iff {g : Greeting} :
    greeting read = .ok g ↔ Greeting.parse read = .ok g := by
  rw [greeting]
  cases Greeting.parse read <;> simp [Except.mapError]

theorem greeting_eq_error_iff {fault : Fault} :
    greeting read = .error fault ↔
      ∃ f, Greeting.parse read = .error f ∧ .handshake f.message = fault := by
  rw [greeting]
  cases Greeting.parse read <;> simp [Except.mapError]

/-- Whoever reads the greeting loses nothing. -/
theorem fill_append (read arrived : Octets) :
    (fill read arrived).1 ++ (fill read arrived).2 = read ++ arrived := by
  rw [fill, List.append_assoc, List.take_append_drop]

/-- Whoever reads the greeting reads nothing behind it. -/
theorem length_fill_le (h : read.length ≤ Greeting.size) (arrived : Octets) :
    (fill read arrived).1.length ≤ Greeting.size := by
  have htaken : (arrived.take (Greeting.size - read.length)).length ≤
      Greeting.size - read.length := List.length_take_le ..
  rw [fill, List.length_append]
  omega

/-- Whoever has not got the whole greeting takes something of what has arrived. -/
theorem length_fill_drop_lt {count : ℕ} (partly : read.length < Greeting.size) (some : 0 < count)
    (h : arrived ≠ []) :
    ((fill read (arrived.take count)).2 ++ arrived.drop count).length < arrived.length := by
  have hlength := List.length_pos_iff.mpr h
  simp only [fill, List.length_append, List.length_drop, List.length_take]
  omega

end Handshake

namespace Establishing

/-! ### What the server's octets come to -/

/-- What the first frame says about the credentials: a fault, or the octets behind the frame if they
are accepted. -/
def replyVerdict? (stream : Octets) : Option (Except Fault Octets) :=
  match Frame.decode stream with
  | .error f => some (.error (.framing f.message))
  | .ok none => none
  | .ok (some (m, n)) =>
    if m.header.sync ≠ 1 then
      some (.error (.handshake ("auth reply carries sync " ++ toString m.header.sync.toNat ++
        ", expected 1")))
    else
      match m.header.code with
      | .ok => some (.ok (stream.drop n))
      | .error _ => some (.error (.authentication ((Body.errorText? m.body).getD "unknown error")))
      | code => some (.error (.handshake ("unexpected auth reply code " ++ code.inspect)))

/-- What is to come of opening a connection when the server says the octets: a fault, or the octets
that are the reader's; `none` while more octets have to come. -/
def verdict? (credentials : Option Credentials) (stream : Octets) : Option (Except Fault Octets) :=
  if stream.length < Greeting.size then none
  else
    match Greeting.parse (stream.take Greeting.size) with
    | .error f => some (.error (.handshake f.message))
    | .ok g =>
      match credentials with
      | none => some (.ok (stream.drop Greeting.size))
      | some c =>
        match Handshake.request c g 1 with
        | .error f => some (.error f)
        | .ok _ => replyVerdict? (stream.drop Greeting.size)

variable {credentials : Option Credentials} {stream buffer rest : Octets} {g : Greeting}
  {c : Credentials} {m : Message} {n : ℕ} {fault : Fault} {verdict : Except Fault Octets}

/-- The octets begin with the greeting. -/
structure Greets (stream : Octets) (g : Greeting) : Prop where
  whole : Greeting.size ≤ stream.length
  parse : Greeting.parse (stream.take Greeting.size) = .ok g

theorem Greets.append (h : Greets stream g) (x : Octets) : Greets (stream ++ x) g := by
  refine ⟨?_, ?_⟩
  · rw [List.length_append]
    exact Nat.le_add_right_of_le h.whole
  · rw [List.take_append_of_le_length h.whole]
    exact h.parse

theorem Greets.verdict?_guest (h : Greets stream g) :
    verdict? none stream = some (.ok (stream.drop Greeting.size)) := by
  rw [verdict?, if_neg (Nat.not_lt_of_le h.whole), h.parse]

theorem Greets.verdict?_unprepared (h : Greets stream g)
    (request : Handshake.request c g 1 = .error fault) :
    verdict? (some c) stream = some (.error fault) := by
  rw [verdict?, if_neg (Nat.not_lt_of_le h.whole), h.parse]
  simp only [request]

theorem Greets.verdict?_asked {frame : Octets} (h : Greets stream g)
    (request : Handshake.request c g 1 = .ok frame) :
    verdict? (some c) stream = replyVerdict? (stream.drop Greeting.size) := by
  rw [verdict?, if_neg (Nat.not_lt_of_le h.whole), h.parse]
  simp only [request]

theorem verdict?_of_unwelcome {f : GreetingFault} (whole : Greeting.size ≤ stream.length)
    (parse : Greeting.parse (stream.take Greeting.size) = .error f) :
    verdict? credentials stream = some (.error (.handshake f.message)) := by
  rw [verdict?, if_neg (Nat.not_lt_of_le whole), parse]

/-! ### What the reply says -/

/-- It is what the client makes of the reply. -/
theorem replyVerdict?_eq (buffer : Octets) :
    replyVerdict? buffer =
      match Handshake.firstFrame buffer with
      | .error f => some (.error f)
      | .ok none => none
      | .ok (some (m, rest)) =>
        match Handshake.replyFault? m Simulation.Attempt.authSync.1 with
        | some f => some (.error f)
        | none => some (.ok rest) := by
  have hsync : Simulation.Attempt.authSync.1 = 1 := rfl
  have htext : toString (1 : UInt64).toNat = "1" := rfl
  rw [replyVerdict?, Handshake.firstFrame, hsync]
  rcases Frame.decode buffer with f | (_ | ⟨m, n⟩)
  · rfl
  · rfl
  · simp only [Handshake.replyFault?]
    by_cases hother : m.header.sync ≠ 1
    · simp only [if_pos hother, htext, String.append_assoc]
      rfl
    · simp only [if_neg hother]
      cases m.header.code <;> rfl

/-- What a reply means does not depend on the octets behind it. -/
theorem replyVerdict?_append (h : replyVerdict? stream = some verdict) (x : Octets) :
    replyVerdict? (stream ++ x) = some (verdict.map (· ++ x)) := by
  unfold replyVerdict? at h ⊢
  cases hdecode : Frame.decode stream with
  | error f =>
    rw [hdecode] at h
    rw [Frame.decode_append (by rw [hdecode]; exact nofun), hdecode]
    cases h
    rfl
  | ok found =>
    cases found with
    | none =>
      rw [hdecode] at h
      cases h
    | some found =>
      obtain ⟨m, n⟩ := found
      rw [hdecode] at h
      rw [Frame.decode_append (by rw [hdecode]; exact nofun), hdecode]
      dsimp only at h ⊢
      rw [List.drop_append_of_le_length (Frame.decode_used hdecode).2]
      by_cases hother : m.header.sync ≠ 1
      · rw [if_pos hother] at h ⊢
        cases h
        rfl
      · rw [if_neg hother] at h ⊢
        generalize m.header.code = code at h ⊢
        cases code <;> cases h <;> rfl

/-- What is decided stays decided, whatever the server says next. -/
theorem verdict?_append (h : verdict? credentials stream = some verdict) (x : Octets) :
    verdict? credentials (stream ++ x) = some (verdict.map (· ++ x)) := by
  unfold verdict? at h
  split at h
  · cases h
  next hshort =>
  have hwhole := Nat.le_of_not_lt hshort
  cases hparse : Greeting.parse (stream.take Greeting.size) with
  | error f =>
    rw [hparse] at h
    cases h
    have htake : (stream ++ x).take Greeting.size = stream.take Greeting.size :=
      List.take_append_of_le_length hwhole
    refine verdict?_of_unwelcome ?_ (htake ▸ hparse)
    rw [List.length_append]
    exact Nat.le_add_right_of_le hwhole
  | ok g =>
    have hgreets := Greets.append ⟨hwhole, hparse⟩ x
    have hdrop : (stream ++ x).drop Greeting.size = stream.drop Greeting.size ++ x :=
      List.drop_append_of_le_length hwhole
    rw [hparse] at h
    cases credentials with
    | none =>
      cases h
      rw [hgreets.verdict?_guest, hdrop]
      rfl
    | some c =>
      dsimp only at h
      cases hrequest : Handshake.request c g 1 with
      | error f =>
        rw [hrequest] at h
        cases h
        exact hgreets.verdict?_unprepared hrequest
      | ok frame =>
        rw [hrequest] at h
        rw [hgreets.verdict?_asked hrequest, hdrop]
        exact replyVerdict?_append h x

/-! ### Who has read what -/

/-- The server has been asked to accept the credentials. -/
def Asked (credentials : Option Credentials) (g : Greeting) : Prop :=
  ∃ c frame, credentials = some c ∧ Handshake.request c g 1 = .ok frame

theorem verdict?_of_asked (hg : Greets stream g) (h : Asked credentials g) :
    verdict? credentials stream = replyVerdict? (stream.drop Greeting.size) := by
  obtain ⟨c, frame, rfl, request⟩ := h
  exact hg.verdict?_asked request

/-- Which octets have been read so far, and what they said. -/
def State.Sound (credentials : Option Credentials) (s : State) : Prop :=
  match s.phase with
  | .dialing => s.sent = s.pending
  | .greeting read => s.sent = read ++ s.pending ∧ read.length ≤ Greeting.size
  | .challenged g =>
    Greets s.sent g ∧ credentials ≠ none ∧ s.sent.drop Greeting.size = s.pending
  | .requesting g _ =>
    Greets s.sent g ∧ Asked credentials g ∧ s.sent.drop Greeting.size = s.pending
  | .replying g buffer =>
    Greets s.sent g ∧ Asked credentials g ∧ s.sent.drop Greeting.size = buffer ++ s.pending
  | .opened => ∃ rest, verdict? credentials s.sent = some (.ok rest) ∧
      Frame.Takes rest s.heard (s.channel.unread ++ s.pending)
  | .failed fault => verdict? credentials s.sent = some (.error fault)
  | .starved => verdict? credentials s.sent = none
  | .severed => True

variable {address : Address} {s s' : State}

/-- The whole greeting has been read, and nothing behind it. -/
theorem State.Sound.greeting {read : Octets} (h : s.Sound credentials)
    (phase : s.phase = .greeting read) (whole : read.length = Greeting.size) :
    Greeting.size ≤ s.sent.length ∧ s.sent.take Greeting.size = read ∧
      s.sent.drop Greeting.size = s.pending := by
  rw [State.Sound, phase] at h
  obtain ⟨hsent, -⟩ := h
  rw [hsent, ← whole, List.length_append]
  exact ⟨Nat.le_add_right .., List.take_left .., List.drop_left ..⟩

theorem State.Sound.replying {buffer : Octets} (h : s.Sound credentials)
    (phase : s.phase = .replying g buffer) :
    verdict? credentials s.sent = replyVerdict? (buffer ++ s.pending) := by
  rw [State.Sound, phase] at h
  obtain ⟨hgreets, hasked, hsent⟩ := h
  rw [verdict?_of_asked hgreets hasked, hsent]

/-- Octets that arrive change nothing that is known. -/
theorem State.Sound.arrive (h : s.Sound credentials) (listens : s.phase.Listens) (chunk : Octets) :
    (s.arrive chunk).Sound credentials := by
  obtain ⟨phase, sent, pending, channel, heard⟩ := s
  cases phase with
  | dialing => exact congrArg (· ++ chunk) h
  | greeting read =>
    refine ⟨?_, h.2⟩
    show sent ++ chunk = read ++ (pending ++ chunk)
    rw [← List.append_assoc, ← h.1]
  | challenged g | requesting g rest =>
    refine ⟨h.1.append chunk, h.2.1, ?_⟩
    show (sent ++ chunk).drop Greeting.size = pending ++ chunk
    rw [List.drop_append_of_le_length h.1.whole, h.2.2]
  | replying g buffer =>
    refine ⟨h.1.append chunk, h.2.1, ?_⟩
    show (sent ++ chunk).drop Greeting.size = buffer ++ (pending ++ chunk)
    rw [List.drop_append_of_le_length h.1.whole, h.2.2, List.append_assoc]
  | opened =>
    obtain ⟨rest, hverdict, htakes⟩ := h
    refine ⟨rest ++ chunk, verdict?_append hverdict chunk, ?_⟩
    show Frame.Takes _ _ (channel.unread ++ (pending ++ chunk))
    rw [← List.append_assoc]
    exact htakes.append chunk
  | failed | starved | severed => exact listens.elim

theorem State.Sound.advance (h : s.Sound credentials) (unheard : s.phase.Underway → s.heard = [])
    (step : Advance address credentials s s') : s'.Sound credentials := by
  have hs := h
  cases step with
  | dialed phase =>
    rw [State.Sound, phase] at h
    exact ⟨h, Nat.zero_le _⟩
  | @readsGreeting read phase partly count =>
    rw [State.Sound, phase] at h
    refine ⟨?_, Handshake.length_fill_le h.2 _⟩
    show s.sent = (Handshake.fill read (s.pending.take count)).1 ++
      ((Handshake.fill read (s.pending.take count)).2 ++ s.pending.drop count)
    rw [← List.append_assoc, Handshake.fill_append, List.append_assoc, List.take_append_drop, h.1]
  | unwelcome phase whole greeting =>
    obtain ⟨hwhole, htake, -⟩ := hs.greeting phase whole
    obtain ⟨f, hparse, rfl⟩ := Handshake.greeting_eq_error_iff.mp greeting
    exact verdict?_of_unwelcome hwhole (htake ▸ hparse)
  | welcome phase whole greeting guest =>
    obtain ⟨hwhole, htake, hdrop⟩ := hs.greeting phase whole
    have hgreets : Greets s.sent _ := ⟨hwhole, htake ▸ Handshake.greeting_eq_ok_iff.mp greeting⟩
    subst guest
    refine ⟨_, hgreets.verdict?_guest, ?_⟩
    show Frame.Takes _ s.heard ([] ++ s.pending)
    rw [unheard (phase ▸ trivial), hdrop]
    exact .nil
  | challenged phase whole greeting user =>
    obtain ⟨hwhole, htake, hdrop⟩ := hs.greeting phase whole
    refine ⟨⟨hwhole, htake ▸ Handshake.greeting_eq_ok_iff.mp greeting⟩, ?_, hdrop⟩
    rw [user]
    exact nofun
  | unprepared phase user request =>
    rw [State.Sound, phase] at h
    subst user
    exact h.1.verdict?_unprepared request
  | prepared phase user request =>
    rw [State.Sound, phase] at h
    exact ⟨h.1, ⟨_, _, user, request⟩, h.2.2⟩
  | writes phase =>
    rw [State.Sound, phase] at h
    exact h
  | requested phase =>
    rw [State.Sound, phase] at h
    exact h
  | @readsReply g buffer phase partly count =>
    rw [State.Sound, phase] at h
    refine ⟨h.1, h.2.1, ?_⟩
    show s.sent.drop Greeting.size = buffer ++ s.pending.take count ++ s.pending.drop count
    rw [List.append_assoc, List.take_append_drop, h.2.2]
  | @garbled g buffer fault phase reply =>
    have hreply : replyVerdict? buffer = some (.error fault) := by rw [replyVerdict?_eq, reply]
    exact (hs.replying phase).trans (replyVerdict?_append hreply _)
  | @rejected g buffer m rest fault phase reply meaning =>
    have hreply : replyVerdict? buffer = some (.error fault) := by
      simp only [replyVerdict?_eq, reply, meaning]
    exact (hs.replying phase).trans (replyVerdict?_append hreply _)
  | @accepted g buffer m rest phase reply meaning =>
    have hreply : replyVerdict? buffer = some (.ok rest) := by
      simp only [replyVerdict?_eq, reply, meaning]
    refine ⟨_, (hs.replying phase).trans (replyVerdict?_append hreply _), ?_⟩
    show Frame.Takes (rest ++ s.pending) s.heard (rest ++ s.pending)
    rw [unheard (phase ▸ trivial)]
    exact .nil

/-- While more has to be read than has arrived, nothing is decided. -/
theorem State.Sound.lacks (h : s.Sound credentials) (lacks : s.Lacks) :
    verdict? credentials s.sent = none := by
  obtain ⟨hpending, ⟨read, phase, hpartly⟩ | ⟨g, buffer, phase, hpartly⟩⟩ := lacks
  · rw [State.Sound, phase] at h
    rw [verdict?, h.1, hpending, List.append_nil, if_pos hpartly]
  · rw [h.replying phase, hpending, List.append_nil, replyVerdict?_eq, hpartly]

/-- What holds as long as things happen. -/
structure Invariant (credentials : Option Credentials) (s : State) : Prop where
  sound : s.Sound credentials
  unheard : s.phase.Underway → s.heard = []
  early : s.phase ≠ .opened → s.stage ≠ .ready

theorem Invariant.advance (h : Invariant credentials s) (step : Advance address credentials s s') :
    Invariant credentials s' := by
  have hearly := h.early step.underway.ne_opened
  have hunheard := h.unheard step.underway
  refine ⟨h.sound.advance h.unheard step, fun _ => ?_, fun hphase => ?_⟩
  · cases step <;> exact hunheard
  · cases step with
    | dialed | challenged => exact nofun
    | welcome | accepted => exact absurd rfl hphase
    | _ => exact hearly

/-- Whatever happens, each octet has been read by exactly one of those who read. -/
theorem Invariant.step (h : Invariant credentials s) (last : Step address credentials s s') :
    Invariant credentials s' := by
  cases last with
  | arrives chunk listens => exact ⟨h.sound.arrive listens chunk, h.unheard, h.early⟩
  | advances step => exact h.advance step
  | starves lacks =>
    exact ⟨h.sound.lacks lacks, False.elim, fun _ => h.early lacks.underway.ne_opened⟩
  | severed underway =>
    exact ⟨trivial, False.elim, fun _ => h.early underway.ne_opened⟩
  | reads service count =>
    have hs := h.sound
    rw [State.Sound, service] at hs
    obtain ⟨rest, hverdict, htakes⟩ := hs
    refine ⟨⟨rest, hverdict, ?_⟩, False.elim, fun hphase => absurd rfl hphase⟩
    show Frame.Takes _ _ (s.channel.unread ++ s.pending.take count ++ s.pending.drop count)
    rwa [List.append_assoc, List.take_append_drop]
  | @hears m n t service frame =>
    have hs := h.sound
    rw [State.Sound, service] at hs
    obtain ⟨rest, hverdict, htakes⟩ := hs
    have hsound : State.Sound credentials { s with
        channel := (s.channel.skip n).moved t, heard := s.heard ++ [m] } := by
      rw [State.Sound, service]
      refine ⟨rest, hverdict, ?_⟩
      show Frame.Takes _ _ (s.channel.unread.drop n ++ s.pending)
      rw [← List.drop_append_of_le_length (Frame.decode_used frame).2]
      exact htakes.snoc (by rw [Frame.decode_append (by rw [frame]; exact nofun), frame])
    refine ⟨hsound, fun hphase => ?_, fun hphase => absurd service hphase⟩
    rw [service] at hphase
    exact hphase.elim
  | @others l service step received unread =>
    have hs := h.sound
    rw [State.Sound, service] at hs
    have hsound : (s.withChannel l).Sound credentials := by
      rw [State.Sound, State.withChannel, service]
      rwa [unread]
    refine ⟨hsound, fun hphase => ?_, fun hphase => absurd service hphase⟩
    rw [State.withChannel, service] at hphase
    exact hphase.elim

theorem Run.sound (h : Run address credentials (start address) s) : Invariant credentials s := by
  induction h with
  | nil => exact ⟨rfl, fun _ => rfl, fun _ => nofun⟩
  | snoc _ last ih => exact ih.step last

/-! ### Coming to an end -/

/-- As long as nothing more has to arrive, opening the connection goes on. -/
theorem State.Sound.advances_or_lacks (h : s.Sound credentials) (underway : s.phase.Underway) :
    (∃ s', Advance address credentials s s') ∨ s.Lacks := by
  cases phase : s.phase with
  | dialing => exact .inl ⟨_, .dialed phase⟩
  | greeting read =>
    have hs := h
    rw [State.Sound, phase] at hs
    rcases Nat.lt_or_eq_of_le hs.2 with hpartly | hwhole
    · by_cases hpending : s.pending = []
      · exact .inr ⟨hpending, .inl ⟨read, phase, hpartly⟩⟩
      · exact .inl ⟨_, .readsGreeting phase hpartly 1 Nat.one_pos hpending⟩
    · cases hgreeting : Handshake.greeting read with
      | error fault => exact .inl ⟨_, .unwelcome phase hwhole hgreeting⟩
      | ok g =>
        cases hcredentials : credentials with
        | none => exact .inl ⟨_, .welcome phase hwhole hgreeting rfl⟩
        | some c => exact .inl ⟨_, .challenged phase hwhole hgreeting rfl⟩
  | challenged g =>
    rw [State.Sound, phase] at h
    obtain ⟨c, hcredentials⟩ := Option.ne_none_iff_exists'.mp h.2.1
    cases hrequest : Handshake.request c g Simulation.Attempt.authSync.1 with
    | error fault => exact .inl ⟨_, .unprepared phase hcredentials hrequest⟩
    | ok frame => exact .inl ⟨_, .prepared phase hcredentials hrequest⟩
  | requesting g rest =>
    by_cases hrest : rest = []
    · exact .inl ⟨_, .requested (hrest ▸ phase)⟩
    · exact .inl ⟨_, .writes phase 1 Nat.one_pos hrest⟩
  | replying g buffer =>
    rcases hreply : Handshake.firstFrame buffer with fault | (_ | ⟨m, rest⟩)
    · exact .inl ⟨_, .garbled phase hreply⟩
    · by_cases hpending : s.pending = []
      · exact .inr ⟨hpending, .inr ⟨g, buffer, phase, hreply⟩⟩
      · exact .inl ⟨_, .readsReply phase hreply 1 Nat.one_pos hpending⟩
    · cases hmeaning : Handshake.replyFault? m Simulation.Attempt.authSync.1 with
      | none => exact .inl ⟨_, .accepted phase hreply hmeaning⟩
      | some fault => exact .inl ⟨_, .rejected phase hreply hmeaning⟩
  | opened | failed | starved | severed =>
    rw [phase] at underway
    exact underway.elim

/-- How much there is still to be done: what is left of the way, and of the octets at hand. -/
def State.work (s : State) : Lex (ℕ × ℕ) :=
  match s.phase with
  | .dialing => toLex (5, 0)
  | .greeting _ => toLex (4, s.pending.length)
  | .challenged _ => toLex (3, 0)
  | .requesting _ rest => toLex (2, rest.length)
  | .replying .. => toLex (1, s.pending.length)
  | _ => toLex (0, 0)

theorem Advance.work_lt (step : Advance address credentials s s') : s'.work < s.work := by
  cases step with
  | @readsGreeting read phase partly count some arrived =>
    have hread := Handshake.length_fill_drop_lt partly some arrived
    rw [State.work, State.work, phase]
    exact Prod.Lex.toLex_lt_toLex.mpr (.inr ⟨rfl, hread⟩)
  | writes phase count some unwritten =>
    have hlength := List.length_pos_iff.mpr unwritten
    rw [State.work, State.work, phase]
    refine Prod.Lex.toLex_lt_toLex.mpr (.inr ⟨rfl, ?_⟩)
    show (List.drop count _).length < _
    rw [List.length_drop]
    exact Nat.sub_lt hlength some
  | readsReply phase partly count some arrived =>
    have hlength := List.length_pos_iff.mpr arrived
    rw [State.work, State.work, phase]
    refine Prod.Lex.toLex_lt_toLex.mpr (.inr ⟨rfl, ?_⟩)
    show (List.drop count _).length < _
    rw [List.length_drop]
    exact Nat.sub_lt hlength some
  | dialed phase | unwelcome phase | welcome phase | challenged phase | unprepared phase
  | prepared phase | requested phase | garbled phase | rejected phase | accepted phase =>
    rw [State.work, State.work, phase]
    refine Prod.Lex.toLex_lt_toLex.mpr (.inl ?_)
    dsimp only
    decide

/-- Opening a connection comes to an end, unless more octets arrive again and again. -/
theorem wellFounded_advance :
    WellFounded fun s' s => Advance address credentials s s' :=
  Subrelation.wf Advance.work_lt (InvImage.wf State.work wellFounded_lt)

/-! ### Opening and hearing -/

/-- The server has accepted the credentials, if there are any, in reply to the request. -/
theorem accepted_of_verdict? (h : verdict? credentials stream = some (.ok rest)) :
    ∃ g, Greets stream g ∧ (credentials = none ∧ rest = stream.drop Greeting.size ∨
      Asked credentials g ∧ ∃ m n,
        Frame.decode (stream.drop Greeting.size) = .ok (some (m, n)) ∧ m.header.sync = 1 ∧
        m.header.code = .ok ∧ rest = (stream.drop Greeting.size).drop n) := by
  unfold verdict? at h
  split at h
  · cases h
  next hshort =>
  split at h
  · cases h
  next g hparse =>
  have hgreets : Greets stream g := ⟨Nat.le_of_not_lt hshort, hparse⟩
  split at h
  · cases h
    exact ⟨g, hgreets, .inl ⟨rfl, rfl⟩⟩
  next c =>
  split at h
  · cases h
  next frame hrequest =>
  unfold replyVerdict? at h
  split at h
  · cases h
  · cases h
  next m n hdecode =>
  split at h
  · cases h
  next hsync =>
  split at h <;> cases h
  next hcode =>
  exact ⟨g, hgreets, .inr ⟨⟨c, frame, rfl, hrequest⟩, m, n, hdecode, not_not.mp hsync, hcode, rfl⟩⟩

/-- What has come of opening a connection is what was to come of it by the server's octets alone,
however they arrived and were read; opening it does not come to an end before that is decided, and
goes on when it is.  A connection with credentials is not in service before the server has accepted
them.  The messages that the reader has taken, in order, and the octets that it has still to
understand make up those behind what was read before. -/
theorem Run.loses_no_octet (h : Run address credentials (start address) s) :
    (s.phase = .opened ∨ (∃ fault, s.phase = .failed fault) ∨ s.phase = .starved →
      (s.phase = .opened ↔ ∃ rest, verdict? credentials s.sent = some (.ok rest)) ∧
      ∀ fault, s.phase = .failed fault ↔ verdict? credentials s.sent = some (.error fault)) ∧
    (s.phase.Underway → (∃ s', Advance address credentials s s') ∨
      s.pending = [] ∧ verdict? credentials s.sent = none) ∧
    WellFounded (fun s' s => Advance address credentials s s') ∧
    (s.stage = .ready → credentials ≠ none → ∃ m n,
      Frame.decode (s.sent.drop Greeting.size) = .ok (some (m, n)) ∧
        m.header.sync = 1 ∧ m.header.code = .ok) ∧
    (s.phase = .opened → ∃ rest, verdict? credentials s.sent = some (.ok rest) ∧
      Frame.Takes rest s.heard (s.channel.unread ++ s.pending) ∧
      s.heard <+: (Frame.drain rest).messages.map Prod.fst ∧
      (s.pending = [] → (∀ m n, Frame.decode s.channel.unread ≠ .ok (some (m, n))) →
        s.heard = (Frame.drain rest).messages.map Prod.fst)) := by
  have hs := h.sound
  have hsound := hs.sound
  refine ⟨?_, fun underway => ?_, wellFounded_advance, fun hready hcredentials => ?_, ?_⟩
  · rintro (hphase | ⟨f, hphase⟩ | hphase) <;> rw [State.Sound, hphase] at hsound <;> rw [hphase]
    · obtain ⟨rest, hverdict, -⟩ := hsound
      simp [hverdict]
    · simp [hsound]
    · simp [hsound]
  · refine (hsound.advances_or_lacks underway).imp_right fun lacks => ?_
    exact ⟨lacks.1, hsound.lacks lacks⟩
  · have hopened : s.phase = .opened := by
      by_contra hphase
      exact hs.early hphase hready
    rw [State.Sound, hopened] at hsound
    obtain ⟨rest, hverdict, -⟩ := hsound
    obtain ⟨g, -, ⟨hguest, -⟩ | ⟨-, m, n, hreply, hsync, hcode, -⟩⟩ := accepted_of_verdict? hverdict
    · exact absurd hguest hcredentials
    · exact ⟨m, n, hreply, hsync, hcode⟩
  · intro hopened
    rw [State.Sound, hopened] at hsound
    obtain ⟨rest, hverdict, htakes⟩ := hsound
    refine ⟨rest, hverdict, htakes, htakes.isPrefix, fun hpending hnone => ?_⟩
    rw [hpending, List.append_nil] at htakes
    rw [htakes.map_drain, Frame.messages_drain_eq_nil hnone, List.map_nil, List.append_nil]

/-- A greeting. -/
def hello : Greeting := ⟨"2.11.0", "Binary", none, List.replicate 20 7⟩

/-- Credentials that any server is asked to accept. -/
def guest : Credentials := ⟨"guest", "", .reversed "chap-sha1"⟩

/-- The greeting is read off a piece that goes on behind it. -/
theorem exists_run_greeting {raw behind : Octets} (whole : raw.length = Greeting.size) :
    ∃ s, Run address credentials (start address) s ∧ s.phase = .greeting raw ∧
      s.pending = behind ∧ s.heard = [] := by
  have hfill : Handshake.fill [] ((raw ++ behind).take (raw ++ behind).length) = (raw, behind) := by
    rw [List.take_length, Handshake.fill, List.length_nil, Nat.sub_zero, ← whole,
      List.nil_append, List.take_left, List.drop_left]
  have hsome : 0 < (raw ++ behind).length := by
    rw [List.length_append, whole]
    exact Nat.add_pos_left (by decide) _
  have harrived : Run address credentials (start address) _ :=
    Run.nil.snoc (.arrives (raw ++ behind) trivial)
  have hdialed := harrived.snoc (.advances (.dialed rfl))
  have hread := hdialed.snoc (.advances (.readsGreeting rfl (by decide) (raw ++ behind).length hsome
    (List.length_pos_iff.mp hsome)))
  refine ⟨_, hread, ?_, ?_, rfl⟩
  · exact congrArg (fun filled => Phase.greeting filled.1) hfill
  · show (Handshake.fill [] _).2 ++ (raw ++ behind).drop (raw ++ behind).length = behind
    rw [List.drop_length, List.append_nil]
    exact congrArg Prod.snd hfill

/-- What follows a reply is left. -/
theorem firstFrame_append {f : Octets} (h : Frame.Carries f m) (x : Octets) :
    Handshake.firstFrame (f ++ x) = .ok (some (m, x)) := by
  have hne : Frame.decode f ≠ .ok none := by
    rw [h]
    exact nofun
  rw [Handshake.firstFrame, Frame.decode_append hne, h]
  exact congrArg (fun rest => Except.ok (some (m, rest))) (List.drop_left ..)

set_option maxRecDepth 4000 in
/-- Greeting, reply and the front of the next message arrive at once, and are read as one piece; the
rest of that message arrives later. -/
theorem loses_no_octet_joined_pieces :
    ∃ s, Run default (some guest) (start default) s ∧ s.stage = .ready ∧
      (∃ m n, Frame.decode (s.sent.drop Greeting.size) = .ok (some (m, n)) ∧
        m.header.sync = 1 ∧ m.header.code = .ok) ∧
      ∃ rest, verdict? (some guest) s.sent = some (.ok rest) ∧
        s.heard = [⟨⟨7, .ok, none⟩, []⟩] ∧
        s.heard = (Frame.drain rest).messages.map Prod.fst := by
  obtain ⟨raw, hraw, hgreeting⟩ :
      ∃ raw, raw.length = Greeting.size ∧ Handshake.greeting raw = .ok hello :=
    ⟨hello.render, by rfl, Handshake.greeting_eq_ok_iff.mpr (by rfl)⟩
  obtain ⟨frame, hrequest, hframe⟩ :
      ∃ frame, Handshake.request guest hello 1 = .ok frame ∧ frame ≠ [] :=
    ⟨_, rfl, List.cons_ne_nil _ _⟩
  obtain ⟨reply, hreply⟩ : ∃ f, Frame.Carries f ⟨⟨1, .ok, none⟩, []⟩ :=
    ⟨_, Frame.carries_of_encode (h := ⟨1, .ok, none⟩) rfl (.inl rfl)⟩
  obtain ⟨next, hnext⟩ : ∃ f, Frame.Carries f ⟨⟨7, .ok, none⟩, []⟩ :=
    ⟨_, Frame.carries_of_encode (h := ⟨7, .ok, none⟩) rfl (.inl rfl)⟩
  obtain ⟨s₁, h₁, hphase₁, hpending₁, hheard₁⟩ :
      ∃ s, Run default (some guest) (start default) s ∧ s.phase = .greeting raw ∧
        s.pending = reply ++ next.take 2 ∧ s.heard = [] := exists_run_greeting hraw
  have hpiece : 0 < (reply ++ next.take 2).length := by
    rw [List.length_append]
    exact Nat.add_pos_left (Frame.decode_used hreply).1 _
  -- the reply is read, and something of the next message
  obtain ⟨s₂, h₂, hphase₂, hpending₂, hheard₂⟩ :
      ∃ s, Run default (some guest) (start default) s ∧
        s.phase = .replying hello (reply ++ next.take 2) ∧ s.pending = [] ∧ s.heard = [] := by
    have hchallenged := h₁.snoc (.advances (.challenged hphase₁ hraw hgreeting rfl))
    have hprepared := hchallenged.snoc (.advances (.prepared rfl rfl hrequest))
    have hwritten := hprepared.snoc
      (.advances (.writes rfl frame.length (List.length_pos_iff.mpr hframe) hframe))
    rw [List.drop_length] at hwritten
    have hrequested := hwritten.snoc (.advances (.requested rfl))
    have hread := hrequested.snoc
      (.advances (.readsReply rfl rfl _ hpiece (hpending₁ ▸ List.length_pos_iff.mp hpiece)))
    refine ⟨_, hread, ?_, ?_, hheard₁⟩
    · show Phase.replying hello ([] ++ s₁.pending.take _) = _
      rw [hpending₁, List.take_length, List.nil_append]
    · show s₁.pending.drop _ = []
      rw [hpending₁, List.drop_length]
  -- the rest of the next message goes to the reader
  obtain ⟨s₃, h₃, hphase₃, hstage₃, hstate₃, hunread₃, hpending₃, hheard₃⟩ :
      ∃ s, Run default (some guest) (start default) s ∧ s.phase = .opened ∧ s.stage = .ready ∧
        s.channel.state = Interleaving.start default hello Simulation.Attempt.authSync.2 ∧
        s.channel.unread = next ∧ s.pending = [] ∧ s.heard = [] := by
    have haccepted := h₂.snoc
      (.advances (.accepted hphase₂ (firstFrame_append hreply _) rfl))
    have harrived := haccepted.snoc (.arrives (next.drop 2) trivial)
    have hread := harrived.snoc (.reads rfl (next.drop 2).length)
    refine ⟨_, hread, rfl, rfl, rfl, ?_, ?_, hheard₂⟩
    · show next.take 2 ++ (s₂.pending ++ next.drop 2).take _ = next
      rw [hpending₂, List.nil_append, List.take_length, List.take_append_drop]
    · show (s₂.pending ++ next.drop 2).drop _ = []
      rw [hpending₂, List.nil_append, List.drop_length]
  have hframe₃ : Frame.decode s₃.channel.unread = .ok (some (⟨⟨7, .ok, none⟩, []⟩, next.length)) :=
    hunread₃ ▸ hnext
  have hignored : Interleaving.Step s₃.channel.state (.reader (.take ⟨⟨7, .ok, none⟩, []⟩))
      s₃.channel.state := by
    rw [hstate₃]
    exact .reader (.ignored rfl)
  have h := h₃.snoc (.hears hphase₃ hframe₃ hignored)
  obtain ⟨-, -, -, haccepted, hheard⟩ := h.loses_no_octet
  obtain ⟨rest, hverdict, -, -, hall⟩ := hheard hphase₃
  have hnone : ∀ m n, Frame.decode (s₃.channel.unread.drop next.length) ≠ .ok (some (m, n)) := by
    rw [hunread₃, List.drop_length]
    exact nofun
  have htook : s₃.heard ++ [⟨⟨7, .ok, none⟩, []⟩] = [⟨⟨7, .ok, none⟩, []⟩] := by rw [hheard₃]; rfl
  exact ⟨_, h, hstage₃, haccepted hstage₃ nofun, rest, hverdict, htook, hall hpending₃ hnone⟩

end Establishing

end Switchboard
