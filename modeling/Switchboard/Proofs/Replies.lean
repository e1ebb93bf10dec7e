import Switchboard.Proofs.FrameSequences
import Switchboard.Proofs.Inflight.Table
import Switchboard.Simulation.Pump

/-!
# Replies to requests in flight

Replies come in any order, some of them twice and some to requests that nobody is waiting for.  What
they come to depends on the first reply to each pending request alone: the table is a map from ids,
and delivering replies takes from it what it holds under theirs.

## Main definitions

- `firstReply` — the first of several replies with an id
- `Inflight.Answered` — the table after replies
- `Connection.Replied` — the connection after replies, as its users see it
- `Simulation.Reader.serve` — the reader at work while octets arrive

## Main statements

- `Inflight.Answered.congr`, `Inflight.Answered.unique` — only first replies matter
- `Simulation.Reader.serves` — the reader delivers what the frames carry, however they arrive
- `Simulation.Reader.replies_matched_by_sync` — every request gets the first reply with its id
-/

namespace Switchboard

open Wire

/-! ### First replies -/

/-- The first of the replies with the id. -/
def firstReply (replies : List Message) (sync : UInt64) : Option Message :=
  replies.find? fun m => m.header.sync = sync

theorem firstReply_cons (m : Message) (replies : List Message) (sync : UInt64) :
    firstReply (m :: replies) sync =
      if m.header.sync = sync then some m else firstReply replies sync := by
  by_cases h : m.header.sync = sync <;> simp [firstReply, h]

theorem firstReply_eq_none_iff {replies : List Message} {sync : UInt64} :
    firstReply replies sync = none ↔ ∀ m ∈ replies, m.header.sync ≠ sync := by
  simp [firstReply]

/-- The first reply with an id is the first of those with it. -/
theorem firstReply_eq_head?_filter (replies : List Message) (sync : UInt64) :
    firstReply replies sync = (replies.filter fun m => m.header.sync = sync).head? :=
  List.head?_filter.symm

/-- A reply behind another one with its id is not the first with any. -/
theorem firstReply_append_cons {front : List Message} {m : Message} (back : List Message)
    {sync : UInt64} (h : m.header.sync = sync → ∃ m' ∈ front, m'.header.sync = sync) :
    firstReply (front ++ m :: back) sync = firstReply (front ++ back) sync := by
  induction front with
  | nil =>
    rw [List.nil_append, List.nil_append, firstReply_cons, if_neg]
    intro heq
    obtain ⟨_, hmem, -⟩ := h heq
    cases hmem
  | cons m₀ front ih =>
    rw [List.cons_append, List.cons_append, firstReply_cons, firstReply_cons]
    by_cases h₀ : m₀.header.sync = sync
    · rw [if_pos h₀, if_pos h₀]
    · rw [if_neg h₀, if_neg h₀]
      apply ih
      intro heq
      obtain ⟨m', hmem, hm'⟩ := h heq
      rcases List.mem_cons.mp hmem with rfl | hmem
      · exact absurd hm' h₀
      · exact ⟨m', hmem, hm'⟩

/-! ### The table after replies -/

namespace Inflight

/-- `t'` is `t` after the replies.  An entry with a reply has gone, and its slot has the outcome
that the first one means, if it waited; everything else is as it was. -/
structure Answered (t : Inflight) (replies : List Message) (t' : Inflight) : Prop where
  entries : t'.entries = t.entries.filter fun e => (firstReply replies e.sync).isNone
  size : t'.slots.size = t.slots.size
  settled : ∀ e ∈ t.entries, ∀ m, firstReply replies e.sync = some m →
    t'.slot e.slot = settledSlot (t.slot e.slot) (.delivered (Connection.replyOutcome m))
  kept : ∀ k, (∀ e ∈ t.entries, firstReply replies e.sync ≠ none → e.slot ≠ k) →
    t'.slot k = t.slot k

variable {t t₁ t' : Inflight} {m : Message} {replies replies' : List Message}

theorem answered_nil (t : Inflight) : t.Answered [] t := by
  refine ⟨?_, rfl, ?_, fun _ _ => rfl⟩
  · simp [firstReply]
  · intro e _ m hm
    cases hm

/-- One reply and then the others. -/
theorem Withdrawn.answered (hk : t.Keyed)
    (h : t.Withdrawn [m.header.sync] (.delivered (Connection.replyOutcome m)) t₁)
    (h' : t₁.Answered replies t') : t.Answered (m :: replies) t' := by
  have hmem : ∀ e, e ∈ t₁.entries ↔ e ∈ t.entries ∧ m.header.sync ≠ e.sync := by
    intro e
    rw [h.entries, List.mem_filter, decide_eq_true_eq, List.mem_singleton, ne_comm]
  -- a slot of `t₁` whose entry is still there has not been touched by the first reply
  have hslot : ∀ e ∈ t₁.entries, t₁.slot e.slot = t.slot e.slot := by
    intro e he
    refine h.kept e.slot fun e' he' hsync heq => ?_
    have hsame := hk.eq_of_slot he' ((hmem e).mp he).1 heq
    rw [hsame, List.mem_singleton] at hsync
    exact ((hmem e).mp he).2 hsync.symm
  refine ⟨?_, h'.size.trans h.size, ?_, ?_⟩
  · rw [h'.entries, h.entries, List.filter_filter]
    congr 1
    funext e
    rw [firstReply_cons]
    by_cases hsync : m.header.sync = e.sync
    · simp [hsync]
    · simp [hsync, Ne.symm hsync]
  · intro e he m' hm'
    rw [firstReply_cons] at hm'
    by_cases hsync : m.header.sync = e.sync
    · rw [if_pos hsync] at hm'
      cases hm'
      rw [h'.kept e.slot, h.settled e he (List.mem_singleton.mpr hsync.symm)]
      intro e' he' _ heq
      have hsame := hk.eq_of_slot ((hmem e').mp he').1 he heq
      rw [hsame] at he'
      exact ((hmem e).mp he').2 hsync
    · rw [if_neg hsync] at hm'
      have he₁ := (hmem e).mpr ⟨he, hsync⟩
      rw [h'.settled e he₁ m' hm', hslot e he₁]
  · intro k hk'
    rw [h'.kept k, h.kept k]
    · intro e he hsync
      refine hk' e he ?_
      rw [firstReply_cons, if_pos (List.mem_singleton.mp hsync).symm]
      exact Option.some_ne_none m
    · intro e he hfirst
      obtain ⟨he, hsync⟩ := (hmem e).mp he
      refine hk' e he ?_
      rwa [firstReply_cons, if_neg hsync]

/-- Replies that come first for the same pending requests are the same replies. -/
theorem Answered.congr (h : t.Answered replies t')
    (heq : ∀ e ∈ t.entries, firstReply replies' e.sync = firstReply replies e.sync) :
    t.Answered replies' t' := by
  refine ⟨?_, h.size, ?_, ?_⟩
  · rw [h.entries]
    apply List.filter_congr
    intro e he
    rw [heq e he]
  · intro e he m hm
    rw [heq e he] at hm
    exact h.settled e he m hm
  · intro k hk
    refine h.kept k fun e he hfirst => hk e he ?_
    rwa [heq e he]

/-- Nothing is left open about the table after replies. -/
theorem Answered.unique (h : t.Answered replies t₁) (h' : t.Answered replies t') : t' = t₁ := by
  have hslot : ∀ k, t'.slot k = t₁.slot k := by
    intro k
    by_cases hanswered : ∃ e ∈ t.entries, firstReply replies e.sync ≠ none ∧ e.slot = k
    · obtain ⟨e, he, hfirst, rfl⟩ := hanswered
      obtain ⟨m, hm⟩ := Option.ne_none_iff_exists'.mp hfirst
      rw [h'.settled e he m hm, h.settled e he m hm]
    · have hnone : ∀ e ∈ t.entries, firstReply replies e.sync ≠ none → e.slot ≠ k :=
        fun e he hfirst heq => hanswered ⟨e, he, hfirst, heq⟩
      rw [h'.kept k hnone, h.kept k hnone]
  have hentries : t'.entries = t₁.entries := h'.entries.trans h.entries.symm
  have hslots : t'.slots = t₁.slots := by
    apply Array.ext (h'.size.trans h.size.symm)
    intro k hk hk₁
    have hk' := hslot k
    simpa [slot_eq, hk, hk₁] using hk'
  cases t'
  cases t₁
  simp_all

end Inflight

/-! ### The connection after replies -/

namespace Connection

/-- The connection once all the replies have been delivered, one after the other. -/
def completeAll (c : Connection) (replies : List Message) : Connection :=
  replies.foldl complete c

variable {c : Connection} {replies replies' : List Message}

/-- Replies change nothing but the requests in flight. -/
theorem completeAll_eq (c : Connection) (replies : List Message) :
    c.completeAll replies = { c with inflight := (c.completeAll replies).inflight } := by
  induction replies generalizing c with
  | nil => rfl
  | cons m replies ih => exact ih (c.complete m)

theorem answered_completeAll (hk : c.inflight.Keyed) (replies : List Message) :
    c.inflight.Answered replies (c.completeAll replies).inflight := by
  induction replies generalizing c with
  | nil => exact Inflight.answered_nil _
  | cons m replies ih =>
    have hfirst := Inflight.withdrawn_remove hk m.header.sync (.delivered (replyOutcome m))
    exact hfirst.answered hk (ih (c := c.complete m) (hfirst.keyed hk))

/-- Only first replies to pending requests matter. -/
theorem completeAll_congr (hk : c.inflight.Keyed)
    (h : ∀ e ∈ c.inflight.entries, firstReply replies' e.sync = firstReply replies e.sync) :
    c.completeAll replies' = c.completeAll replies := by
  have hsame := ((answered_completeAll hk replies).congr h).unique
    (answered_completeAll hk replies')
  rw [completeAll_eq c replies', hsame, ← completeAll_eq]

/-- What users of the connection see of replies: each request with a reply has completed with the
first one, each other request is pending as before, and nothing else has changed. -/
structure Replied (before : Connection) (replies : List Message) (after : Connection) : Prop where
  /-- a reply with an error code is a fault of the server -/
  failed : ∀ e ∈ before.inflight.entries, before.inflight.slot e.slot = .waiting →
    ∀ m, firstReply replies e.sync = some m → ∀ code, m.header.code = .error code →
      Simulation.Sending.settled? after e.slot =
        some (.error (.server code ((Body.errorText? m.body).getD "unknown error")))
  /-- with any other code, the outcome is the body -/
  succeeded : ∀ e ∈ before.inflight.entries, before.inflight.slot e.slot = .waiting →
    ∀ m, firstReply replies e.sync = some m → (∀ code, m.header.code ≠ .error code) →
      Simulation.Sending.settled? after e.slot = some (.ok m.body)
  /-- those still pending, in the same order, are those without a reply -/
  pending : after.inflight.entries =
    before.inflight.entries.filter fun e => ∀ m ∈ replies, m.header.sync ≠ e.sync
  /-- no slot changes but those of requests with a reply -/
  kept : ∀ k, (∀ e ∈ before.inflight.entries, ∀ m ∈ replies, m.header.sync = e.sync → e.slot ≠ k) →
    after.inflight.slot k = before.inflight.slot k
  rest : after = { before with inflight := after.inflight }

theorem replied_completeAll (hk : c.inflight.Keyed) (replies : List Message) :
    c.Replied replies (c.completeAll replies) := by
  have h := answered_completeAll hk replies
  have hdelivered : ∀ e ∈ c.inflight.entries, c.inflight.slot e.slot = .waiting →
      ∀ m, firstReply replies e.sync = some m →
        Simulation.Sending.settled? (c.completeAll replies) e.slot = some (replyOutcome m) := by
    intro e he hwaiting m hm
    simp only [Simulation.Sending.settled?, h.settled e he m hm, hwaiting, Inflight.settledSlot]
  refine ⟨?_, ?_, ?_, ?_, completeAll_eq c replies⟩
  · intro e he hwaiting m hm code hcode
    rw [hdelivered e he hwaiting m hm, replyOutcome, hcode]
    rfl
  · intro e he hwaiting m hm hcode
    rw [hdelivered e he hwaiting m hm, replyOutcome]
    split
    · next code heq => exact absurd heq (hcode code)
    · rfl
  · rw [h.entries]
    apply List.filter_congr
    intro e _
    rw [Bool.eq_iff_iff, decide_eq_true_eq, Option.isNone_iff_eq_none, firstReply_eq_none_iff]
  · intro k hk'
    refine h.kept k fun e he hfirst => ?_
    rw [Ne, firstReply_eq_none_iff] at hfirst
    push Not at hfirst
    obtain ⟨m, hm, hsync⟩ := hfirst
    exact hk' e he m hm hsync

end Connection

/-! ### The reader -/

namespace Simulation

/-- The reader of the connection is at work: its stream is open, and these octets have arrived. -/
structure World.Reads (w : World) (n : ℕ) (inbound : Octets) : Prop where
  exists_link : n < w.links.size
  running : (w.links.getD n default).core.stopping = false
  stream : ∃ p, w.pipe? (w.links.getD n default).pipe = some p ∧ p.inbound = inbound ∧
    p.readEnd? = none

/-- The connection with the number has delivered the replies, and no other one has changed. -/
def World.Delivers (w : World) (n : ℕ) (replies : List Message) (w' : World) : Prop :=
  w'.links = w.links.setIfInBounds n
    { w.links.getD n default with core := (w.links.getD n default).core.completeAll replies }

variable {w w' w'' : World} {n : ℕ} {replies replies' : List Message} {inbound : Octets}

theorem World.Delivers.link (h : w.Delivers n replies w') (hn : n < w.links.size) :
    w'.links.getD n default =
      { w.links.getD n default with
        core := (w.links.getD n default).core.completeAll replies } := by
  rw [h, Array.getD_eq_getD_getElem?, Array.getElem?_setIfInBounds_self_of_lt hn]
  rfl

theorem World.delivers_nil (w : World) (n : ℕ) : w.Delivers n [] w := by
  apply Array.ext_getElem?
  intro i
  rw [Array.getElem?_setIfInBounds]
  split
  · next hi =>
    subst hi
    split
    · next hn => simp [hn, Connection.completeAll]
    · next hn => simp [hn]
  · rfl

theorem World.Delivers.trans (h : w.Delivers n replies w') (h' : w'.Delivers n replies' w'')
    (hn : n < w.links.size) : w.Delivers n (replies ++ replies') w'' := by
  rw [World.Delivers, h', h.link hn, h, Array.setIfInBounds_setIfInBounds,
    Connection.completeAll, Connection.completeAll, Connection.completeAll, List.foldl_append]

/-- Delivering replies leaves the streams alone. -/
theorem run_completeReply (n : ℕ) (m : Message) (w : World) :
    ∃ w', (completeReply n m).run w = ((), w') ∧ w.Delivers n [m] w' ∧ w'.network = w.network := by
  refine ⟨((completeReply n m).run w).2, rfl, ?_⟩
  unfold completeReply
  rw [run_link_bind, run_bind]
  cases (w.links.getD n default).core.inflight.find? m.header.sync <;> exact ⟨rfl, rfl⟩

theorem run_completeReplies (n : ℕ) (messages : List (Message × ℕ)) (w : World)
    (hn : n < w.links.size) :
    ∃ w', (messages.forM fun m => completeReply n m.1).run w = ((), w') ∧
      w.Delivers n (messages.map Prod.fst) w' ∧ w'.network = w.network := by
  induction messages generalizing w with
  | nil => exact ⟨w, rfl, w.delivers_nil n, rfl⟩
  | cons m messages ih =>
    obtain ⟨w₁, hrun₁, hdelivers₁, hnetwork₁⟩ := run_completeReply n m.1 w
    have hn₁ : n < w₁.links.size := by rwa [hdelivers₁, Array.size_setIfInBounds]
    obtain ⟨w₂, hrun₂, hdelivers₂, hnetwork₂⟩ := ih w₁ hn₁
    refine ⟨w₂, ?_, hdelivers₁.trans hdelivers₂ hn, hnetwork₂.trans hnetwork₁⟩
    rw [← hrun₂]
    exact congrArg (fun r => (messages.forM fun m => completeReply n m.1).run r.2) hrun₁

/-- Doing something with a stream leaves the connections alone. -/
theorem run_withPipe {α : Type} {serial : ℕ} {p : Pipe} (hp : w.pipe? serial = some p)
    (act : Pipe → α × Pipe) :
    ∃ w', (withPipe serial act).run w = ((act p).1, w') ∧ w'.links = w.links ∧
      w'.pipe? serial = some (act p).2 := by
  have hserial : serial < w.network.pipes.size := by
    by_contra hge
    rw [World.pipe?, Array.getD_eq_getD_getElem?, Array.getElem?_eq_none (Nat.not_lt.mp hge)] at hp
    cases hp
  have hrun : (withPipe serial act).run w =
      ((act ((w.pipe? serial).getD {})).1, ((setPipe serial (act ((w.pipe? serial).getD {})).2).run
        w).2) := rfl
  rw [hp] at hrun
  refine ⟨_, hrun, rfl, ?_⟩
  show (w.network.pipes.setIfInBounds serial (some (act p).2)).getD serial none = some (act p).2
  rw [Array.getD_eq_getD_getElem?, Array.getElem?_setIfInBounds_self_of_lt hserial]
  rfl

namespace Reader

theorem run_drain {buffer : Octets} (hfault : (Frame.drain buffer).fault = none)
    (hn : n < w.links.size) :
    ∃ w', (drain n buffer).run w = (.ok (Frame.drain buffer).rest, w') ∧
      w.Delivers n ((Frame.drain buffer).messages.map Prod.fst) w' ∧ w'.network = w.network := by
  obtain ⟨w', hrun, hdelivers, hnetwork⟩ :=
    run_completeReplies n (Frame.drain buffer).messages w hn
  refine ⟨w', ?_, hdelivers, hnetwork⟩
  unfold drain
  rw [run_bind, hrun, hfault]
  rfl

/-! ### The reader while octets arrive -/

/-- Octets arrive in the stream of the connection. -/
def feed (n : ℕ) (chunk : Octets) : Sim Unit := do
  withPipe (← link n).pipe fun p => ((), p.feed chunk)

/-- Chunks arrive one after the other, and the reader goes on after each. -/
def serve (n : ℕ) : List Octets → Octets → Sim (Progress Octets Unit)
  | [], buffer => poll n buffer
  | chunk :: chunks, buffer => do
    feed n chunk
    match ← poll n buffer with
    | .done _ => return .done ()
    | .wait buffer _ => serve n chunks buffer

theorem run_feed (h : w.Reads n inbound) (chunk : Octets) :
    ∃ w', (feed n chunk).run w = ((), w') ∧ w'.links = w.links ∧ w'.Reads n (inbound ++ chunk) := by
  obtain ⟨p, hp, rfl, hopen⟩ := h.stream
  obtain ⟨w', hrun, hlinks, hp'⟩ := run_withPipe hp fun p => ((), p.feed chunk)
  refine ⟨w', hrun, hlinks, ?_⟩
  rw [← hlinks] at hp'
  exact ⟨hlinks ▸ h.exists_link, hlinks ▸ h.running, _, hp', rfl, hopen⟩

/-- As long as the stream is open, the reader waits for more. -/
theorem run_read {p : Pipe} (hp : w.pipe? (w.links.getD n default).pipe = some p)
    (hopen : p.readEnd? = none) (buffer : Octets) :
    (read n buffer).run w =
      (.wait buffer [.stopped n, .readable (w.links.getD n default).pipe], w) := by
  have hend : (w.pipe? (w.links.getD n default).pipe).bind Pipe.readEnd? = none := by
    rw [hp]
    exact hopen
  unfold read
  rw [run_link_bind, run_get_bind, hend]
  rfl

/-- A reader with nothing but a part of a frame takes what has arrived, delivers the replies that
are complete with it, and waits for more. -/
theorem run_poll (h : w.Reads n inbound) {buffer : Octets}
    (hbuffer : Frame.drain buffer = ⟨[], buffer, none⟩)
    (hfault : (Frame.drain (buffer ++ inbound)).fault = none) :
    ∃ w' events,
      (poll n buffer).run w = (.wait (Frame.drain (buffer ++ inbound)).rest events, w') ∧
      w.Delivers n ((Frame.drain (buffer ++ inbound)).messages.map Prod.fst) w' ∧
      w'.Reads n [] := by
  obtain ⟨w₁, hrun₁, hdelivers₁, hnetwork₁⟩ :=
    run_drain (congrArg Frame.Drained.fault hbuffer) h.exists_link
  rw [hbuffer] at hrun₁ hdelivers₁
  have hlinks₁ : w₁.links = w.links := Eq.trans hdelivers₁ (w.delivers_nil n).symm
  obtain ⟨p, hp, rfl, hopen⟩ := h.stream
  have hp₁ : w₁.pipe? (w.links.getD n default).pipe = some p := by
    rw [World.pipe?, hnetwork₁]
    exact hp
  obtain ⟨w₂, hrun₂, hlinks₂, hp₂⟩ := run_withPipe hp₁ Pipe.takeAll
  have hrun₂ : (withPipe (w.links.getD n default).pipe Pipe.takeAll).run w₁ = (p.inbound, w₂) :=
    hrun₂
  rw [hlinks₁] at hlinks₂
  have hn₂ : n < w₂.links.size := hlinks₂ ▸ h.exists_link
  obtain ⟨w₃, hrun₃, hdelivers₃, hnetwork₃⟩ := run_drain hfault hn₂
  have hdelivers : w.Delivers n ((Frame.drain (buffer ++ p.inbound)).messages.map Prod.fst) w₃ := by
    rw [World.Delivers, hdelivers₃, hlinks₂]
  have hlink := hdelivers.link h.exists_link
  have hp₃ : w₃.pipe? (w₃.links.getD n default).pipe = some p.takeAll.2 := by
    rw [World.pipe?, hnetwork₃, hlink]
    exact hp₂
  have hread := run_read hp₃ hopen (Frame.drain (buffer ++ p.inbound)).rest
  refine ⟨w₃, [.stopped n, .readable (w₃.links.getD n default).pipe], ?_, hdelivers, ?_⟩
  · unfold poll
    rw [run_bind, hrun₁]
    dsimp only
    rw [run_link_bind, hlinks₁, h.running, if_neg Bool.false_ne_true, run_bind, hrun₂, run_bind]
    dsimp only
    rw [hrun₃]
    exact hread
  · refine ⟨?_, ?_, p.takeAll.2, hp₃, rfl, hopen⟩
    · rw [hdelivers, Array.size_setIfInBounds]
      exact h.exists_link
    · rw [hlink, Connection.completeAll_eq]
      exact h.running

/-- The chunks are read, one after the other, and the connection has changed to this, and nothing
is left of a frame; no other connection has changed. -/
def Serves (w : World) (n : ℕ) (chunks : List Octets) (after : Connection) : Prop :=
  ∃ w' events, (serve n chunks []).run w = (.wait [] events, w') ∧
    w'.links = w.links.setIfInBounds n { w.links.getD n default with core := after }

/-- The reader delivers the replies in the order of their frames, wherever chunks end. -/
theorem run_serve (h : w.Reads n []) {buffer : Octets}
    (hbuffer : Frame.drain buffer = ⟨[], buffer, none⟩) (chunks : List Octets)
    (hfault : (Frame.drain (buffer ++ chunks.flatten)).fault = none) :
    ∃ w' events,
      (serve n chunks buffer).run w =
        (.wait (Frame.drain (buffer ++ chunks.flatten)).rest events, w') ∧
      w.Delivers n ((Frame.drain (buffer ++ chunks.flatten)).messages.map Prod.fst) w' := by
  induction chunks generalizing w buffer with
  | nil =>
    obtain ⟨w', events, hrun, hdelivers, -⟩ := run_poll h hbuffer hfault
    exact ⟨w', events, hrun, hdelivers⟩
  | cons chunk chunks ih =>
    rw [List.flatten_cons, ← List.append_assoc] at hfault ⊢
    have hfront := Frame.fault_eq_none_of_append hfault
    obtain ⟨w₁, hrun₁, hlinks₁, hreads₁⟩ := run_feed h chunk
    obtain ⟨w₂, events, hrun₂, hdelivers₂, hreads₂⟩ := run_poll hreads₁ hbuffer hfront
    rw [List.nil_append] at hrun₂ hdelivers₂
    -- what the first chunk leaves is a part of a frame, from which the others go on
    have hwhole := Frame.drain_append hfront chunks.flatten
    rw [hwhole] at hfault ⊢
    obtain ⟨w₃, events', hrun₃, hdelivers₃⟩ := ih hreads₂ (Frame.drain_rest hfront) hfault
    have hdelivers : w.Delivers n ((Frame.drain (buffer ++ chunk)).messages.map Prod.fst) w₂ := by
      rw [World.Delivers, hdelivers₂, hlinks₁]
    refine ⟨w₃, events', ?_, ?_⟩
    · unfold serve
      rw [run_bind, hrun₁, run_bind, hrun₂]
      exact hrun₃
    · rw [Frame.Drained.behind, List.map_append]
      exact hdelivers.trans hdelivers₃ h.exists_link

theorem serves (h : w.Reads n []) {frames chunks : List Octets}
    (hframes : List.Forall₂ Frame.Carries frames replies)
    (hchunks : chunks.flatten = frames.flatten) :
    Serves w n chunks ((w.links.getD n default).core.completeAll replies) := by
  obtain ⟨hmessages, hrest, hfault⟩ := Frame.drain_flatten hframes
  have hempty : Frame.drain [] = ⟨[], [], none⟩ := rfl
  obtain ⟨w', events, hrun, hdelivers⟩ := run_serve h hempty chunks
    (by rwa [List.nil_append, hchunks])
  rw [List.nil_append, hchunks, hrest] at hrun
  rw [List.nil_append, hchunks, hmessages] at hdelivers
  exact ⟨w', events, hrun, hdelivers⟩

/-- Replies are matched by sync id alone.  Whichever requests are pending and whatever complete
frames arrive, in whatever chunks, each request gets the first reply with its id, and each request
without one is pending as before.  A reply that nobody is waiting for, or nobody any more, has no
effect, and neither has the order of replies with different ids. -/
theorem replies_matched_by_sync {c : Connection} {frames chunks : List Octets}
    (hreads : w.Reads n []) (hc : (w.links.getD n default).core = c) (hk : c.inflight.Keyed)
    (hframes : List.Forall₂ Frame.Carries frames replies)
    (hchunks : chunks.flatten = frames.flatten) :
    ∃ after, Serves w n chunks after ∧ c.Replied replies after ∧
      (∀ front m back, replies = front ++ m :: back →
        (m.header.sync ∉ c.inflight.syncs ∨ ∃ m' ∈ front, m'.header.sync = m.header.sync) →
        ∀ frames' chunks', List.Forall₂ Frame.Carries frames' (front ++ back) →
          chunks'.flatten = frames'.flatten → Serves w n chunks' after) ∧
      ∀ replies', (∀ id, replies'.filter (·.header.sync = id) = replies.filter (·.header.sync = id)) →
        ∀ frames' chunks', List.Forall₂ Frame.Carries frames' replies' →
          chunks'.flatten = frames'.flatten → Serves w n chunks' after := by
  subst hc
  refine ⟨_, serves hreads hframes hchunks, Connection.replied_completeAll hk replies, ?_, ?_⟩
  · intro front m back hsplit hidle frames' chunks' hframes' hchunks'
    have hsame : Connection.completeAll _ (front ++ back) = Connection.completeAll _ replies :=
      Connection.completeAll_congr hk fun e he => by
        rw [hsplit]
        refine (firstReply_append_cons back fun heq => ?_).symm
        rw [← heq]
        refine hidle.resolve_left (not_not.mpr ?_)
        exact Inflight.mem_syncs.mpr ⟨e, he, heq.symm⟩
    exact hsame ▸ serves hreads hframes' hchunks'
  · intro replies' hfilter frames' chunks' hframes' hchunks'
    have hsame : Connection.completeAll _ replies' = Connection.completeAll _ replies :=
      Connection.completeAll_congr hk fun e _ => by
        rw [firstReply_eq_head?_filter, firstReply_eq_head?_filter, hfilter]
    exact hsame ▸ serves hreads hframes' hchunks'

/-- Of three requests the second is answered twice and the first with an error, a fourth reply is to
nobody, and the octets arrive one by one. -/
theorem replies_matched_by_sync_octet_by_octet :
    ∃ w frames after, List.Forall₂ Frame.Carries frames
        [⟨⟨2, .ok, none⟩, [0x80]⟩, ⟨⟨9, .ok, none⟩, []⟩, ⟨⟨2, .ok, none⟩, []⟩,
          ⟨⟨1, .error 7, none⟩, [0x81, 0x31, 0xA1, 0x78]⟩] ∧
      Serves w 0 (frames.flatten.map ([·])) after ∧
      Simulation.Sending.settled? after 0 = some (.error (.server 7 "x")) ∧
      Simulation.Sending.settled? after 1 = some (.ok [0x80]) ∧
      Simulation.Sending.settled? after 2 = none ∧ after.inflight.syncs = [3] := by
  let opened := Connection.opened default default .start
  let c := (((opened.register .ping 5).2.2.register .ping 5).2.2.register .ping 5).2.2
  let w : World := { links := #[⟨c, 0, none⟩], network := { pipes := #[some {}] } }
  have hvalue : MessagePack.IsValue [0x80] := MessagePack.isValue_iff.mpr ⟨_, rfl⟩
  have herror : MessagePack.IsValue [0x81, 0x31, 0xA1, 0x78] := MessagePack.isValue_iff.mpr ⟨_, rfl⟩
  obtain ⟨frames, hframes⟩ : ∃ frames, List.Forall₂ Frame.Carries frames
      [⟨⟨2, .ok, none⟩, [0x80]⟩, ⟨⟨9, .ok, none⟩, []⟩, ⟨⟨2, .ok, none⟩, []⟩,
        ⟨⟨1, .error 7, none⟩, [0x81, 0x31, 0xA1, 0x78]⟩] :=
    ⟨_, .cons (Frame.carries_of_encode (h := ⟨2, .ok, none⟩) rfl (.inr hvalue))
      (.cons (Frame.carries_of_encode (h := ⟨9, .ok, none⟩) rfl (.inl rfl))
      (.cons (Frame.carries_of_encode (h := ⟨2, .ok, none⟩) rfl (.inl rfl))
      (.cons (Frame.carries_of_encode (h := ⟨1, .error 7, none⟩) rfl (.inr herror)) .nil)))⟩
  have hreads : w.Reads 0 [] := ⟨by decide, rfl, _, rfl, rfl, rfl⟩
  have hk : c.inflight.Keyed := by
    constructor <;> decide
  have hchunks : (frames.flatten.map ([·])).flatten = frames.flatten := by
    rw [← List.flatMap_def, List.flatMap_singleton']
  obtain ⟨after, hserves, hreplied, -, -⟩ :=
    replies_matched_by_sync hreads rfl hk hframes hchunks
  refine ⟨w, frames, after, hframes, hserves, ?_, ?_, ?_, ?_⟩
  · exact hreplied.failed ⟨1, .ping, 5, 0⟩ (.head _) rfl _ rfl 7 rfl
  · exact hreplied.succeeded ⟨2, .ping, 5, 1⟩ (.tail _ (.head _)) rfl _ rfl nofun
  · rw [Simulation.Sending.settled?, hreplied.kept 2 (by decide)]
    rfl
  · rw [Inflight.syncs, hreplied.pending]
    rfl

end Reader

end Simulation

end Switchboard
