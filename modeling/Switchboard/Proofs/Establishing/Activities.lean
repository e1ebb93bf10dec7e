import Switchboard.Proofs.Establishing.Handover
import Switchboard.Proofs.Interleaving.Activities

/-!
# Attempts to open a connection

Each time that an attempt to open a connection is given the chance to go on, opening the connection
goes on by some steps: a read takes whatever has arrived, and some servers answer a write at once.
What the attempt waits for, or ends with, is how far opening the connection has come.  So what holds
of all runs holds of attempts, in whatever order the scheduler lets activities go on.

## Main definitions

- `Simulation.World.Holds` — what has arrived in a stream and nobody has read yet
- `Simulation.World.Brings` — more may have arrived
- `Simulation.Attempt.Stands` — how far opening a connection has come whose attempt waits
- `Simulation.Attempt.Accompanies` — opening a connection has gone on as its attempt has

## Main statements

- `Simulation.Attempt.stands_start` — an attempt begins
- `Simulation.Attempt.Stands.meanwhile` — octets may arrive while an attempt waits
- `Simulation.Attempt.poll_accompanies` — an attempt goes on
- `Simulation.Attempt.hands_over` — what the reader begins with
-/

namespace Switchboard

open Wire Interleaving

/-- As long as the greeting is not complete, nothing is left of what has arrived. -/
theorem Handshake.fill_drop_eq_nil {read arrived : Octets}
    (h : (fill read arrived).1.length < Greeting.size) : (fill read arrived).2 = [] := by
  simp only [fill, List.length_append, List.length_take] at h
  rw [fill, List.drop_eq_nil_iff]
  omega

namespace Simulation

theorem Pipe.inbound_write (p : Pipe) (bytes : Octets) : (p.write bytes).2.inbound = p.inbound := by
  unfold write
  split
  · rfl
  split
  · rfl
  split
  · rfl
  split <;> rfl

variable {w w' : World} {serial : ℕ} {octets octets' : Octets}

/-! ### Streams -/

/-- The stream has these octets that have arrived and nobody has read yet. -/
structure World.Holds (w : World) (serial : ℕ) (octets : Octets) : Prop where
  known : serial < w.network.pipes.size
  inbound : ((w.pipe? serial).getD {}).inbound = octets

namespace World.Holds

theorem of_pipes (h : w.Holds serial octets) (pipes : w'.network.pipes = w.network.pipes) :
    w'.Holds serial octets := by
  refine ⟨pipes ▸ h.known, ?_⟩
  rw [World.pipe?, pipes]
  exact h.inbound

/-- Something has been done with the stream. -/
theorem set (known : serial < w.network.pipes.size) (p : Pipe) :
    ((setPipe serial p).run w).2.Holds serial p.inbound := by
  refine ⟨?_, ?_⟩
  · show serial < (w.network.pipes.setIfInBounds serial (some p)).size
    rwa [Array.size_setIfInBounds]
  · show (((w.network.pipes.setIfInBounds serial (some p)).getD serial none).getD {}).inbound = _
    rw [Array.getD_eq_getD_getElem?, Array.getElem?_setIfInBounds_self_of_lt known]
    rfl

/-- Whoever does something with the stream sees the octets, and leaves what it leaves. -/
theorem exists_withPipe {α : Type} {result : α} (h : w.Holds serial octets) (act : Pipe → α × Pipe)
    (hact : ∀ p, p.inbound = octets → (act p).1 = result ∧ (act p).2.inbound = octets') :
    ∃ w', (withPipe serial act).run w = (result, w') ∧ w'.Holds serial octets' := by
  obtain ⟨rfl, rfl⟩ := hact _ h.inbound
  exact ⟨_, rfl, set h.known _⟩

end World.Holds

/-- Octets may have arrived in the stream meanwhile, and nobody has read any. -/
def World.Brings (serial : ℕ) (w w' : World) : Prop :=
  ∀ octets, w.Holds serial octets → ∃ chunk, w'.Holds serial (octets ++ chunk)

theorem World.Brings.of_pipes (pipes : w'.network.pipes = w.network.pipes) :
    World.Brings serial w w' := by
  intro octets h
  refine ⟨[], ?_⟩
  rw [List.append_nil]
  exact h.of_pipes pipes

instance : IsPreorder World (World.Brings serial) where
  refl _ := .of_pipes rfl
  trans _ _ _ h h' := by
    intro octets hbefore
    obtain ⟨chunk, hbetween⟩ := h octets hbefore
    obtain ⟨chunk', hafter⟩ := h' _ hbetween
    exact ⟨chunk ++ chunk', List.append_assoc .. ▸ hafter⟩

theorem brings_emit (e : Event) : Within (World.Brings serial) (emit e) :=
  .modify fun _ => .of_pipes rfl

theorem network_check (t : Timer) (w : World) : (t.check.run w).2.network = w.network := by
  rw [Timer.check, run_now_bind]
  split
  · rfl
  · split <;> rfl

theorem brings_withPipe {α : Type} {act : Pipe → α × Pipe}
    (hact : ∀ p, ∃ chunk, (act p).2.inbound = p.inbound ++ chunk) :
    Within (World.Brings serial) (withPipe serial act) := by
  refine ⟨fun w octets h => ?_⟩
  obtain ⟨chunk, hchunk⟩ := hact ((w.pipe? serial).getD {})
  have hset := World.Holds.set h.known (act ((w.pipe? serial).getD {})).2
  rw [hchunk, h.inbound] at hset
  exact ⟨chunk, hset⟩

/-- The server may answer. -/
theorem brings_deliver (bytes : Octets) : Within (World.Brings serial) (deliver serial bytes) := by
  refine .bind .get fun w => ?_
  dsimp only
  split
  · split
    · exact .pure _
    · exact .bind (.modify fun _ => .of_pipes rfl) fun _ =>
        .bind (brings_withPipe fun _ => ⟨_, rfl⟩) fun _ => brings_emit _
  · exact .pure _

theorem brings_writePipe (bytes : Octets) :
    Within (World.Brings serial) (writePipe serial bytes) := by
  refine .bind (brings_withPipe fun p => ⟨[], ?_⟩) fun result => ?_
  · rw [List.append_nil]
    exact p.inbound_write bytes
  · dsimp only
    split
    · exact .bind (brings_deliver _) fun _ => .pure _
    · exact .pure _

end Simulation

/-! ### Reading and writing as much as there is -/

namespace Establishing

variable (address : Address) (credentials : Option Credentials) {s : State} {g : Greeting}

theorem exists_run_fill {read : Octets} (phase : s.phase = .greeting read)
    (partly : read.length < Greeting.size) :
    ∃ s', Run address credentials s s' ∧
      s'.phase = .greeting (Handshake.fill read s.pending).1 ∧
      s'.pending = (Handshake.fill read s.pending).2 ∧ s'.heard = s.heard := by
  by_cases harrived : s.pending = []
  · refine ⟨s, .nil, ?_, ?_, rfl⟩ <;> rw [harrived, Handshake.fill]
    · rw [List.take_nil, List.append_nil, phase]
    · rw [List.drop_nil]
  · have hsome := List.length_pos_iff.mpr harrived
    refine ⟨_, (Advance.readsGreeting phase partly _ hsome harrived).run, ?_, ?_, rfl⟩ <;>
      simp [State.read]

theorem exists_run_takeAll {buffer : Octets} (phase : s.phase = .replying g buffer)
    (partly : Handshake.firstFrame buffer = .ok none) :
    ∃ s', Run address credentials s s' ∧ s'.phase = .replying g (buffer ++ s.pending) ∧
      s'.pending = [] ∧ s'.heard = s.heard := by
  by_cases harrived : s.pending = []
  · refine ⟨s, .nil, ?_, harrived, rfl⟩
    rw [harrived, List.append_nil, phase]
  · have hsome := List.length_pos_iff.mpr harrived
    refine ⟨_, (Advance.readsReply phase partly _ hsome harrived).run, ?_, ?_, rfl⟩ <;>
      simp [State.read]

theorem exists_run_write {bytes : Octets} (phase : s.phase = .requesting g bytes) (count : ℕ) :
    ∃ s', Run address credentials s s' ∧ s'.phase = .requesting g (bytes.drop count) ∧
      s'.pending = s.pending ∧ s'.heard = s.heard := by
  by_cases hmoves : count = 0 ∨ bytes = []
  · refine ⟨s, .nil, ?_, rfl, rfl⟩
    rcases hmoves with rfl | rfl
    · rw [List.drop_zero, phase]
    · rw [List.drop_nil, phase]
  · obtain ⟨hsome, hunwritten⟩ := not_or.mp hmoves
    exact ⟨_, (Advance.writes phase count (Nat.pos_of_ne_zero hsome) hunwritten).run,
      rfl, rfl, rfl⟩

end Establishing

/-! ### Attempts that go on -/

namespace Simulation.Attempt

open Establishing (Run)

/-- How far opening a connection has come while its attempt waits. -/
inductive Stands (w : World) : Phase → Establishing.State → Prop
  | starting {s} (phase : s.phase = .dialing) (silent : s.pending = [])
    (streams : w.network.pipes.size = w.network.serial + 1) : Stands w .starting s
  | dialing {serial ending delay s} (phase : s.phase = .dialing) (silent : s.pending = [])
    (known : serial < w.network.pipes.size) : Stands w (.dialing serial ending delay) s
  | hanging {s} (phase : s.phase = .dialing) : Stands w .hanging s
  | greeting {serial read limit s} (phase : s.phase = .greeting read)
    (partly : read.length < Greeting.size) (holds : w.Holds serial s.pending) :
    Stands w (.greeting serial read limit) s
  | requesting {serial g rest s} (phase : s.phase = .requesting g rest)
    (holds : w.Holds serial s.pending) : Stands w (.requesting serial g rest) s
  | replying {serial g buffer limit s} (phase : s.phase = .replying g buffer)
    (partly : Handshake.firstFrame buffer = .ok none) (holds : w.Holds serial s.pending) :
    Stands w (.replying serial g buffer limit) s

/-- What a step of an attempt comes to, and how opening the connection has gone on meanwhile. -/
inductive Accompanies {σ : Type} (address : Address) (config : ClientConfig)
    (stands : World → σ → Establishing.State → Prop) (s : Establishing.State) :
    Progress σ (Except Fault ℕ) × World → Prop
  | waits {x events w s'} (run : Run address config.credentials s s') (stand : stands w x s') :
    Accompanies address config stands s (.wait x events, w)
  | failed {fault w s'} (run : Run address config.credentials s s')
    (phase : s'.phase = .failed fault) :
    Accompanies address config stands s (.done (.error fault), w)
  /-- the network has failed, or something has taken too long -/
  | gone {fault w s'} (run : Run address config.credentials s s')
    (phase : s'.phase = .starved ∨ s'.phase = .severed) :
    Accompanies address config stands s (.done (.error fault), w)
  /-- the reader has begun with the octets that have been read too many -/
  | opened {c w s'} (run : Run address config.credentials s s') (phase : s'.phase = .opened)
    (unheard : s'.heard = s.heard) (fits : Channel.Fits c w s'.channel)
    (reader : .spawn (.reader c s'.channel.unread) ∈ w.signals)
    (holds : w.Holds (w.links.getD c default).pipe s'.pending) :
    Accompanies address config stands s (.done (.ok c), w)

section

variable {σ : Type} {address : Address} {config : ClientConfig}
  {stands : World → σ → Establishing.State → Prop} {s s' : Establishing.State} {w : World}
  {serial : ℕ} {g : Greeting}

theorem Accompanies.head {result : Progress σ (Except Fault ℕ) × World}
    (first : Run address config.credentials s s') (unheard : s'.heard = s.heard)
    (rest : Accompanies address config stands s' result) :
    Accompanies address config stands s result := by
  cases rest with
  | waits run stand => exact .waits (first.trans run) stand
  | failed run phase => exact .failed (first.trans run) phase
  | gone run phase => exact .gone (first.trans run) phase
  | opened run phase still fits reader holds =>
    exact .opened (first.trans run) phase (still.trans unheard) fits reader holds

theorem Accompanies.starves {w' : World} (fault : Fault) (lacks : s.Lacks) :
    Accompanies address config stands s (.done (.error fault), w') :=
  .gone (Run.nil.snoc (.starves lacks)) (.inl rfl)

theorem Accompanies.severed {w' : World} (fault : Fault) (underway : s.phase.Underway) :
    Accompanies address config stands s (.done (.error fault), w') :=
  .gone (Run.nil.snoc (.severed underway)) (.inr rfl)

theorem enter_accompanies {syncs : SyncIds} {left : Octets} (holds : w.Holds serial s.pending) :
    Accompanies address config Stands (s.enter address g syncs left)
      ((enter address serial g syncs left).run w) := by
  obtain ⟨w₁, hheld, hholds⟩ := holds.exists_withPipe (fun p => ((), { p with holders := 2 }))
    fun _ hp => ⟨rfl, hp⟩
  have hlinks : w₁.links = w.links := (congrArg (fun r => r.2.links) hheld).symm
  rw [enter, run_get_bind]
  dsimp only
  rw [run_bind, run_bind, hheld, ← hlinks]
  have hspawned := untouched_spawn_pumps w₁.links.size left
  have hfits := Channel.fits_opened (w := w₁) ⟨.opened address g syncs, serial, none⟩ rfl left
  refine .opened .nil rfl rfl (hfits.of_untouched (hspawned.holds _)) ?_ ?_
  · exact List.mem_cons_of_mem _ (List.mem_cons_self ..)
  · show World.Holds _ ((w₁.links.push ⟨.opened address g syncs, serial, none⟩).getD
      w₁.links.size default).pipe _
    rw [Array.getD_eq_getD_getElem?, Array.getElem?_push_size]
    exact hholds.of_pipes rfl

/-- Nothing has arrived that is still to be read, so the attempt waits for it if there is time. -/
theorem limit_accompanies (lacks : s.Lacks) (holds : w.Holds serial s.pending) {limit : Timer}
    {fault : Fault} {phase : Timer → Phase} {events : Timer → List Event}
    (stands : ∀ limit w, w.Holds serial s.pending → Stands w (phase limit) s) :
    Accompanies address config Stands s (StateT.run (do
      match ← limit.check with
      | none => abandon serial fault
      | some limit => return .wait (phase limit) (events limit)) w) := by
  have hnetwork := network_check limit w
  rw [run_bind]
  generalize limit.check.run w = checked at hnetwork
  obtain ⟨limit?, w₁⟩ := checked
  have hholds : w₁.Holds serial s.pending := holds.of_pipes (congrArg _ hnetwork)
  cases limit? with
  | none => exact .starves _ lacks
  | some limit => exact .waits .nil (stands limit w₁ hholds)

theorem reply_accompanies {buffer : Octets} (phase : s.phase = .replying g buffer)
    (partly : Handshake.firstFrame buffer = .ok none) (holds : w.Holds serial s.pending)
    (limit : Timer) :
    Accompanies address config Stands s
      ((reply address config serial g buffer limit).run w) := by
  obtain ⟨s₁, hrun, hphase, hpending, hheard⟩ :=
    Establishing.exists_run_takeAll address config.credentials phase partly
  obtain ⟨w₁, htaken, hholds⟩ := holds.exists_withPipe Pipe.takeAll fun _ hp => ⟨hp, rfl⟩
  have hunderway : s₁.phase.Underway := hphase ▸ trivial
  refine .head hrun hheard ?_
  rw [reply, run_bind, htaken]
  rw [← hpending] at hholds
  dsimp only
  rcases hreply : Handshake.firstFrame (buffer ++ s.pending) with fault | (_ | ⟨m, rest⟩) <;>
    dsimp only
  · exact .failed (Establishing.Advance.garbled hphase hreply).run rfl
  · have hlacks : s₁.Lacks := ⟨hpending, .inr ⟨g, _, hphase, hreply⟩⟩
    rw [run_get_bind]
    split
    · exact .severed _ hunderway
    · exact .starves _ hlacks
    · exact limit_accompanies hlacks hholds fun _ _ => .replying hphase hreply
  · cases hmeaning : Handshake.replyFault? m authSync.1 with
    | some fault => exact .failed (Establishing.Advance.rejected hphase hreply hmeaning).run rfl
    | none =>
      refine .head (Establishing.Advance.accepted hphase hreply hmeaning).run rfl ?_
      exact enter_accompanies hholds

theorem request_accompanies {bytes : Octets} (phase : s.phase = .requesting g bytes)
    (holds : w.Holds serial s.pending) :
    Accompanies address config Stands s
      ((request address config serial g bytes).run w) := by
  have hunderway : s.phase.Underway := phase ▸ trivial
  obtain ⟨chunk, hholds⟩ := (brings_writePipe bytes).holds w _ holds
  have hdrop : ∀ rest, ((writePipe serial bytes).run w).1 = .taken rest →
      ∃ count, rest = bytes.drop count := fun _ => Writer.exists_drop_of_writePipe
  rw [request, run_bind]
  generalize (writePipe serial bytes).run w = written at hholds hdrop ⊢
  obtain ⟨result, w₁⟩ := written
  cases result with
  | taken rest =>
    -- the server may have answered what it has taken
    obtain ⟨count, rfl⟩ := hdrop rest rfl
    have harrived : Run address config.credentials s (s.arrive chunk) :=
      Run.nil.snoc (.arrives chunk (phase ▸ trivial))
    obtain ⟨s₁, hwritten, hphase, hpending, hheard⟩ := Establishing.exists_run_write
      address config.credentials (s := s.arrive chunk) phase count
    have hholds₁ : w₁.Holds serial s₁.pending := hpending ▸ hholds
    refine .head (harrived.trans hwritten) hheard ?_
    generalize bytes.drop count = rest at hphase
    cases rest with
    | nil =>
      refine .head (Establishing.Advance.requested hphase).run rfl ?_
      have hnothing : Handshake.firstFrame [] = .ok none := rfl
      dsimp only
      rw [run_bind]
      exact reply_accompanies (s := s₁.turn (.replying g [])) rfl hnothing hholds₁ _
    | cons => exact .waits .nil (.requesting hphase hholds₁)
  | failed | broken => exact .severed _ hunderway

theorem greeted_accompanies {read : Octets} (phase : s.phase = .greeting read)
    (whole : read.length = Greeting.size) (greeting : Handshake.greeting read = .ok g)
    (holds : w.Holds serial s.pending) :
    Accompanies address config Stands s ((greeted address config serial g).run w) := by
  unfold greeted
  cases hcredentials : config.credentials with
  | none =>
    refine .head (Establishing.Advance.welcome phase whole greeting hcredentials).run rfl ?_
    exact enter_accompanies holds
  | some c =>
    refine .head (Establishing.Advance.challenged phase whole greeting hcredentials).run rfl ?_
    have hphase : ((s.store .authenticating).turn (.challenged g)).phase = .challenged g := rfl
    dsimp only
    cases hrequest : Handshake.request c g authSync.1 with
    | error fault =>
      exact .failed (Establishing.Advance.unprepared hphase hcredentials hrequest).run rfl
    | ok frame =>
      refine .head (Establishing.Advance.prepared hphase hcredentials hrequest).run rfl ?_
      exact request_accompanies rfl holds

theorem greet_accompanies {read : Octets} (phase : s.phase = .greeting read)
    (partly : read.length < Greeting.size) (holds : w.Holds serial s.pending) (limit : Timer) :
    Accompanies address config Stands s ((greet address config serial read limit).run w) := by
  obtain ⟨s₁, hrun, hphase, hpending, hheard⟩ :=
    Establishing.exists_run_fill address config.credentials phase partly
  obtain ⟨w₁, hfilled, hholds⟩ := holds.exists_withPipe
    (fun p => ((Handshake.fill read p.inbound).1,
      { p with inbound := (Handshake.fill read p.inbound).2 }))
    fun p hp => ⟨congrArg (fun i => (Handshake.fill read i).1) hp,
      congrArg (fun i => (Handshake.fill read i).2) hp⟩
  have hunderway : s₁.phase.Underway := hphase ▸ trivial
  have hle := Handshake.length_fill_le (Nat.le_of_lt partly) s.pending
  refine .head hrun hheard ?_
  rw [greet, run_bind]
  dsimp only
  rw [hfilled]
  rw [← hpending] at hholds
  dsimp only
  split
  next whole =>
    cases hgreeting : Handshake.greeting (Handshake.fill read s.pending).1 with
    | error fault => exact .failed (Establishing.Advance.unwelcome hphase whole hgreeting).run rfl
    | ok g => exact greeted_accompanies hphase whole hgreeting hholds
  next hpart =>
    have hpartly := Nat.lt_of_le_of_ne hle hpart
    have hlacks : s₁.Lacks :=
      ⟨hpending.trans (Handshake.fill_drop_eq_nil hpartly), .inl ⟨_, hphase, hpartly⟩⟩
    rw [run_get_bind]
    split
    · exact .severed _ hunderway
    · exact .starves _ hlacks
    · exact limit_accompanies hlacks hholds fun _ _ => .greeting hphase hpartly

theorem await_accompanies (phase : s.phase = .dialing) (silent : s.pending = [])
    (known : serial < w.network.pipes.size) (ending : DialEnd) (delay : Timer) :
    Accompanies address config Stands s ((await address config serial ending delay).run w) := by
  have hnetwork := network_check delay w
  have hunderway : s.phase.Underway := phase ▸ trivial
  unfold await
  rw [run_bind]
  generalize delay.check.run w = checked at hnetwork
  obtain ⟨delay?, w₁⟩ := checked
  have hknown : serial < w₁.network.pipes.size := hnetwork ▸ known
  cases delay? with
  | some delay => exact .waits .nil (.dialing phase silent hknown)
  | none =>
    cases ending with
    | hanging => exact .waits .nil (.hanging phase)
    | refused fault => exact .severed _ hunderway
    | stream pipe greets =>
      -- what the stream begins with arrives before anybody reads
      have hset := World.Holds.set hknown { pipe with
        inbound := if greets then greetingOf serial ++ pipe.inbound else pipe.inbound }
      dsimp only at hset ⊢
      rw [run_bind, run_bind, openPipe]
      generalize (if greets then greetingOf serial ++ pipe.inbound else pipe.inbound) = inbound
        at hset ⊢
      have harrived : Run address config.credentials s (s.arrive inbound) :=
        Run.nil.snoc (.arrives inbound (phase ▸ trivial))
      have hphase : (s.arrive inbound).phase = .dialing := phase
      refine .head (harrived.trans (Establishing.Advance.dialed hphase).run) rfl ?_
      refine greet_accompanies rfl (by decide) ?_ _
      show World.Holds _ _ (s.pending ++ inbound)
      rw [silent]
      exact hset.of_pipes rfl

/-- There is a stream for each number handed out, besides the one for none. -/
theorem exists_run_dial (address : Address)
    (streams : w.network.pipes.size = w.network.serial + 1) :
    ∃ serial d w', (dial address).run w = ((serial, d), w') ∧
      serial < w'.network.pipes.size ∧ w'.network.pipes.size = w'.network.serial + 1 := by
  have hdialed : (dialNetwork address w.network).2.pipes = w.network.pipes ∧
      (dialNetwork address w.network).2.serial = w.network.serial := by
    unfold dialNetwork
    split
    · exact ⟨rfl, rfl⟩
    · split <;> exact ⟨rfl, rfl⟩
  refine ⟨_, _, _, rfl, ?_, ?_⟩
  · show (dialNetwork address w.network).2.serial + 1 <
      ((dialNetwork address w.network).2.pipes.push none).size
    rw [Array.size_push, hdialed.1, hdialed.2, streams]
    exact Nat.lt_succ_self _
  · show ((dialNetwork address w.network).2.pipes.push none).size =
      (dialNetwork address w.network).2.serial + 1 + 1
    rw [Array.size_push, hdialed.1, hdialed.2, streams]

variable (address config) in
/-- Each function of an attempt goes on from where the attempt stands. -/
theorem advance_accompanies {phase : Phase} (h : Stands w phase s) :
    Accompanies address config Stands s ((advance address config phase).run w) := by
  cases h with
  | starting phase silent streams =>
    obtain ⟨serial, d, w₁, hdialed, hknown, -⟩ := exists_run_dial address streams
    unfold advance
    rw [run_bind, hdialed]
    exact await_accompanies phase silent hknown _ _
  | dialing phase silent known => exact await_accompanies phase silent known _ _
  | hanging phase => exact .waits .nil (.hanging phase)
  | greeting phase partly holds => exact greet_accompanies phase partly holds _
  | requesting phase holds => exact request_accompanies phase holds
  | replying phase partly holds => exact reply_accompanies phase partly holds _

theorem Stands.underway {phase : Phase} (h : Stands w phase s) : s.phase.Underway := by
  cases h <;> exact ‹s.phase = _› ▸ trivial

theorem Stands.of_network {phase : Phase} {w' : World} (h : Stands w phase s)
    (network : w'.network = w.network) : Stands w' phase s := by
  have hpipes : w'.network.pipes = w.network.pipes := congrArg _ network
  cases h with
  | starting phase silent streams => exact .starting phase silent (network ▸ streams)
  | dialing phase silent known => exact .dialing phase silent (network ▸ known)
  | hanging phase => exact .hanging phase
  | greeting phase partly holds => exact .greeting phase partly (holds.of_pipes hpipes)
  | requesting phase holds => exact .requesting phase (holds.of_pipes hpipes)
  | replying phase partly holds => exact .replying phase partly (holds.of_pipes hpipes)

/-- Whatever the others do meanwhile, the attempt has come as far as before, and octets may have
arrived for it. -/
theorem Stands.meanwhile {credentials : Option Credentials} {phase : Phase} {w' : World}
    (h : Stands w phase s)
    (streams : w.network.pipes.size = w.network.serial + 1 →
      w'.network.pipes.size = w'.network.serial + 1)
    (size : w.network.pipes.size ≤ w'.network.pipes.size)
    (brings : ∀ serial, phase.stream? = some serial → World.Brings serial w w') :
    ∃ s', Run address credentials s s' ∧ s'.heard = s.heard ∧ Stands w' phase s' := by
  have harrived : s.phase.Listens → ∀ chunk, Run address credentials s (s.arrive chunk) :=
    fun listens chunk => Run.nil.snoc (.arrives chunk listens)
  cases h with
  | starting phase silent numbers =>
    exact ⟨s, .nil, rfl, .starting phase silent (streams numbers)⟩
  | dialing phase silent known =>
    exact ⟨s, .nil, rfl, .dialing phase silent (Nat.lt_of_lt_of_le known size)⟩
  | hanging phase => exact ⟨s, .nil, rfl, .hanging phase⟩
  | greeting phase partly holds =>
    obtain ⟨chunk, hholds⟩ := brings _ rfl _ holds
    exact ⟨_, harrived (phase ▸ trivial) chunk, rfl, .greeting phase partly hholds⟩
  | requesting phase holds =>
    obtain ⟨chunk, hholds⟩ := brings _ rfl _ holds
    exact ⟨_, harrived (phase ▸ trivial) chunk, rfl, .requesting phase hholds⟩
  | replying phase partly holds =>
    obtain ⟨chunk, hholds⟩ := brings _ rfl _ holds
    exact ⟨_, harrived (phase ▸ trivial) chunk, rfl, .replying phase partly hholds⟩

/-- Whenever the attempt goes on, so does opening the connection. -/
theorem poll_accompanies (a : Attempt) (h : Stands w a.phase s) :
    Accompanies a.address a.config (fun w a => Stands w a.phase) s (a.poll.run w) := by
  have hadvanced := advance_accompanies a.address a.config h
  rw [poll, run_bind]
  generalize (advance a.address a.config a.phase).run w = advanced at hadvanced
  cases hadvanced with
  | failed run phase => exact .failed run phase
  | gone run phase => exact .gone run phase
  | opened run phase unheard fits reader holds => exact .opened run phase unheard fits reader holds
  | @waits phase events w₁ s₁ run stand =>
    have hnetwork := network_check a.limit w₁
    dsimp only
    rw [run_bind]
    generalize a.limit.check.run w₁ = checked at hnetwork
    obtain ⟨limit?, w₂⟩ := checked
    cases limit? with
    | none => exact .gone (run.snoc (.severed stand.underway)) (.inr rfl)
    | some limit => exact .waits run (stand.of_network hnetwork)

/-- An attempt begins. -/
theorem stands_start (streams : w.network.pipes.size = w.network.serial + 1) :
    Stands ((start address config).run w).2 ((start address config).run w).1.phase
      (Establishing.start address) :=
  .starting rfl rfl streams

/-- What the reader of a connection begins with, and what is left in its stream, are the octets
behind what opening the connection has read. -/
theorem hands_over (a : Attempt) (h : Stands w a.phase s)
    (hrun : Run a.address a.config.credentials (Establishing.start a.address) s) {c : ℕ}
    {w' : World} (hpoll : a.poll.run w = (.done (.ok c), w')) :
    ∃ sent buffer inbound, s.sent <+: sent ∧ .spawn (.reader c buffer) ∈ w'.signals ∧
      w'.Holds (w'.links.getD c default).pipe inbound ∧
      Establishing.verdict? a.config.credentials sent = some (.ok (buffer ++ inbound)) := by
  have haccompanies := poll_accompanies a h
  rw [hpoll] at haccompanies
  cases haccompanies with
  | opened run phase unheard fits reader holds =>
    have hsound := (hrun.trans run).sound.sound
    rw [Establishing.State.Sound, phase] at hsound
    obtain ⟨rest, hverdict, htakes⟩ := hsound
    rw [unheard, hrun.sound.unheard h.underway] at htakes
    -- nobody has taken a message yet
    cases htakes
    exact ⟨_, _, _, run.sent_prefix, reader, holds, hverdict⟩

end

end Simulation.Attempt

end Switchboard
