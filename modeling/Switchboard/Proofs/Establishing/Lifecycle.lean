import Switchboard.Proofs.Establishing.Handover
import Switchboard.Proofs.Interleaving.Sweep

/-!
# The life of a connection

Whoever opens a connection stores its stages one after the other.  Once it is in service, any number
of parties may try to end it: the reader and the writer because it has broken, callers because they
close it.  Only the first of them succeeds, and it alone sweeps the pending requests and, if it
closes the connection, stores the last stage.

## Main definitions

- `Stage.Follows` — how the life of a connection may go on
- `Interleaving.Ender.ending?` — how somebody has ended the connection
- `Interleaving.Sweeps` — what somebody who ends the connection does to the pending requests
- `Interleaving.Owned` — the stage is that of whoever has ended the connection
- `Establishing.Living` — before the connection is in service nobody ends it
- `Establishing.Wins`, `Establishing.EndedBy` — who has taken the connection out of service

## Main statements

- `Interleaving.Owned.step`, `Establishing.Living.step` — what every step preserves
- `Establishing.Run.lives_once` — the life of a connection, and who ends it
-/

namespace Switchboard

/-! ### Stages -/

/-- How the life of a connection may go on, with credentials and without. -/
inductive Stage.Follows (credentials : Option Credentials) : Stage → Stage → Prop
  | dialed : Follows credentials .connecting .handshaking
  | challenged (user : credentials ≠ none) : Follows credentials .handshaking .authenticating
  | welcome (guest : credentials = none) : Follows credentials .handshaking .ready
  | accepted : Follows credentials .authenticating .ready
  | fails : Follows credentials .ready .failed
  | closes : Follows credentials .ready .closing
  | ends : Follows credentials .closing .closed

/-- How far a stage is from the first one. -/
def Stage.rank : Stage → ℕ
  | .connecting => 0
  | .handshaking => 1
  | .authenticating => 2
  | .ready => 3
  | .closing => 4
  | .closed | .failed => 5

variable {credentials : Option Credentials}

theorem Stage.Follows.rank_lt {stage stage' : Stage} (h : Stage.Follows credentials stage stage') :
    stage.rank < stage'.rank := by
  cases h <;> decide

theorem Stage.Follows.isTerminal_eq {stage stage' : Stage}
    (h : Stage.Follows credentials stage stage') : stage.isTerminal = false := by
  cases h <;> rfl

/-! ### Those who end a connection -/

namespace Interleaving

variable {c link : Connection} {x y : Ender} {b : EnderAction} {ending : Ending}

/-- How somebody has ended the connection, if it was this party. -/
def Ender.ending? : Ender → Option Ending
  | .won ending | .sweeping ending _ | .delivering ending .. => some ending
  | .finished => some .closure
  | .idle | .lost => none

theorem Ender.won_iff : x.Won ↔ ∃ ending, x.ending? = some ending := by
  cases x <;> simp [Won, ending?]

/-- A party that has ended the connection goes on doing so. -/
theorem Ender.Step.keeps (h : Ender.Step c x b link y) (hx : x.ending? = some ending) :
    y.ending? = some ending := by
  cases h with
  | won | lost => cases hx
  | _ => exact hx

/-- A party ends the connection from when it takes it out of service. -/
theorem Ender.Step.ending?_cases (h : Ender.Step c x b link y) (hy : y.ending? = some ending) :
    x.ending? = some ending ∨ x = .idle ∧ y = .won ending ∧ c.stage.isEnding = false ∧
      link.stage = ending.target := by
  cases h with
  | won leave =>
    cases hy
    obtain ⟨hserves, rfl⟩ := Connection.leave?_eq_some_iff.mp leave
    exact .inr ⟨rfl, rfl, hserves, rfl⟩
  | lost => cases hy
  | _ => exact .inl hy

theorem Ender.Step.stage_eq_or_won (h : Ender.Step c x b link y) :
    link.stage = c.stage ∨ y.Won := by
  cases h with
  | won | finished => exact .inr trivial
  | _ => exact .inl rfl

theorem Ender.Step.target (h : Ender.Step c x b link y)
    (hx : ∀ ending, x.ending? = some ending →
      c.stage = ending.target ∨ x = .finished ∧ c.stage = .closed)
    (hy : y.ending? = some ending) :
    link.stage = ending.target ∨ y = .finished ∧ link.stage = .closed := by
  rcases h.ending?_cases hy with hsame | ⟨-, -, -, hstage⟩
  · cases h with
    | won | lost => cases hsame
    | finished => exact .inr ⟨rfl, rfl⟩
    | _ => exact .inl ((hx _ hsame).resolve_right nofun)
  · exact .inl hstage

theorem Ender.Step.tells {slot : ℕ} {outcome : Outcome} {rest : List UInt64}
    (h : Ender.Step c x b link (.delivering ending slot outcome rest)) :
    ∃ fault, outcome = .error fault ∧ ending.Tells c.address fault := by
  cases h with
  | taken => exact ⟨_, rfl, ending.tells_fault c⟩

variable {t t' : State} {a : Action} {j : ℕ}

/-- Somebody who ends the connection withdraws a pending request, or tells it so. -/
inductive Sweeps (address : Address) (ending : Ending) (j : ℕ) (t t' : State) : Prop
  | withdraws {id e fault} (found : t.table.find? id = some e)
    (table : t'.table = t.table.without id) (tells : ending.Tells address fault)
    (holds : t'.holding (.ender j) = some (e.slot, .error fault))
  | tells {slot fault} (held : t.holding (.ender j) = some (slot, .error fault))
    (tells : ending.Tells address fault)
    (table : t'.table = t.table.settled slot (.delivered (.error fault)))

/-- The stage is that of whoever has ended the connection, and so are the outcomes that it hands
out. -/
structure Owned (t : State) : Prop where
  decided : Decided t
  serves : t.link.stage = .ready ∨ t.link.stage.isEnding = true
  target : ∀ j ending, (t.enders j).ending? = some ending →
    t.link.stage = ending.target ∨ t.enders j = .finished ∧ t.link.stage = .closed
  tells : ∀ j ending slot outcome rest, t.enders j = .delivering ending slot outcome rest →
    ∃ fault, outcome = .error fault ∧ ending.Tells t.link.address fault

theorem Owned.step (h : Owned t) (hstep : Step t a t') : Owned t' := by
  have hdecided := h.decided.step hstep
  have haddress := hstep.address
  rcases hstep.stage with ⟨hstage, henders⟩ | ⟨j, y, b, hender, rfl, hafter⟩
  · refine ⟨hdecided, hstage ▸ h.serves, ?_, ?_⟩
    · rw [hstage, henders]
      exact h.target
    · intro i ending slot outcome rest hi
      rw [henders] at hi
      rw [haddress]
      exact h.tells i ending slot outcome rest hi
  · have hself : t'.enders j = y := by rw [hafter, State.setEnder_self]
    have hothers : ∀ i ≠ j, t'.enders i = t.enders i := by
      intro i hi
      rw [hafter, State.setEnder_of_ne hi]
    refine ⟨hdecided, ?_, fun i ending hi => ?_, fun i ending slot outcome rest hi => ?_⟩
    · rcases hender.wins_or_goes with ⟨-, hended⟩ | ⟨-, hsame | hclosed⟩
      · exact .inr hended
      · exact hsame ▸ h.serves
      · exact .inr (hclosed ▸ rfl)
    · by_cases hij : i = j
      · subst hij
        rw [hself] at hi ⊢
        exact hender.target (h.target i) hi
      · rcases hender.stage_eq_or_won with hsame | hwon
        · rw [hothers i hij] at hi ⊢
          rw [hsame]
          exact h.target i ending hi
        · -- nobody else has won
          have hi' := Ender.won_iff.mpr ⟨ending, hi⟩
          exact absurd (hdecided.winner i j hi' (hself ▸ hwon)) hij
    · by_cases hij : i = j
      · subst hij
        rw [hself] at hi
        subst hi
        rw [haddress]
        exact hender.tells
      · rw [hothers i hij] at hi
        rw [haddress]
        exact h.tells i ending slot outcome rest hi

theorem owned_start (address : Address) (greeting : Wire.Greeting) (syncs : SyncIds) :
    Owned (start address greeting syncs) := by
  refine ⟨⟨fun _ => False.elim, fun _ _ => False.elim⟩, .inl rfl, ?_, ?_⟩
  · intro j ending hj
    cases hj
  · intro j ending slot outcome rest hj
    cases hj

theorem Step.keeps (h : Step t a t') (hj : (t.enders j).ending? = some ending) :
    (t'.enders j).ending? = some ending := by
  rcases h.stage with ⟨-, henders⟩ | ⟨i, y, b, hender, -, hafter⟩
  · rwa [henders]
  · by_cases hij : j = i
    · subst hij
      rw [hafter, State.setEnder_self]
      exact hender.keeps hj
    · rwa [hafter, State.setEnder_of_ne hij]

theorem Step.ending?_cases (h : Step t a t') (hj : (t'.enders j).ending? = some ending) :
    (t.enders j).ending? = some ending ∨
      t'.enders j = .won ending ∧ t.link.stage.isEnding = false ∧
        t'.link.stage = ending.target := by
  rcases h.stage with ⟨-, henders⟩ | ⟨i, y, b, hender, -, hafter⟩
  · exact .inl (henders ▸ hj)
  · by_cases hij : j = i
    · subst hij
      have hself : t'.enders j = y := by rw [hafter, State.setEnder_self]
      rw [hself] at hj ⊢
      exact (hender.ending?_cases hj).imp_right And.right
    · rw [hafter, State.setEnder_of_ne hij] at hj
      exact .inl hj

/-- Who begins to end a connection in service takes it out of service; who comes later changes
nothing and does nothing more. -/
theorem Owned.begins (h : Owned t) (hstep : Step t (.ender j (.begin ending)) t') :
    t.link.stage = .ready ∧
        t' = t.setEnder j { t.link with stage := ending.target } (.won ending) ∨
      t.link.stage.isEnding = true ∧ t' = t.setEnder j t.link .lost ∧
        ∀ b u, ¬Step t' (.ender j b) u := by
  cases hstep with
  | @ender _ _ link y step =>
    generalize t.enders j = x at step
    cases step with
    | won leave =>
      obtain ⟨hserves, rfl⟩ := Connection.leave?_eq_some_iff.mp leave
      exact .inl ⟨h.serves.resolve_right (Bool.eq_false_iff.mp hserves), rfl⟩
    | lost leave =>
      refine .inr ⟨Connection.leave?_eq_none_iff.mp leave, rfl, fun b u hnext => ?_⟩
      cases hnext with
      | ender step =>
        rw [State.setEnder_self] at step
        cases step

/-- The last stage is stored in the one before it only. -/
theorem Owned.finishes (h : Owned t) (hstep : Step t (.ender j .finish) t') :
    t.link.stage = .closing ∧ t'.link.stage = .closed := by
  cases hstep with
  | @ender _ _ link y step =>
    generalize hx : t.enders j = x at step
    cases step with
    | finished =>
      refine ⟨(h.target j .closure (hx ▸ rfl)).resolve_right fun hfinished => ?_, rfl⟩
      rw [hx] at hfinished
      cases hfinished.1

/-- Only who has ended the connection withdraws pending requests, and tells them so. -/
theorem Owned.sweeps (h : Owned t) {b : EnderAction} (hstep : Step t (.ender j b) t')
    (changed : t'.table ≠ t.table) :
    ∃ ending, (t.enders j).ending? = some ending ∧ Sweeps t.link.address ending j t t' := by
  cases hstep with
  | @ender _ _ link y step =>
    generalize hx : t.enders j = x at step
    cases step with
    | won leave =>
      obtain ⟨-, rfl⟩ := Connection.leave?_eq_some_iff.mp leave
      exact absurd rfl changed
    | lost | listed | skipped | finished => exact absurd rfl changed
    | @taken ending id rest e found =>
      refine ⟨ending, rfl, .withdraws found rfl (ending.tells_fault t.link) ?_⟩
      rw [State.holding, State.setEnder_self]
      rfl
    | @delivered ending slot outcome rest =>
      obtain ⟨fault, rfl, htells⟩ := h.tells j ending slot outcome rest hx
      have hheld : t.holding (.ender j) = some (slot, .error fault) := by
        rw [State.holding, hx]
        rfl
      exact ⟨ending, rfl, .tells hheld htells rfl⟩

end Interleaving

/-! ### Opening a connection, and what comes after it -/

namespace Establishing

open Interleaving

variable {address : Address} {s s' s'' : State}

/-- The stage that the connection is in while it is being opened. -/
def Phase.stage? : Phase → Option Stage
  | .dialing => some .connecting
  | .greeting _ => some .handshaking
  | .challenged _ | .requesting .. | .replying .. => some .authenticating
  | .opened | .failed _ | .starved | .severed => none

/-- Before the connection is in service nobody ends it, and whoever opens it knows its stage. -/
structure Living (address : Address) (s : State) : Prop where
  address : s.channel.state.link.address = address
  alone : s.phase ≠ .opened → ∀ j, s.channel.state.enders j = .idle
  placed : ∀ stage, s.phase.stage? = some stage → s.stage = stage
  owned : s.phase = .opened → Owned s.channel.state

/-- In service the stage changes only by those who end the connection. -/
theorem Living.channel_follows (h : Living address s) (service : s.phase = .opened)
    {a : Interleaving.Action} {t : Interleaving.State}
    (step : Interleaving.Step s.channel.state a t) :
    t.link.stage = s.stage ∨ Stage.Follows credentials s.stage t.link.stage := by
  have howned := h.owned service
  rcases step.stage with ⟨hstage, -⟩ | ⟨j, y, b, hender, -, -⟩
  · exact .inl hstage
  · generalize hx : s.channel.state.enders j = x at hender
    generalize hlink : t.link = link at hender ⊢
    cases hender with
    | @won ending c' leave =>
      obtain ⟨hserves, rfl⟩ := Connection.leave?_eq_some_iff.mp leave
      have hready : s.stage = .ready := howned.serves.resolve_right (Bool.eq_false_iff.mp hserves)
      rw [hready]
      cases ending with
      | failure cause => exact .inr .fails
      | closure => exact .inr .closes
    | finished =>
      have hclosing : s.stage = .closing :=
        (howned.target j .closure (hx ▸ rfl)).resolve_right fun hfinished => by
          rw [hx] at hfinished
          cases hfinished.1
      rw [hclosing]
      exact .inr .ends
    | _ => exact .inl rfl

/-- Opening the connection goes on, or the parties in service do, or nothing happens to either. -/
theorem Step.parties (last : Step address credentials s s') :
    Advance address credentials s s' ∨ s'.channel.state = s.channel.state ∨
      s.phase = .opened ∧ ∃ a, Interleaving.Step s.channel.state a s'.channel.state := by
  cases last with
  | advances step => exact .inl step
  | arrives | starves | severed | reads => exact .inr (.inl rfl)
  | hears service frame step => exact .inr (.inr ⟨service, _, step⟩)
  | others service step =>
    rcases step.state with hsame | hstep
    · exact .inr (.inl hsame)
    · exact .inr (.inr ⟨service, hstep⟩)

/-- The life of the connection goes on in order. -/
theorem Living.follows (h : Living address s) (last : Step address credentials s s') :
    s'.stage = s.stage ∨ Stage.Follows credentials s.stage s'.stage := by
  rcases last.parties with step | hsame | ⟨service, a, hstep⟩
  · cases step with
    | dialed phase =>
      rw [h.placed _ (congrArg Phase.stage? phase)]
      exact .inr .dialed
    | welcome phase whole greeting guest =>
      rw [h.placed _ (congrArg Phase.stage? phase)]
      exact .inr (.welcome guest)
    | challenged phase whole greeting user =>
      rw [h.placed _ (congrArg Phase.stage? phase)]
      exact .inr (.challenged (user ▸ nofun))
    | accepted phase =>
      rw [h.placed _ (congrArg Phase.stage? phase)]
      exact .inr .accepted
    | _ => exact .inl rfl
  · exact .inl (congrArg (fun t => t.link.stage) hsame)
  · exact h.channel_follows service hstep

namespace Living

variable {phase : Phase} {stage : Stage}

/-- Opening the connection goes on in the same stage, or has failed. -/
theorem read (h : Living address s) (underway : s.phase ≠ .opened) (hphase : phase ≠ .opened)
    (hstage : ∀ stage, phase.stage? = some stage → s.phase.stage? = some stage)
    (pending : Octets) : Living address (s.read phase pending) :=
  ⟨h.address, fun _ => h.alone underway, fun stage hp => h.placed stage (hstage stage hp),
    fun hopened => absurd hopened hphase⟩

theorem turn (h : Living address s) (underway : s.phase ≠ .opened) (hphase : phase ≠ .opened)
    (hstage : ∀ stage, phase.stage? = some stage → s.phase.stage? = some stage) :
    Living address (s.turn phase) :=
  h.read underway hphase hstage s.pending

/-- Opening the connection goes on in the next stage. -/
theorem store (h : Living address s) (underway : s.phase ≠ .opened) (hphase : phase ≠ .opened)
    (hstage : phase.stage? = some stage) : Living address ((s.store stage).turn phase) :=
  ⟨h.address, fun _ => h.alone underway, fun _ hp => Option.some.inj (hstage.symm.trans hp),
    fun hopened => absurd hopened hphase⟩

theorem enter (g : Wire.Greeting) (syncs : SyncIds) (left : Octets) :
    Living address (s.enter address g syncs left) :=
  ⟨rfl, fun hphase => absurd rfl hphase, nofun, fun _ => owned_start address g syncs⟩

/-- In service it is enough to look at the parties. -/
theorem of_opened (opened : s.phase = .opened)
    (haddress : s.channel.state.link.address = address) (howned : Owned s.channel.state) :
    Living address s := by
  refine ⟨haddress, fun hne => absurd opened hne, fun _ hp => ?_, fun _ => howned⟩
  rw [opened] at hp
  cases hp

theorem advance (h : Living address s) (step : Advance address credentials s s') :
    Living address s' := by
  have hunderway := step.underway.ne_opened
  cases step with
  | dialed | challenged => exact h.store hunderway nofun rfl
  | readsGreeting phase | readsReply phase =>
    refine h.read hunderway ?_ ?_ _
    · exact nofun
    · rw [phase]
      exact fun _ => id
  | prepared phase | writes phase | requested phase =>
    refine h.turn hunderway ?_ ?_
    · exact nofun
    · rw [phase]
      exact fun _ => id
  | unwelcome | unprepared | garbled | rejected => exact h.turn hunderway nofun nofun
  | welcome | accepted => exact enter ..

/-- Whatever happens, the stage is known from who has ended the connection, and before that from
how far opening it has come. -/
theorem step (h : Living address s) (last : Step address credentials s s') : Living address s' := by
  cases last with
  | arrives => exact ⟨h.address, h.alone, h.placed, h.owned⟩
  | advances step => exact h.advance step
  | starves lacks => exact h.turn lacks.underway.ne_opened nofun nofun
  | severed underway => exact h.turn underway.ne_opened nofun nofun
  | reads service => exact of_opened rfl h.address (h.owned service)
  | hears service frame step =>
    exact of_opened service (step.address.trans h.address) ((h.owned service).step step)
  | others service step =>
    rcases step.state with hsame | ⟨a, hstep⟩
    · exact of_opened service (hsame ▸ h.address) (hsame ▸ h.owned service)
    · exact of_opened service (hstep.address.trans h.address) ((h.owned service).step hstep)

end Living

/-! ### Runs -/

theorem Run.living (h : Run address credentials (start address) s) : Living address s := by
  induction h with
  | nil => exact ⟨rfl, fun _ _ => rfl, fun _ hp => Option.some.inj hp, nofun⟩
  | snoc _ last ih => exact ih.step last

theorem Run.living_of (h : Run address credentials s s') (hs : Living address s) :
    Living address s' := by
  induction h with
  | nil => exact hs
  | snoc _ last ih => exact ih.step last

/-- A stage is left for later ones. -/
theorem Run.stage_eq_or_rank_lt (h : Run address credentials s s') (hs : Living address s) :
    s'.stage = s.stage ∨ s.stage.rank < s'.stage.rank := by
  induction h with
  | nil => exact .inl rfl
  | snoc init last ih =>
    rcases (init.living_of hs).follows last with hsame | hnext
    · rwa [hsame]
    · refine .inr ?_
      rcases ih with hstage | hlt
      · exact hstage ▸ hnext.rank_lt
      · exact hlt.trans hnext.rank_lt

theorem Run.stage_of_isTerminal (h : Run address credentials s s') (hs : Living address s)
    (terminal : s.stage.isTerminal = true) : s'.stage = s.stage := by
  induction h with
  | nil => rfl
  | snoc init last ih =>
    rcases (init.living_of hs).follows last with hsame | hnext
    · exact hsame.trans ih
    · rw [← ih, hnext.isTerminal_eq] at terminal
      cases terminal

variable {j : ℕ} {ending : Ending}

/-- Somebody takes the connection out of service, which nobody had done before. -/
structure Wins (address : Address) (credentials : Option Credentials) (j : ℕ) (ending : Ending)
    (s s' : State) : Prop where
  step : Step address credentials s s'
  ready : s.stage = .ready
  first : ∀ i, (s.channel.state.enders i).ending? = none
  won : s'.channel.state.enders j = .won ending
  stage : s'.stage = ending.target

/-- Somebody ends the connection in service only. -/
theorem Living.opened_of_ending? (h : Living address s)
    (hj : (s.channel.state.enders j).ending? = some ending) : s.phase = .opened := by
  by_contra hphase
  rw [h.alone hphase j] at hj
  cases hj

theorem Living.ended_or_wins (h : Living address s) (last : Step address credentials s s')
    (hj : (s'.channel.state.enders j).ending? = some ending) :
    (s.channel.state.enders j).ending? = some ending ∨ Wins address credentials j ending s s' := by
  rcases last.parties with step | hsame | ⟨service, a, hstep⟩
  · cases step with
    -- nobody has begun to end a connection that has just come into service
    | welcome | accepted => cases hj
    | _ => exact .inl hj
  · exact .inl (hsame ▸ hj)
  · have howned := h.owned service
    refine (hstep.ending?_cases hj).imp_right fun ⟨hwon, hserves, hstage⟩ =>
      ⟨last, howned.serves.resolve_right ?_, fun i => ?_, hwon, hstage⟩
    · exact Bool.eq_false_iff.mp hserves
    · by_contra hi
      have hended := howned.decided.ended i (Ender.won_iff.mpr (Option.ne_none_iff_exists'.mp hi))
      exact Bool.eq_false_iff.mp hserves hended

/-- It was this party that took the connection out of service. -/
def EndedBy (address : Address) (credentials : Option Credentials) (j : ℕ) (ending : Ending)
    (s : State) : Prop :=
  ∃ u v, Run address credentials (start address) u ∧ Wins address credentials j ending u v ∧
    Run address credentials v s

theorem EndedBy.snoc (h : EndedBy address credentials j ending s)
    (last : Step address credentials s s') : EndedBy address credentials j ending s' := by
  obtain ⟨u, v, hu, hwins, hrest⟩ := h
  exact ⟨u, v, hu, hwins, hrest.snoc last⟩

theorem Run.endedBy (h : Run address credentials (start address) s)
    (hj : (s.channel.state.enders j).ending? = some ending) :
    EndedBy address credentials j ending s := by
  induction h with
  | nil => cases hj
  | snoc init last ih =>
    rcases init.living.ended_or_wins last hj with hbefore | hwins
    · exact (ih hbefore).snoc last
    · exact ⟨_, _, init, hwins, .nil⟩

theorem Living.keeps (h : Living address s) (last : Step address credentials s s')
    (hj : (s.channel.state.enders j).ending? = some ending) :
    (s'.channel.state.enders j).ending? = some ending := by
  rcases last.parties with step | hsame | ⟨-, a, hstep⟩
  · exact absurd (h.opened_of_ending? hj) step.underway.ne_opened
  · exact hsame ▸ hj
  · exact hstep.keeps hj

theorem Run.keeps (h : Run address credentials s s') (hs : Living address s)
    (hj : (s.channel.state.enders j).ending? = some ending) :
    (s'.channel.state.enders j).ending? = some ending := by
  induction h with
  | nil => exact hj
  | snoc init last ih => exact (init.living_of hs).keeps last ih

/-- Whoever has ended the connection is the only one, now and later. -/
theorem Living.only (h : Living address s)
    (hj : (s.channel.state.enders j).ending? = some ending) (hrun : Run address credentials s s')
    {i : ℕ} {other : Ending} (hi : (s'.channel.state.enders i).ending? = some other) :
    i = j ∧ other = ending := by
  have hj' := hrun.keeps h hj
  have hs' := hrun.living_of h
  have howned := hs'.owned (hs'.opened_of_ending? hj')
  obtain rfl : i = j :=
    howned.decided.winner i j (Ender.won_iff.mpr ⟨_, hi⟩) (Ender.won_iff.mpr ⟨_, hj'⟩)
  exact ⟨rfl, Option.some.inj (hi.symm.trans hj')⟩

/-- The life of a connection begins with its being dialed and goes on in order: a stage that has
been left does not come back, and the last ones are never left.  Nobody ends the connection before
it is in service.  Of those who begin to end it after that, the first takes it out of service, and
the others change nothing and do nothing more; the last stage is stored in the one before it only.
There is at most one who has ended the connection, for good, and nobody else withdraws pending
requests to tell them so: they are told that the connection has been closed, or why it has
failed. -/
theorem Run.lives_once (h : Run address credentials (start address) s) :
    (start address).stage = .connecting ∧
    (∀ s', Step address credentials s s' →
      s'.stage = s.stage ∨ Stage.Follows credentials s.stage s'.stage) ∧
    (∀ s' s'', Run address credentials s s' → s'.stage ≠ s.stage →
      Run address credentials s' s'' → s''.stage ≠ s.stage) ∧
    (s.stage.isTerminal = true → ∀ s', Run address credentials s s' → s'.stage = s.stage) ∧
    (s.phase ≠ .opened → ∀ j, s.channel.state.enders j = .idle) ∧
    (s.phase = .opened →
      (∀ j ending t, Interleaving.Step s.channel.state (.ender j (.begin ending)) t →
        s.stage = .ready ∧ t = s.channel.state.setEnder j
            { s.channel.state.link with stage := ending.target } (.won ending) ∨
          s.stage.isEnding = true ∧
            t = s.channel.state.setEnder j s.channel.state.link .lost ∧
            ∀ b u, ¬Interleaving.Step t (.ender j b) u) ∧
      (∀ j t, Interleaving.Step s.channel.state (.ender j .finish) t →
        s.stage = .closing ∧ t.link.stage = .closed) ∧
      ∀ j b t, Interleaving.Step s.channel.state (.ender j b) t →
        t.table ≠ s.channel.state.table →
          ∃ ending, (s.channel.state.enders j).ending? = some ending ∧
            Sweeps address ending j s.channel.state t) ∧
    ∀ j ending, (s.channel.state.enders j).ending? = some ending →
      EndedBy address credentials j ending s ∧
      ∀ s', Run address credentials s s' → ∀ i other,
        (s'.channel.state.enders i).ending? = some other → i = j ∧ other = ending := by
  have hs := h.living
  -- each part is what one step or all later steps do to a connection that lives so
  refine ⟨rfl, fun s' => hs.follows, fun s' s'' hrun hleft hrest hback => ?_,
    fun hterminal s' hrun => hrun.stage_of_isTerminal hs hterminal, hs.alone, fun service => ?_,
    fun j ending hj => ⟨h.endedBy hj, fun s' hrun i other hi => hs.only hj hrun hi⟩⟩
  · have hlt := (hrun.stage_eq_or_rank_lt hs).resolve_left hleft
    rcases hrest.stage_eq_or_rank_lt (hrun.living_of hs) with hsame | hlater
    · exact hleft (hsame ▸ hback)
    · rw [hback] at hlater
      exact lt_asymm hlt hlater
  · have howned := hs.owned service
    exact ⟨fun j ending t => howned.begins, fun j t => howned.finishes,
      fun j b t hstep hchanged => hs.address ▸ howned.sweeps hstep hchanged⟩

theorem Run.sends (h : Run address credentials (start address) s) (service : s.phase = .opened)
    {k : ℕ} {a : SenderAction} {t : Interleaving.State}
    (step : Interleaving.Step s.channel.state (.sender k a) t) (other : a ≠ .enqueue) :
    Run address credentials (start address) (s.withChannel (s.channel.moved t)) :=
  h.snoc (.others service (.sender other step) rfl rfl)

theorem Run.ends (h : Run address credentials (start address) s) (service : s.phase = .opened)
    {b : EnderAction} {t : Interleaving.State}
    (step : Interleaving.Step s.channel.state (.ender j b) t) :
    Run address credentials (start address) (s.withChannel (s.channel.moved t)) :=
  h.snoc (.others service (.ender step) rfl rfl)

set_option maxRecDepth 4000 in
/-- The connection is closed; somebody who finds it broken meanwhile comes too late, and the pending
request is told that the connection has been closed. -/
theorem lives_once_closed_first :
    ∃ s, Run default none (start default) s ∧ s.stage = .closed ∧
      s.channel.state.enders 1 = .lost ∧
      s.channel.state.table.slot 0 =
        .delivered (.error (.connectionClosed (Address.display default))) ∧
      EndedBy default none 0 .closure s ∧
      ∀ s', Run default none s s' → s'.stage = .closed ∧
        ∀ i other, (s'.channel.state.enders i).ending? = some other → i = 0 := by
  obtain ⟨raw, hraw, hgreeting⟩ :
      ∃ raw, raw.length = Wire.Greeting.size ∧ Handshake.greeting raw = .ok hello :=
    ⟨hello.render, by rfl, Handshake.greeting_eq_ok_iff.mpr (by rfl)⟩
  obtain ⟨s₁, h₁, hphase₁, -⟩ :
      ∃ s, Run default none (start default) s ∧ s.phase = .greeting raw ∧
        s.pending = [] ∧ s.heard = [] := exists_run_greeting hraw
  have h₂ := h₁.snoc (.advances (.welcome hphase₁ hraw hgreeting rfl))
  have h₃ := h₂.sends rfl (Interleaving.Step.of_sender (k := 0) rfl
    (.checked rfl : Sender.Step _ _ _ (.check .ping (.ofMillis 5)) _ _)) nofun
  have h₄ := h₃.sends rfl (Interleaving.Step.of_sender (k := 0) rfl
    (.registered : Sender.Step _ _ _ (.register 5) _ _)) nofun
  have h₅ := h₄.ends rfl (Interleaving.Step.of_ender (j := 0) rfl
    (.won rfl : Ender.Step _ _ (.begin .closure) _ _))
  have h₆ := h₅.ends rfl (Interleaving.Step.of_ender (j := 1) rfl
    (.lost rfl : Ender.Step _ _ (.begin (.failure (.transport "gone"))) _ _))
  have h₇ := h₆.ends rfl (Interleaving.Step.of_ender (j := 0) rfl .listed)
  have h₈ := h₇.ends rfl (Interleaving.Step.of_ender (j := 0) rfl (.taken rfl))
  have h₉ := h₈.ends rfl (Interleaving.Step.of_ender (j := 0) rfl .delivered)
  have h := h₉.ends rfl (Interleaving.Step.of_ender (j := 0) rfl .finished)
  obtain ⟨-, -, -, hterminal, -, -, hended⟩ := h.lives_once
  obtain ⟨hby, honly⟩ := hended 0 .closure rfl
  exact ⟨_, h, rfl, rfl, rfl, hby, fun s' hrun =>
    ⟨hterminal rfl s' hrun, fun i other hi => (honly s' hrun i other hi).1⟩⟩

end Establishing

end Switchboard
