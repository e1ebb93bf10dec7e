import Mathlib.Data.List.Basic
import Mathlib.Logic.Function.Basic
import Switchboard.Lock
import Switchboard.Pool

/-!
# The steps of those who use a pool

Callers that have the missing connections of a pool opened, and callers that close it, one
indivisible step at a time.  Opening holds the lock from counting the connections until those opened
have been taken in; closing first marks the pool and then waits for the lock.  In between any other
party may go on, and connections fail, are closed and come to their end as they like.

## Main definitions

- `Stage.Next` — how the life of a connection in service goes on
- `Stocking.Site` — what the parties share
- `Stocking.Replenishing`, `Stocking.Closing`, `Stocking.Party` — how far a party has come
- `Stocking.Step` — what may happen next
- `Stocking.Run` — the steps of all parties in any order

## Design notes

Maintenance is a row of parties, one for each tick, and so is a caller that asks again.  A party
that goes away may do so whenever it waits; the connections that it has opened are nobody's then.
-/

namespace Switchboard

/-! ### Lives of connections -/

/-- How the life of a connection in service goes on. -/
inductive Stage.Next : Stage → Stage → Prop
  | fails {s} (serves : s.isEnding = false) : Next s .failed
  | closes {s} (serves : s.isEnding = false) : Next s .closing
  | ends : Next .closing .closed

/-- A life that is over does not go on. -/
theorem Stage.Next.isTerminal_eq {s s' : Stage} (h : Next s s') : s.isTerminal = false := by
  cases h with
  | fails serves | closes serves =>
    rw [isEnding, Bool.or_eq_false_iff] at serves
    exact serves.2
  | ends => rfl

namespace Stocking

/-- What the parties share. -/
structure Site where
  pool : Pool
  /-- is held while connections are opened and taken in, and while they are closed -/
  lock : Lock
  /-- how far the lives of all connections ever opened have come, by number -/
  stages : List Stage
  /-- has everybody let go of the pool? -/
  abandoned : Bool

namespace Site

/-- How far the life of a connection has come. -/
def stage (c : Site) (n : ℕ) : Stage :=
  c.stages.getD n .connecting

/-- The connections of the pool whose lives are not over. -/
def live (c : Site) : List ℕ :=
  c.pool.members.filter fun n => !(c.stage n).isTerminal

/-- The connection with the number is in another stage. -/
def setStage (c : Site) (n : ℕ) (s : Stage) : Site :=
  { c with stages := c.stages.set n s }

/-- The party has the lock no longer, or has left the line. -/
def withdraw (c : Site) (k : ℕ) : Site :=
  { c with lock := c.lock.withdraw k }

end Site

/-! ### Opening connections -/

/-- What has come of an attempt to open a connection. -/
inductive Attempt where
  | running
  | failed
  | opened (n : ℕ)
  deriving DecidableEq

/-- The connection that an attempt has opened. -/
def Attempt.number? : Attempt → Option ℕ
  | .opened n => some n
  | _ => none

/-- How far opening the missing connections has come. -/
inductive Replenishing where
  /-- the lock has been asked for -/
  | queued
  /-- `live` were the connections that counted, and so many attempts have been begun as were missing
  -/
  | opening (live : List ℕ) (attempts : List Attempt)
  /-- so many have been taken in -/
  | installed (count : ℕ)

/-- The steps of opening the missing connections.  The party is known to the lock by the ticket. -/
inductive Replenishing.Step (c : Site) (ticket : ℕ) : Replenishing → Site → Replenishing → Prop
  | refused (granted : c.lock.isHeldBy ticket = true) (stopping : c.pool.stopping = true) :
    Step c ticket .queued c (.installed 0)
  | begun (granted : c.lock.isHeldBy ticket = true) (stopping : c.pool.stopping = false) :
    Step c ticket .queued c
      (.opening c.live (List.replicate (c.pool.missing c.stage) .running))
  | opened {live} (front back : List Attempt) :
    Step c ticket (.opening live (front ++ .running :: back))
      { c with stages := c.stages ++ [.ready] }
      (.opening live (front ++ .opened c.stages.length :: back))
  | failed {live} (front back : List Attempt) :
    Step c ticket (.opening live (front ++ .running :: back)) c
      (.opening live (front ++ .failed :: back))
  | installed {live attempts} (finished : .running ∉ attempts) :
    Step c ticket (.opening live attempts)
      { c with pool := c.pool.install c.stage (attempts.filterMap Attempt.number?) }
      (.installed (attempts.filterMap Attempt.number?).length)

/-! ### Closing the pool -/

/-- How far closing the pool has come. -/
inductive Closing where
  /-- the pool is marked as closed -/
  | marked
  /-- maintenance and everybody who opens connections have been told to stop -/
  | stopped
  /-- the lock has been asked for -/
  | queued
  /-- the connections have been taken out; `rest` are still to be closed, and the ends of `begun`
  are waited for -/
  | sweeping (rest begun : List ℕ)

/-- The steps of closing the pool. -/
inductive Closing.Step (c : Site) (ticket : ℕ) : Closing → Site → Closing → Prop
  | stopped : Step c ticket .marked { c with pool := { c.pool with stopping := true } } .stopped
  | requested : Step c ticket .stopped { c with lock := c.lock.request ticket } .queued
  | taken (granted : c.lock.isHeldBy ticket = true) :
    Step c ticket .queued { c with pool := c.pool.takeAll.2 } (.sweeping c.pool.takeAll.1 [])
  | closes {n rest begun} (serves : (c.stage n).isEnding = false) :
    Step c ticket (.sweeping (n :: rest) begun) (c.setStage n .closing)
      (.sweeping rest (begun ++ [n]))
  /-- somebody else has begun to end the life of the connection -/
  | passes {n rest begun} (ending : (c.stage n).isEnding = true) :
    Step c ticket (.sweeping (n :: rest) begun) c (.sweeping rest begun)
  | finished {n rest} (front back : List ℕ) :
    Step c ticket (.sweeping rest (front ++ n :: back)) (c.setStage n .closed)
      (.sweeping rest (front ++ back))

/-! ### All parties -/

/-- How far a party has come. -/
inductive Party where
  | idle
  | replenishing (work : Replenishing)
  /-- so many connections have been taken in -/
  | replenished (count : ℕ)
  | closing (work : Closing)
  | closed
  /-- somebody else had begun to close the pool -/
  | turnedAway
  /-- the party has gone away -/
  | gone

/-- The steps of a party. -/
inductive Party.Step (c : Site) (k : ℕ) : Party → Site → Party → Prop
  | asks : Step c k .idle { c with lock := c.lock.request k } (.replenishing .queued)
  | replenishing {work c' work'} (step : Replenishing.Step c k work c' work') :
    Step c k (.replenishing work) c' (.replenishing work')
  | replenished {count} :
    Step c k (.replenishing (.installed count)) (c.withdraw k) (.replenished count)
  | marks (first : c.pool.closed = false) :
    Step c k .idle { c with pool := { c.pool with closed := true } } (.closing .marked)
  | turnedAway (again : c.pool.closed = true) : Step c k .idle c .turnedAway
  | closing {work c' work'} (step : Closing.Step c k work c' work') :
    Step c k (.closing work) c' (.closing work')
  | closed : Step c k (.closing (.sweeping [] [])) (c.withdraw k) .closed
  | leaves {work} : Step c k (.replenishing work) (c.withdraw k) .gone
  | drops {work} : Step c k (.closing work) (c.withdraw k) .gone

/-- The site and the parties, by number. -/
structure State where
  site : Site
  parties : ℕ → Party

namespace State

/-- A party and the site have moved on. -/
def move (s : State) (k : ℕ) (site : Site) (x : Party) : State :=
  ⟨site, Function.update s.parties k x⟩

/-- The site has moved on. -/
def withSite (s : State) (site : Site) : State :=
  { s with site }

/-- A party that has done nothing yet begins to close the pool. -/
def mark (s : State) (k : ℕ) : State :=
  s.move k { s.site with pool := { s.site.pool with closed := true } } (.closing .marked)

@[simp] theorem move_self (s : State) (k : ℕ) (site : Site) (x : Party) :
    (s.move k site x).parties k = x :=
  Function.update_self ..

theorem move_of_ne {j k : ℕ} (h : j ≠ k) (s : State) (site : Site) (x : Party) :
    (s.move k site x).parties j = s.parties j :=
  Function.update_of_ne h ..

end State

/-- Something happens. -/
inductive Step (s : State) : State → Prop
  | party {k site x} (step : Party.Step s.site k (s.parties k) site x) : Step s (s.move k site x)
  /-- a connection fails, is closed by somebody, or has been closed -/
  | life {n stage} (exist : n < s.site.stages.length) (next : Stage.Next (s.site.stage n) stage) :
    Step s (s.withSite (s.site.setStage n stage))
  /-- somebody opens a connection that is not for the pool -/
  | elsewhere : Step s (s.withSite { s.site with stages := s.site.stages ++ [.ready] })
  /-- somebody picks a connection -/
  | acquire (shard draw : ℕ) :
    Step s (s.withSite { s.site with pool := (s.site.pool.acquire s.site.stage shard draw).2 })
  /-- everybody lets go of the pool -/
  | abandoned :
    Step s (s.withSite
      { s.site with pool := { s.site.pool with stopping := true }, abandoned := true })

/-- Things happen in any order, from one state to another. -/
inductive Run (start : State) : State → Prop
  | nil : Run start start
  | snoc {s s'} (init : Run start s) (last : Step s s') : Run start s'

/-- A pool without connections, while others may have been opened elsewhere.  Nobody has done
anything. -/
def start (address : Address) (config : ClientConfig) (stages : List Stage) : State :=
  ⟨⟨.empty address config, .free, stages, false⟩, fun _ => .idle⟩

/-- Those who use the pool have come there since it came to be. -/
def Reachable (s : State) : Prop :=
  ∃ address config stages, Run (start address config stages) s

theorem Step.of_party {s : State} {k : ℕ} {x y : Party} {site : Site} (h : s.parties k = x)
    (step : Party.Step s.site k x site y) : Step s (s.move k site y) :=
  .party (h ▸ step)

theorem Step.mark {s : State} {k : ℕ} (idle : s.parties k = .idle)
    (first : s.site.pool.closed = false) : Step s (s.mark k) :=
  .of_party idle (.marks first)

theorem Run.trans {s s' s'' : State} (h : Run s s') (h' : Run s' s'') : Run s s'' := by
  induction h' with
  | nil => exact h
  | snoc _ last ih => exact ih.snoc last

theorem Reachable.run {s s' : State} (hs : Reachable s) (h : Run s s') : Reachable s' := by
  obtain ⟨address, config, stages, hrun⟩ := hs
  exact ⟨address, config, stages, hrun.trans h⟩

end Stocking

end Switchboard
