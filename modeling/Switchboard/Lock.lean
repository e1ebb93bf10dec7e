/-!
# Locks

A lock that is handed on in the order of arrival.  Each party that wants it is known by a ticket.

## Main definitions

- `Lock` — the holder and the line of those who wait
- `Lock.request`, `Lock.release`, `Lock.withdraw` — the operations

## Main statements

- `Lock.eq_of_isHeldBy` — only one party holds the lock
- `Lock.isHeldBy_request`, `Lock.isHeldBy_withdraw` — it keeps it whatever the others do
-/

namespace Switchboard

/-- A lock: the ticket of its holder, and the tickets of those who wait, the first in line first. -/
structure Lock where
  holder : Option Nat
  line : List Nat
  deriving Repr, DecidableEq, Inhabited

namespace Lock

/-- Nobody holds the lock. -/
def free : Lock := ⟨none, []⟩

/-- Does the party hold the lock? -/
def isHeldBy (l : Lock) (ticket : Nat) : Bool :=
  l.holder = some ticket

/-- Takes the lock if it is free, and joins the line otherwise. -/
def request (l : Lock) (ticket : Nat) : Lock :=
  match l.holder with
  | none => { l with holder := some ticket }
  | some _ => { l with line := l.line ++ [ticket] }

/-- Hands the lock to the first in line. -/
def release (l : Lock) : Lock :=
  ⟨l.line.head?, l.line.tail⟩

/-- The party gives up the lock if it holds it, and its place in the line otherwise. -/
def withdraw (l : Lock) (ticket : Nat) : Lock :=
  if l.isHeldBy ticket then l.release else { l with line := l.line.filter (· ≠ ticket) }

/-! ### Who holds a lock -/

theorem isHeldBy_request {l : Lock} {j k : Nat} (h : l.isHeldBy j = true) :
    (l.request k).isHeldBy j = true := by
  obtain ⟨holder, line⟩ := l
  have hholder : holder = some j := of_decide_eq_true h
  subst hholder
  exact h

theorem eq_of_isHeldBy {l : Lock} {j k : Nat} (hj : l.isHeldBy j = true)
    (hk : l.isHeldBy k = true) : j = k := by
  have hj' : l.holder = some j := of_decide_eq_true hj
  have hk' : l.holder = some k := of_decide_eq_true hk
  exact Option.some.inj (hj'.symm.trans hk')

/-- Others who withdraw leave the holder the lock. -/
theorem isHeldBy_withdraw {l : Lock} {j k : Nat} (h : l.isHeldBy j = true) (hne : j ≠ k) :
    (l.withdraw k).isHeldBy j = true := by
  have hk : ¬l.isHeldBy k = true := fun hk => hne (eq_of_isHeldBy h hk)
  rw [withdraw, if_neg hk]
  exact h

end Lock

end Switchboard
