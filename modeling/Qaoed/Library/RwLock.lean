import Mathlib.Logic.Function.Basic
import Qaoed.Library.Transition

/-!
# Read-write locks in the hands of one thread

The calls that a thread makes on read-write locks, and what it holds after them.
A call is allowed where the thread gives up a lock it holds and does not wait for
itself. Calls are balanced if all of them are allowed and nothing is held at the end.
-/

namespace Qaoed.Library

inductive LockCall (κ : Type*) where
  | rdlock (lock : κ)
  | wrlock (lock : κ)
  | unlock (lock : κ)
  deriving DecidableEq, Repr

/-- What a thread holds of one lock; `read` has the number of further read locks. -/
inductive Hold where
  | free
  | read (further : Nat)
  | write
  deriving DecidableEq, Repr

namespace Hold

def rdlock : Hold → Option Hold
  | free => some (read 0)
  | read further => some (read (further + 1))
  | write => none

def wrlock : Hold → Option Hold
  | free => some write
  | read _ => none
  | write => none

def unlock : Hold → Option Hold
  | free => none
  | read 0 => some free
  | read (further + 1) => some (read further)
  | write => some free

end Hold

variable {κ : Type*} [DecidableEq κ]

/-- The hold on one lock changes, if it may. -/
def onLock (change : Hold → Option Hold) (held : κ → Hold) (lock : κ) : Option (κ → Hold) :=
  (change (held lock)).map (Function.update held lock)

def lockStep (held : κ → Hold) : LockCall κ → Option (κ → Hold)
  | .rdlock lock => onLock Hold.rdlock held lock
  | .wrlock lock => onLock Hold.wrlock held lock
  | .unlock lock => onLock Hold.unlock held lock

/-- What is held after calls, if they are all allowed. -/
def afterCalls (held : κ → Hold) (calls : List (LockCall κ)) : Option (κ → Hold) :=
  runSteps lockStep held calls

/-- No lock is held. -/
def unheld : κ → Hold := fun _ => .free

def Balanced (calls : List (LockCall κ)) : Prop := afterCalls unheld calls = some unheld

/-- A lock that is taken where nothing is held, and given up again. -/
theorem onLock_returned (change : Hold → Option Hold) (hold : Hold) (lock : κ)
    (changes : change .free = some hold) (returns : hold.unlock = some .free) :
    (onLock change unheld lock).bind (fun held => runSteps lockStep held [.unlock lock]) =
      some unheld := by
  have taken : onLock change unheld lock = some (Function.update unheld lock hold) := by
    rw [onLock, unheld, changes, Option.map_some]
  have back : lockStep (Function.update unheld lock hold) (.unlock lock) = some unheld := by
    rw [lockStep, onLock, Function.update_self, returns, Option.map_some, Function.update_idem]
    exact congrArg some (Function.update_eq_self lock unheld)
  rw [taken, Option.bind_some, runSteps, back, Option.bind_some, runSteps]

namespace Balanced

theorem nil : Balanced ([] : List (LockCall κ)) := rfl

theorem rdlock_unlock (lock : κ) : Balanced [.rdlock lock, .unlock lock] :=
  onLock_returned Hold.rdlock (.read 0) lock rfl rfl

theorem wrlock_unlock (lock : κ) : Balanced [.wrlock lock, .unlock lock] :=
  onLock_returned Hold.wrlock .write lock rfl rfl

theorem append {first second : List (LockCall κ)} (balanced : Balanced first)
    (balanced' : Balanced second) : Balanced (first ++ second) := by
  rw [Balanced, afterCalls, runSteps_append]
  rw [Balanced, afterCalls] at balanced
  rw [balanced]
  exact balanced'

theorem afterCalls_append {first : List (LockCall κ)} (balanced : Balanced first)
    (later : List (LockCall κ)) : afterCalls unheld (first ++ later) = afterCalls unheld later := by
  rw [Balanced, afterCalls] at balanced
  rw [afterCalls, runSteps_append, balanced, Option.bind_some, afterCalls]

end Balanced

end Qaoed.Library
