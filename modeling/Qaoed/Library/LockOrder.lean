import Mathlib.Data.Finset.Max
import Mathlib.Logic.Relation
import Qaoed.Library.RwLock

/-!
# Threads that take locks in an order

Any number of threads that each make calls on shared read-write locks; a mutex is a lock that
is only written. If every thread takes locks in the order of a rank, and gives up all of them,
the threads never wait for each other in a circle, whether or not waiting writers keep readers
out.
-/

namespace Qaoed.Library

variable {κ : Type*}

namespace LockCall

def lock : LockCall κ → κ
  | rdlock lock => lock
  | wrlock lock => lock
  | unlock lock => lock

/-- The call takes its lock. -/
def Takes : LockCall κ → Prop
  | rdlock _ => True
  | wrlock _ => True
  | unlock _ => False

end LockCall

/-- A thread with what it holds and the calls that it has still to make. -/
structure LockThread (κ : Type*) where
  held : κ → Hold
  calls : List (LockCall κ)

/-- A thread that is between two rounds. -/
def LockThread.idle : LockThread κ := ⟨unheld, []⟩

section Order

variable [DecidableEq κ]

/-- Each lock is taken above all that is held, and in the end nothing is held. -/
inductive Ascending (rank : κ → Nat) : (κ → Hold) → List (LockCall κ) → Prop
  | done : Ascending rank unheld []
  | call {held next : κ → Hold} {call : LockCall κ} {calls : List (LockCall κ)} :
      (call.Takes → ∀ lock, held lock ≠ .free → rank lock < rank call.lock) →
      lockStep held call = some next → Ascending rank next calls → Ascending rank held (call :: calls)

namespace Ascending

variable {rank : κ → Nat} {held : κ → Hold} {calls later : List (LockCall κ)}

theorem nothing_held (last : Ascending rank held []) : held = unheld := by
  cases last
  rfl

theorem next {call : LockCall κ} (ascending : Ascending rank held (call :: calls)) :
    ∃ next, lockStep held call = some next ∧
      (call.Takes → ∀ lock, held lock ≠ .free → rank lock < rank call.lock) ∧
      Ascending rank next calls := by
  cases ascending with
  | call above taken later => exact ⟨_, taken, above, later⟩

theorem append (first : Ascending rank held calls) (second : Ascending rank unheld later) :
    Ascending rank held (calls ++ later) := by
  induction first with
  | done => exact second
  | call above taken _ ih => exact .call above taken ih

theorem flatten {rounds : List (List (LockCall κ))}
    (each : ∀ round ∈ rounds, Ascending rank unheld round) : Ascending rank unheld rounds.flatten := by
  induction rounds with
  | nil => exact .done
  | cons round rounds ih =>
      rw [List.forall_mem_cons] at each
      exact each.1.append (ih each.2)

/-- Everything is given up. -/
theorem returned (ascending : Ascending rank held calls) : afterCalls held calls = some unheld := by
  induction ascending with
  | done => rfl
  | call _ taken _ ih =>
      rw [afterCalls, runSteps, taken, Option.bind_some]
      exact ih

/-- Calls on other locks go on as before while a lock is held. -/
theorem lockStep_update {next : κ → Hold} {call : LockCall κ} {lock : κ} (hold : Hold)
    (other : call.lock ≠ lock) (taken : lockStep held call = some next) :
    lockStep (Function.update held lock hold) call = some (Function.update next lock hold) := by
  have through {change : Hold → Option Hold} {own : κ} (apart : own ≠ lock)
      (changed : onLock change held own = some next) :
      onLock change (Function.update held lock hold) own = some (Function.update next lock hold) := by
    obtain ⟨result, found, rfl⟩ := Option.map_eq_some_iff.mp changed
    rw [onLock, Function.update_of_ne apart, found, Option.map_some, Function.update_comm apart]
  cases call with
  | rdlock own => exact through other taken
  | wrlock own => exact through other taken
  | unlock own => exact through other taken

/-- What is done under a lock: locks of higher ranks are taken and given up. -/
theorem under {lock : κ} {hold : Hold} (inner : Ascending rank held calls)
    (above : ∀ call ∈ calls, rank lock < rank call.lock) (free : held lock = .free)
    (returns : hold.unlock = some .free) :
    Ascending rank (Function.update held lock hold) (calls ++ [.unlock lock]) := by
  have apart {call : LockCall κ} (higher : rank lock < rank call.lock) : call.lock ≠ lock :=
    fun same => absurd (same ▸ higher) (Nat.lt_irrefl _)
  induction inner with
  | done =>
      refine .call (fun takes => takes.elim) ?_ .done
      rw [lockStep, onLock, Function.update_self, returns, Option.map_some, Function.update_idem]
      exact congrArg some (Function.update_eq_self lock unheld)
  | @call held next call calls higher taken _ ih =>
      rw [List.forall_mem_cons] at above
      have kept : next lock = .free := by
        have changes {change : Hold → Option Hold} {own : κ} (other : own ≠ lock)
            (changed : onLock change held own = some next) : next lock = held lock := by
          obtain ⟨result, _, rfl⟩ := Option.map_eq_some_iff.mp changed
          exact Function.update_of_ne (Ne.symm other) _ _
        rw [← free]
        cases call with
        | rdlock own => exact changes (apart above.1) taken
        | wrlock own => exact changes (apart above.1) taken
        | unlock own => exact changes (apart above.1) taken
      refine .call (fun takes other otherHeld => ?_) (lockStep_update hold (apart above.1) taken)
        (ih above.2 kept)
      by_cases here : other = lock
      · exact here ▸ above.1
      · rw [Function.update_of_ne here] at otherHeld
        exact higher takes other otherHeld

theorem readSection {lock : κ} (inner : Ascending rank unheld calls)
    (above : ∀ call ∈ calls, rank lock < rank call.lock) :
    Ascending rank unheld (.rdlock lock :: (calls ++ [.unlock lock])) :=
  .call (fun _ _ held => absurd rfl held) rfl (inner.under above rfl rfl)

theorem writeSection {lock : κ} (inner : Ascending rank unheld calls)
    (above : ∀ call ∈ calls, rank lock < rank call.lock) :
    Ascending rank unheld (.wrlock lock :: (calls ++ [.unlock lock])) :=
  .call (fun _ _ held => absurd rfl held) rfl (inner.under above rfl rfl)

end Ascending

/-! ## Threads -/

/-- No other thread is in the way of a call. -/
def Open (threads : List (LockThread κ)) (index : Nat) : LockCall κ → Prop
  | .rdlock lock => ∀ other thread, other ≠ index → threads[other]? = some thread →
      thread.held lock ≠ .write
  | .wrlock lock => ∀ other thread, other ≠ index → threads[other]? = some thread →
      thread.held lock = .free
  | .unlock _ => True

/-- Another thread waits to write what the call is to read. -/
def Awaited (threads : List (LockThread κ)) : LockCall κ → Prop
  | .rdlock lock => ∃ thread ∈ threads, thread.calls.head? = some (.wrlock lock)
  | .wrlock _ => False
  | .unlock _ => False

/-- When calls return: never while the lock is in the hands of others, and always when it is
not, unless a waiting writer goes first. -/
structure Policy (grants : List (LockThread κ) → Nat → LockCall κ → Prop) : Prop where
  exclusive : ∀ threads index call, grants threads index call → Open threads index call
  willing : ∀ threads index call, Open threads index call → ¬ Awaited threads call →
    grants threads index call

variable (grants : List (LockThread κ) → Nat → LockCall κ → Prop)

/-- A thread makes its next call, and the call returns. -/
inductive CallReturns : List (LockThread κ) → List (LockThread κ) → Prop
  | call {threads : List (LockThread κ)} {index : Nat} {thread : LockThread κ} {next : κ → Hold}
      {call : LockCall κ} {calls : List (LockCall κ)} :
      threads[index]? = some thread → thread.calls = call :: calls →
      lockStep thread.held call = some next → grants threads index call →
      CallReturns threads (threads.set index ⟨next, calls⟩)

/-- A thread between two rounds goes into one of its rounds, or a call returns. -/
inductive LockMove (rounds : Nat → List (LockCall κ) → Prop) :
    List (LockThread κ) → List (LockThread κ) → Prop
  | enter {threads : List (LockThread κ)} {index : Nat} {thread : LockThread κ}
      {calls : List (LockCall κ)} :
      threads[index]? = some thread → thread.calls = [] → rounds index calls →
      LockMove rounds threads (threads.set index ⟨thread.held, calls⟩)
  | call {threads next : List (LockThread κ)} :
      CallReturns grants threads next → LockMove rounds threads next

/-- The calls that are still to be made. -/
def pendingCalls (threads : List (LockThread κ)) : Nat :=
  (threads.flatMap LockThread.calls).length

/-- Every thread is between two rounds. -/
def AllIdle (threads : List (LockThread κ)) : Prop := ∀ thread ∈ threads, thread.calls = []

/-- Two threads may hold a lock in these ways at once. -/
def HeldTogether (first second : Hold) : Prop :=
  (first = .write → second = .free) ∧ (second = .write → first = .free)

/-- What a thread writes no other thread holds. -/
def Exclusive (threads : List (LockThread κ)) : Prop :=
  ∀ (first second : Nat) (thread thread' : LockThread κ), first ≠ second →
    threads[first]? = some thread → threads[second]? = some thread' →
    ∀ lock, HeldTogether (thread.held lock) (thread'.held lock)

/-- All threads keep the order. -/
def AllAscending (rank : κ → Nat) (threads : List (LockThread κ)) : Prop :=
  ∀ thread ∈ threads, Ascending rank thread.held thread.calls

variable {grants} {rank : κ → Nat} {rounds : Nat → List (LockCall κ) → Prop}
  {threads next : List (LockThread κ)}

omit [DecidableEq κ] in
theorem pendingCalls_set {index : Nat} {thread : LockThread κ} (found : threads[index]? = some thread)
    (thread' : LockThread κ) :
    pendingCalls (threads.set index thread') + thread.calls.length =
      pendingCalls threads + thread'.calls.length := by
  induction threads generalizing index with
  | nil => simp at found
  | cons first threads ih =>
      cases index with
      | zero =>
          cases found
          simp [pendingCalls]
          omega
      | succ index =>
          have later := ih found
          simp [pendingCalls] at later ⊢
          omega

/-- Each call that returns is one less to come. -/
theorem pendingCalls_call (returns : CallReturns grants threads next) :
    pendingCalls next + 1 = pendingCalls threads := by
  cases returns with
  | @call index thread held call rest found calls _ _ =>
      have counts := pendingCalls_set found ⟨held, rest⟩
      rw [calls, List.length_cons] at counts
      dsimp only at counts
      omega

/-! ## What every move preserves -/

theorem allAscending_set {index : Nat} {thread : LockThread κ} (all : AllAscending rank threads)
    (own : Ascending rank thread.held thread.calls) :
    AllAscending rank (threads.set index thread) := by
  intro other member
  rcases List.mem_or_eq_of_mem_set member with earlier | rfl
  · exact all other earlier
  · exact own

theorem allAscending_call (all : AllAscending rank threads)
    (returns : CallReturns grants threads next) : AllAscending rank next := by
  cases returns with
  | @call index thread held call rest found calls taken _ =>
      have own := all thread (List.mem_of_getElem? found)
      rw [calls] at own
      obtain ⟨_, taken', _, later⟩ := own.next
      cases taken.symm.trans taken'
      exact allAscending_set all later

theorem allAscending_move (ordered : ∀ index calls, rounds index calls → Ascending rank unheld calls)
    (all : AllAscending rank threads) (move : LockMove grants rounds threads next) :
    AllAscending rank next := by
  cases move with
  | call returns => exact allAscending_call all returns
  | @enter index thread calls found idle round =>
      have own := all thread (List.mem_of_getElem? found)
      rw [idle] at own
      refine allAscending_set all ?_
      rw [own.nothing_held]
      exact ordered index calls round

theorem HeldTogether.symm {first second : Hold} (compatible : HeldTogether first second) :
    HeldTogether second first := ⟨compatible.2, compatible.1⟩

omit [DecidableEq κ] in
theorem exclusive_set {index : Nat} {thread : LockThread κ} (exclusive : Exclusive threads)
    (own : ∀ (other : Nat) (thread' : LockThread κ), other ≠ index → threads[other]? = some thread' →
      ∀ lock, HeldTogether (thread.held lock) (thread'.held lock)) :
    Exclusive (threads.set index thread) := by
  intro first second one another apart found found' lock
  by_cases here : first = index
  · subst here
    obtain ⟨inside, _⟩ := List.getElem?_eq_some_iff.mp found
    rw [List.length_set] at inside
    rw [List.getElem?_set_self inside] at found
    rw [List.getElem?_set_ne apart] at found'
    cases found
    exact own second another (Ne.symm apart) found' lock
  · rw [List.getElem?_set_ne (Ne.symm here)] at found
    by_cases there : second = index
    · subst there
      obtain ⟨inside, _⟩ := List.getElem?_eq_some_iff.mp found'
      rw [List.length_set] at inside
      rw [List.getElem?_set_self inside] at found'
      cases found'
      exact (own first one here found lock).symm
    · rw [List.getElem?_set_ne (Ne.symm there)] at found'
      exact exclusive first second one another apart found found' lock

/-- A call changes the hold on its own lock alone. -/
theorem lockStep_other {held held' : κ → Hold} {call : LockCall κ}
    (taken : lockStep held call = some held') {lock : κ} (other : lock ≠ call.lock) :
    held' lock = held lock := by
  have kept {change : Hold → Option Hold} {own : κ} (apart : lock ≠ own)
      (changed : onLock change held own = some held') : held' lock = held lock := by
    obtain ⟨hold, _, rfl⟩ := Option.map_eq_some_iff.mp changed
    exact Function.update_of_ne apart _ _
  cases call with
  | rdlock own => exact kept other taken
  | wrlock own => exact kept other taken
  | unlock own => exact kept other taken

/-- What becomes of the hold on the lock of a call is compatible with the holds of the threads
that are not in the way. -/
theorem exclusive_call (policy : Policy grants) (exclusive : Exclusive threads)
    (returns : CallReturns grants threads next) : Exclusive next := by
  cases returns with
  | @call index thread held call rest found calls taken granted =>
      refine exclusive_set exclusive fun other thread' apart found' lock => ?_
      have before := exclusive index other thread thread' (Ne.symm apart) found found' lock
      by_cases same : lock = call.lock
      · subst same
        have way := policy.exclusive threads index call granted
        cases call with
        | rdlock lock =>
            have notWritten := way other thread' apart found'
            obtain ⟨hold, reads, rfl⟩ := Option.map_eq_some_iff.mp taken
            dsimp only [LockCall.lock] at before ⊢
            rw [Function.update_self]
            refine ⟨fun written => ?_, fun written => absurd written notWritten⟩
            subst written
            cases own : thread.held lock <;> rw [own] at reads <;> cases reads
        | wrlock lock =>
            have free := way other thread' apart found'
            dsimp only [LockCall.lock]
            refine ⟨fun _ => free, fun written => ?_⟩
            rw [free] at written
            cases written
        | unlock lock =>
            obtain ⟨hold, unlocks, rfl⟩ := Option.map_eq_some_iff.mp taken
            dsimp only [LockCall.lock] at before ⊢
            rw [Function.update_self]
            cases own : thread.held lock with
            | free => rw [own] at unlocks; cases unlocks
            | write =>
                rw [own] at unlocks
                cases unlocks
                refine ⟨fun written => ?_, fun _ => rfl⟩
                cases written
            | read further =>
                rw [own] at unlocks before
                refine ⟨fun written => ?_, fun written => absurd (before.2 written) (by simp)⟩
                subst written
                cases further <;> cases unlocks
      · dsimp only
        rw [lockStep_other taken same]
        exact before

theorem exclusive_move (policy : Policy grants) (exclusive : Exclusive threads)
    (move : LockMove grants rounds threads next) : Exclusive next := by
  cases move with
  | call returns => exact exclusive_call policy exclusive returns
  | @enter index thread calls found _ _ =>
      refine exclusive_set exclusive fun other thread' apart found' lock => ?_
      exact exclusive index other thread thread' (Ne.symm apart) found found' lock

/-! ## Progress -/

/-- The rank of the lock that a thread calls for next. -/
def wantedRank (rank : κ → Nat) (threads : List (LockThread κ)) (index : Nat) : Nat :=
  ((threads[index]?.bind fun thread => thread.calls.head?).map fun call => rank call.lock).getD 0

/-- Of the threads that have calls to make, the one whose call has the highest rank can go on. -/
theorem call_possible (policy : Policy grants) (all : AllAscending rank threads) :
    AllIdle threads ∨ ∃ next, CallReturns grants threads next := by
  classical
  by_cases idle : AllIdle threads
  · exact .inl idle
  right
  let Busy (index : Nat) : Prop := ∃ (thread : LockThread κ) (call : LockCall κ)
    (calls : List (LockCall κ)), threads[index]? = some thread ∧ thread.calls = call :: calls
  have goes {index : Nat} {thread : LockThread κ} {call : LockCall κ} {calls : List (LockCall κ)}
      (found : threads[index]? = some thread) (whole : thread.calls = call :: calls)
      (granted : grants threads index call) : ∃ next, CallReturns grants threads next := by
    have own := all thread (List.mem_of_getElem? found)
    rw [whole] at own
    obtain ⟨held, taken, _, _⟩ := own.next
    exact ⟨_, .call found whole taken granted⟩
  have busy : ((Finset.range threads.length).filter Busy).Nonempty := by
    unfold AllIdle at idle
    push Not at idle
    obtain ⟨thread, member, someCalls⟩ := idle
    obtain ⟨index, found⟩ := List.getElem?_of_mem member
    obtain ⟨call, calls, whole⟩ := List.exists_cons_of_ne_nil someCalls
    have inside := (List.getElem?_eq_some_iff.mp found).1
    exact ⟨index, Finset.mem_filter.mpr ⟨Finset.mem_range.mpr inside, thread, call, calls, found, whole⟩⟩
  obtain ⟨index, member, highest⟩ := Finset.exists_max_image _ (wantedRank rank threads) busy
  obtain ⟨thread, call, calls, found, whole⟩ := (Finset.mem_filter.mp member).2
  have wanted : wantedRank rank threads index = rank call.lock := by
    simp [wantedRank, found, whole]
  -- what any thread holds has a lower rank than what some thread calls for, or that thread goes on
  by_cases releases : ∃ (other : Nat) (thread' : LockThread κ) (lock : κ) (later : List (LockCall κ)),
      threads[other]? = some thread' ∧ thread'.calls = .unlock lock :: later
  · obtain ⟨other, thread', lock, later, there, here⟩ := releases
    exact goes there here (policy.willing _ _ _ trivial (fun awaited => awaited))
  have below (other : Nat) (thread' : LockThread κ) (there : threads[other]? = some thread') :
      thread'.held call.lock = .free := by
    by_contra held
    have own := all thread' (List.mem_of_getElem? there)
    cases pending : thread'.calls with
    | nil =>
        rw [pending] at own
        exact held (congrFun own.nothing_held call.lock)
    | cons call' later =>
        rw [pending] at own
        obtain ⟨_, _, above, _⟩ := own.next
        have takes : call'.Takes := by
          cases call' with
          | rdlock lock => trivial
          | wrlock lock => trivial
          | unlock lock => exact releases ⟨other, thread', lock, later, there, pending⟩
        have lower := above takes call.lock held
        have inside := (List.getElem?_eq_some_iff.mp there).1
        have most := highest other (Finset.mem_filter.mpr
          ⟨Finset.mem_range.mpr inside, thread', call', later, there, pending⟩)
        have wanted' : wantedRank rank threads other = rank call'.lock := by
          simp [wantedRank, there, pending]
        rw [wanted, wanted'] at most
        exact absurd lower (Nat.not_lt.mpr most)
  cases call with
  | unlock lock => exact absurd ⟨index, thread, lock, calls, found, whole⟩ releases
  | wrlock lock =>
      exact goes found whole (policy.willing _ _ _ (fun other thread' _ there =>
        below other thread' there) (fun awaited => awaited))
  | rdlock lock =>
      by_cases awaited : Awaited threads (.rdlock lock)
      · obtain ⟨writer, writerMember, waits⟩ := awaited
        obtain ⟨other, there⟩ := List.getElem?_of_mem writerMember
        obtain ⟨later, pending⟩ := List.head?_eq_some_iff.mp waits
        exact goes there pending (policy.willing _ _ _ (fun other thread' _ there =>
          below other thread' there) (fun awaited => awaited))
      · refine goes found whole (policy.willing _ _ _ (fun other thread' _ there written => ?_) awaited)
        have free := below other thread' there
        rw [LockCall.lock] at free
        rw [free] at written
        cases written

/-! ## Runs -/

omit [DecidableEq κ] in
theorem held_idle {count index : Nat} {thread : LockThread κ}
    (found : (List.replicate count (LockThread.idle : LockThread κ))[index]? = some thread) :
    thread = LockThread.idle :=
  List.eq_of_mem_replicate (List.mem_of_getElem? found)

/-- In every state that the threads get to. -/
theorem lockRun_invariant (policy : Policy grants)
    (ordered : ∀ index calls, rounds index calls → Ascending rank unheld calls) {count : Nat}
    (reached : Relation.ReflTransGen (LockMove grants rounds)
      (List.replicate count LockThread.idle) threads) :
    AllAscending rank threads ∧ Exclusive threads := by
  induction reached with
  | refl =>
      constructor
      · intro thread member
        rw [List.eq_of_mem_replicate member]
        exact .done
      · intro first second thread thread' _ found found' lock
        rw [held_idle found, held_idle found']
        exact ⟨fun written => (by cases written), fun written => (by cases written)⟩
  | tail _ move ih =>
      exact ⟨allAscending_move ordered ih.1 move, exclusive_move policy ih.2 move⟩

/-- Calls return for no longer than there are calls to make. -/
theorem callRun_length {run : List (List (LockThread κ))}
    (returns : (threads :: run).IsChain (CallReturns grants)) : run.length ≤ pendingCalls threads := by
  induction run generalizing threads with
  | nil => exact Nat.zero_le _
  | cons next run ih =>
      rw [List.isChain_cons_cons] at returns
      have fewer := pendingCalls_call returns.1
      have later := ih returns.2
      rw [List.length_cons]
      omega

end Order

end Qaoed.Library
