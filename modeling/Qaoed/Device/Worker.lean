import Mathlib.Data.List.Induction
import Mathlib.Data.List.Infix
import Qaoed.Library.LinkedFifo
import Qaoed.Library.Transition

/-!
# The work queue of a device

Listeners insert work entries at the end of the linked list behind `device->q`,
and the worker of the device unlinks them at its front. Both hold `queuelock`
while they do. The worker waits for a signal once and does not look again
whether the queue is still empty, and its variable `work` outlives the round of
the loop that set it.
-/

namespace Qaoed.Device

open Qaoed.Library

/-- The address of a work entry. All of them are of type `WORKTYPE_PACKET`. -/
abbrev Workref := Nat

/-- `struct queueentry`: its `work` is the item of the node. -/
abbrev Queueentry := Node Workref

/-- The queue of a device: its entries in memory and the three pointers. -/
structure Queue where
  heap : Nat → Option Queueentry
  q : Option Nat
  qstart : Option Nat
  qend : Option Nat

/-- The initial values of `qaoed_startworker`. -/
def Queue.empty : Queue := ⟨fun _ => none, none, none, none⟩

/-- `insertwork`, where `qe` is the address that `malloc` returns, if it returns one. -/
def insertwork (device : Queue) (work : Workref) (qe : Option Nat) : Queue :=
  match qe with
  | none => device
  | some qe =>
      let heap := Function.update device.heap qe (some ⟨work, none⟩)
      match device.q, device.qend with
      | none, _ => ⟨heap, some qe, some qe, some qe⟩
      | some _, none => { device with heap := heap }
      | some _, some last => { device with heap := setNext heap last (some qe), qend := some qe }

/-- The part of `qaoed_worker` that unlinks the first entry: the variable `work`
and the queue afterwards. A pointer to memory that is not allocated leads nowhere. -/
def unlinkwork (device : Queue) (work : Option Workref) : Option (Option Workref × Queue) :=
  match device.q with
  | none => some (work, device)
  | some q =>
      match device.heap q with
      | none => none
      | some entry =>
          let qend := if device.q = device.qend then none else device.qend
          let qstart := if device.q = device.qstart then entry.next else device.qstart
          some (some entry.item, ⟨Function.update device.heap q none, entry.next, qstart, qend⟩)

/-! ## The queue as a list -/

/-- The pointers describe the given entries, the oldest first. -/
structure Describes (device : Queue) (entries : List (Nat × Workref)) : Prop where
  segment : Segment device.heap device.q entries
  distinct : (entries.map Prod.fst).Nodup
  last : device.qend = entries.getLast?.map Prod.fst

theorem describes_empty : Describes Queue.empty [] := ⟨.nil, List.nodup_nil, rfl⟩

section Queue

variable {device : Queue} {entries : List (Nat × Workref)}

/-- An entry that is inserted comes last. -/
theorem describes_insertwork (describes : Describes device entries) (work : Workref) {qe : Nat}
    (unused : device.heap qe = none) :
    Describes (insertwork device work (some qe)) (entries ++ [(qe, work)]) := by
  obtain ⟨heap, q, qstart, qend⟩ := device
  obtain ⟨segment, distinct, last⟩ := describes
  dsimp only at segment last unused
  have distinct' : ((entries ++ [(qe, work)]).map Prod.fst).Nodup := by
    rw [List.map_append, List.nodup_append]
    refine ⟨distinct, List.nodup_singleton _, ?_⟩
    intro address member other isNew same
    rw [same, List.mem_singleton.mp isNew] at member
    exact segment.live member unused
  induction entries using List.reverseRecOn with
  | nil =>
      cases segment
      exact ⟨.cons (Function.update_self _ _ _) .nil, distinct', rfl⟩
  | append_singleton earlier entry =>
      obtain ⟨address, item⟩ := entry
      have linked := segment.snoc work distinct unused
      rw [List.getLast?_concat, Option.map_some] at last
      subst last
      cases q with
      | none => simpa using segment.first_none_iff
      | some q =>
          refine ⟨?_, distinct', ?_⟩
          · rw [List.append_assoc]
            exact linked
          · rw [List.getLast?_concat]
            rfl

/-- Unlinking hands out the oldest entry and leaves the others. -/
theorem describes_unlinkwork {address : Nat} {item : Workref}
    (describes : Describes device ((address, item) :: entries)) (work : Option Workref) :
    ∃ device', unlinkwork device work = some (some item, device') ∧
      Describes device' entries := by
  obtain ⟨heap, q, qstart, qend⟩ := device
  obtain ⟨segment, distinct, last⟩ := describes
  dsimp only at segment last
  rw [List.map_cons, List.nodup_cons] at distinct
  obtain ⟨outside, distinct⟩ := distinct
  cases segment with
  | cons found tail =>
      refine ⟨_, by rw [unlinkwork]; dsimp only; rw [found], ?_, distinct, ?_⟩
      · exact tail.free_first outside
      · subst last
        cases entries with
        | nil => exact if_pos rfl
        | cons second rest =>
            have other : some address ≠ ((second :: rest).getLast?).map Prod.fst := by
              intro same
              obtain ⟨entry, isLast, here⟩ := Option.map_eq_some_iff.mp same.symm
              exact outside (List.mem_map.mpr ⟨entry, List.mem_of_getLast? isLast, here⟩)
            rw [List.getLast?_cons_cons, if_neg other]

end Queue

/-! ## The worker and the listeners -/

/-- Where the worker stands in its loop. -/
inductive Pc where
  /-- Before it takes `queuelock`. -/
  | top
  /-- Inside `pthread_cond_wait`, without the lock. -/
  | waiting
  /-- Past the test of the queue, with the lock. -/
  | locked
  /-- Past the release of the lock, with the value of `work` to handle. -/
  | handling
  deriving DecidableEq, Repr

/-- The queue with the worker, and the histories of what was inserted and what
was handed to `qaoed_processwork`. The variable `work` has no value at first. -/
structure WorkerState where
  queue : Queue
  pc : Pc
  work : Option Workref
  inserted : List Workref
  processed : List (Option Workref)

inductive WorkerAction where
  /-- A listener takes the lock, calls `insertwork`, signals and releases the lock. -/
  | insert (work : Workref) (qe : Option Nat)
  /-- The worker takes the lock and tests whether the queue is empty. -/
  | lock
  /-- `pthread_cond_wait` returns, after a signal or spuriously. -/
  | wake
  /-- The worker unlinks an entry and releases the lock. -/
  | unlink
  /-- The worker hands `work` to `qaoed_processwork`. -/
  | process
  deriving DecidableEq, Repr

def workerStart : WorkerState := ⟨Queue.empty, .top, none, [], []⟩

/-- One lock-protected step. Nobody takes the lock while the worker has it, and
`malloc` returns memory that is not in use. -/
def workerStep (state : WorkerState) : WorkerAction → Option WorkerState
  | .insert work qe =>
      if state.pc = .locked then none
      else
        match qe with
        | none => some { state with queue := insertwork state.queue work none }
        | some qe =>
            match state.queue.heap qe with
            | some _ => none
            | none =>
                some { state with
                  queue := insertwork state.queue work (some qe)
                  inserted := state.inserted ++ [work] }
  | .lock =>
      if state.pc = .top then
        some { state with pc := if state.queue.q = none then .waiting else .locked }
      else none
  | .wake => if state.pc = .waiting then some { state with pc := .locked } else none
  | .unlink =>
      if state.pc = .locked then
        (unlinkwork state.queue state.work).map fun unlinked =>
          { state with pc := .handling, work := unlinked.1, queue := unlinked.2 }
      else none
  | .process =>
      if state.pc = .handling then
        some { state with pc := .top, processed := state.processed ++ [state.work] }
      else none

/-- What was processed so far is the beginning of what was inserted. -/
def ProcessedInOrder (state : WorkerState) : Prop :=
  state.processed <+: state.inserted.map some

/-- A return of `pthread_cond_wait` finds the queue non-empty. -/
def WakeFindsWork (state : WorkerState) (action : WorkerAction) : Prop :=
  action = .wake → state.queue.q ≠ none

/-- The entry in the hands of the worker. -/
def inHand (state : WorkerState) : List (Option Workref) :=
  if state.pc = .handling then [state.work] else []

/-- Everything inserted was processed, is in the hands of the worker or is queued. -/
structure WorkerInv (state : WorkerState) (entries : List (Nat × Workref)) : Prop where
  describes : Describes state.queue entries
  accounted : state.inserted.map some =
    state.processed ++ inHand state ++ entries.map fun entry => some entry.2
  found : state.pc = .locked → entries ≠ []

theorem workerInv_start : WorkerInv workerStart [] :=
  ⟨describes_empty, rfl, fun locked => by cases locked⟩

/-- A step in which no return of `pthread_cond_wait` finds an empty queue keeps the account. -/
theorem workerInv_step {state next : WorkerState} {action : WorkerAction}
    {entries : List (Nat × Workref)} (inv : WorkerInv state entries)
    (wakes : WakeFindsWork state action) (taken : workerStep state action = some next) :
    ∃ entries, WorkerInv next entries := by
  obtain ⟨queue, pc, work, inserted, processed⟩ := state
  obtain ⟨describes, accounted, found⟩ := inv
  have empty := describes.segment.first_none_iff
  dsimp only at describes accounted found empty
  cases action with
  | insert entered qe =>
      unfold workerStep at taken
      dsimp only at taken
      split at taken
      · cases taken
      · next unlocked =>
          cases qe with
          | none =>
              cases taken
              exact ⟨entries, describes, accounted, found⟩
          | some qe =>
              dsimp only at taken
              split at taken
              · cases taken
              · next unused =>
                  cases taken
                  refine ⟨_, describes_insertwork describes entered unused, ?_, ?_⟩
                  · dsimp only
                    rw [List.map_append, accounted, List.map_append, List.append_assoc]
                    rfl
                  · exact fun locked => absurd locked unlocked
  | lock =>
      unfold workerStep at taken
      dsimp only at taken
      split at taken
      · next top =>
          cases taken
          subst top
          refine ⟨entries, describes, ?_, ?_⟩
          · have idle : (if queue.q = none then Pc.waiting else Pc.locked) ≠ .handling := by
              split <;> decide
            dsimp only [inHand] at accounted ⊢
            rw [if_neg idle]
            exact accounted
          · intro locked nothing
            dsimp only at locked
            rw [if_pos (empty.mpr nothing)] at locked
            cases locked
      · cases taken
  | wake =>
      unfold workerStep at taken
      dsimp only at taken
      split at taken
      · next waiting =>
          cases taken
          subst waiting
          exact ⟨entries, describes, accounted, fun _ nothing => wakes rfl (empty.mpr nothing)⟩
      · cases taken
  | unlink =>
      unfold workerStep at taken
      dsimp only at taken
      split at taken
      · next locked =>
          subst locked
          cases entries with
          | nil => exact absurd rfl (found rfl)
          | cons entry rest =>
              obtain ⟨queue', unlinked, describes'⟩ := describes_unlinkwork describes work
              rw [unlinked] at taken
              cases taken
              refine ⟨rest, describes', ?_, fun locked => by cases locked⟩
              dsimp only [inHand] at accounted ⊢
              rw [accounted]
              simp
      · cases taken
  | process =>
      unfold workerStep at taken
      dsimp only at taken
      split at taken
      · next handling =>
          cases taken
          subst handling
          refine ⟨entries, describes, ?_, fun locked => by cases locked⟩
          dsimp only [inHand] at accounted ⊢
          rw [accounted]
          simp
      · cases taken

/-! ## Runs -/

theorem worker_accounted (actions : List WorkerAction) (state : WorkerState)
    (wakes : EveryStep workerStep WakeFindsWork workerStart actions)
    (reached : runSteps workerStep workerStart actions = some state) :
    ∃ entries, WorkerInv state entries :=
  runSteps_invariant (fun state => ∃ entries, WorkerInv state entries)
    ⟨[], workerInv_start⟩ (fun _ _ _ ⟨_, inv⟩ wakes taken => workerInv_step inv wakes taken)
    wakes reached

/-- In every run in which each return of `pthread_cond_wait` finds the queue
non-empty, the worker processes what was inserted, once and in order. -/
theorem worker_processedInOrder (actions : List WorkerAction) (state : WorkerState)
    (wakes : EveryStep workerStep WakeFindsWork workerStart actions)
    (reached : runSteps workerStep workerStart actions = some state) :
    ProcessedInOrder state := by
  obtain ⟨entries, inv⟩ := worker_accounted actions state wakes reached
  have accounted := inv.accounted
  rw [List.append_assoc] at accounted
  exact ⟨_, accounted.symm⟩

/-- A return of `pthread_cond_wait` that finds the queue empty makes the worker
process once more what its variable `work` holds. -/
theorem worker_wakesEmpty (actions : List WorkerAction) (state : WorkerState)
    (wakes : EveryStep workerStep WakeFindsWork workerStart actions)
    (reached : runSteps workerStep workerStart actions = some state)
    (waiting : state.pc = .waiting) (nothing : state.queue.q = none) :
    ∃ next, runSteps workerStep state [.wake, .unlink, .process] = some next ∧
      next.processed = state.processed ++ [state.work] ∧ ¬ ProcessedInOrder next := by
  obtain ⟨entries, inv⟩ := worker_accounted actions state wakes reached
  obtain ⟨queue, pc, work, inserted, processed⟩ := state
  obtain ⟨describes, accounted, _⟩ := inv
  dsimp only at waiting nothing describes accounted
  subst waiting
  have empty := describes.segment.first_none_iff.mp nothing
  refine ⟨⟨queue, .top, work, inserted, processed ++ [work]⟩, ?_, rfl, ?_⟩
  · simp [runSteps, workerStep, unlinkwork, nothing]
  · intro inOrder
    have short := inOrder.length_le
    have all := congrArg List.length accounted
    simp [inHand, empty] at short all
    omega

/-- The worker waits, and the signal of an insertion wakes it. -/
def signalledRun : List WorkerAction := [.lock, .insert 1 (some 0), .wake, .unlink, .process]

theorem worker_processedInOrder_signalled :
    ∃ state, runSteps workerStep workerStart signalledRun = some state ∧
      ProcessedInOrder state := by
  refine ⟨_, rfl, worker_processedInOrder signalledRun _ ?_ rfl⟩
  refine everyStep_cons (fun wake => by cases wake) rfl ?_
  refine everyStep_cons (fun wake => by cases wake) rfl ?_
  refine everyStep_cons (fun _ nothing => by cases nothing) rfl ?_
  refine everyStep_cons (fun wake => by cases wake) rfl ?_
  exact everyStep_cons (fun wake => by cases wake) rfl trivial

/-- An entry is inserted and processed; then `pthread_cond_wait` returns while
the queue is empty. -/
def spuriousRun : List WorkerAction :=
  [.insert 1 (some 0), .lock, .unlink, .process, .lock, .wake, .unlink, .process]

/-- The entry is processed twice. -/
theorem spuriousRun_processesTwice :
    ∃ state, runSteps workerStep workerStart spuriousRun = some state ∧
      ¬ ProcessedInOrder state := by
  refine ⟨_, rfl, ?_⟩
  intro inOrder
  exact absurd inOrder.length_le (by decide : ¬ 2 ≤ 1)

end Qaoed.Device
