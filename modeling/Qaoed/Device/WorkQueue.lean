import Qaoed.Device.Worker

/-!
# The work queue by itself

The listeners and the worker change the queue under `queuelock`, in any order: entries are
inserted at its end and unlinked at its front. Whatever the order, the three pointers stay
those of one list, and what was unlinked is what was inserted first.
-/

namespace Qaoed.Device

open Qaoed.Library

/-- What is done to the queue while somebody holds the lock. -/
inductive QueueAction where
  /-- `insertwork`, with the address that `malloc` returns. -/
  | insert (work : Workref) (qe : Nat)
  | unlink
  deriving DecidableEq, Repr

/-- The queue and the variable `work` of the worker, with what was inserted and unlinked. -/
structure QueueState where
  queue : Queue
  work : Option Workref
  inserted : List Workref
  unlinked : List (Option Workref)

/-- The values of `qaoed_startworker`. -/
def queueStart : QueueState := ⟨Queue.empty, none, [], []⟩

/-- One step. Memory that `malloc` returns is not in use. -/
def queueStep (state : QueueState) : QueueAction → Option QueueState
  | .insert work qe =>
      if state.queue.heap qe = none then
        some { state with
          queue := insertwork state.queue work (some qe)
          inserted := state.inserted ++ [work] }
      else none
  | .unlink =>
      (unlinkwork state.queue state.work).map fun result =>
        { state with
          queue := result.2
          work := result.1
          -- an empty queue leaves nothing to unlink
          unlinked := if state.queue.q = none then state.unlinked
            else state.unlinked ++ [result.1] }

/-- The pointers are those of a list, and the entries come out in their order. -/
structure Fifo (state : QueueState) : Prop where
  bothNull : state.queue.q = none ↔ state.queue.qend = none
  ends : state.queue.q ≠ none → ∃ entries last work,
    Segment state.queue.heap state.queue.q (entries ++ [(last, work)]) ∧
    state.queue.qend = some last ∧ state.queue.heap last = some ⟨work, none⟩
  inOrder : ∃ entries, Segment state.queue.heap state.queue.q entries ∧
    (entries.map Prod.fst).Nodup ∧
    state.inserted.map some = state.unlinked ++ entries.map fun entry => some entry.2
  unlinks : (queueStep state .unlink).isSome = true

/-- The entries that are still queued. -/
structure QueueInv (state : QueueState) (entries : List (Nat × Workref)) : Prop where
  describes : Describes state.queue entries
  accounted : state.inserted.map some =
    state.unlinked ++ entries.map fun entry => some entry.2

theorem queueInv_start : QueueInv queueStart [] := ⟨describes_empty, rfl⟩

section Step

variable {state next : QueueState} {entries : List (Nat × Workref)}

theorem queueInv_insert {work : Workref} {qe : Nat} (inv : QueueInv state entries)
    (taken : queueStep state (.insert work qe) = some next) :
    QueueInv next (entries ++ [(qe, work)]) := by
  obtain ⟨describes, accounted⟩ := inv
  rw [queueStep] at taken
  split_ifs at taken with unused
  cases taken
  refine ⟨describes_insertwork describes work unused, ?_⟩
  dsimp only
  rw [List.map_append, accounted, List.map_append, List.append_assoc]
  rfl

/-- The oldest entry is the one that is unlinked. -/
theorem queueInv_unlink {address : Nat} {work : Workref}
    (inv : QueueInv state ((address, work) :: entries)) :
    ∃ next, queueStep state .unlink = some next ∧ QueueInv next entries := by
  obtain ⟨describes, accounted⟩ := inv
  obtain ⟨queue, unlinked, describes'⟩ := describes_unlinkwork describes state.work
  have some_ : state.queue.q ≠ none := fun none => by
    cases describes.segment.first_none_iff.mp none
  refine ⟨_, by rw [queueStep, unlinked]; rfl, describes', ?_⟩
  dsimp only
  rw [if_neg some_, accounted, List.append_assoc]
  rfl

theorem queueInv_idle (inv : QueueInv state []) : queueStep state .unlink = some state := by
  have none := inv.describes.segment.first_none_iff.mpr rfl
  rw [queueStep, unlinkwork, none]
  rfl

theorem queueInv_step {action : QueueAction} (inv : QueueInv state entries)
    (taken : queueStep state action = some next) : ∃ entries, QueueInv next entries := by
  cases action with
  | insert work qe => exact ⟨_, queueInv_insert inv taken⟩
  | unlink =>
      cases entries with
      | nil =>
          cases (queueInv_idle inv).symm.trans taken
          exact ⟨[], inv⟩
      | cons entry rest =>
          obtain ⟨other, taken', inv'⟩ := queueInv_unlink inv
          cases taken'.symm.trans taken
          exact ⟨rest, inv'⟩

theorem QueueInv.fifo (inv : QueueInv state entries) : Fifo state := by
  have describes := inv.describes
  have empty := describes.segment.first_none_iff
  refine ⟨?_, ?_, ⟨entries, describes.segment, describes.distinct, inv.accounted⟩, ?_⟩
  · rw [empty, describes.last, Option.map_eq_none_iff, List.getLast?_eq_none_iff]
  · intro some_
    obtain ⟨earlier, ⟨last, work⟩, rfl⟩ :=
      (List.eq_nil_or_concat' entries).resolve_left (mt empty.mpr some_)
    refine ⟨earlier, last, work, describes.segment, ?_, describes.segment.last_found⟩
    rw [describes.last, List.getLast?_concat]
    rfl
  · cases entries with
    | nil =>
        rw [queueInv_idle inv]
        rfl
    | cons entry rest =>
        obtain ⟨next, taken, _⟩ := queueInv_unlink inv
        rw [taken]
        rfl

end Step

/-- After any sequence of insertions and unlink steps the pointers are those of one list that
ends at `qend`, and what was unlinked is what was inserted, in order, up to the entries that
are still queued. -/
theorem workqueue_fifo (actions : List QueueAction) (state : QueueState)
    (reached : runSteps queueStep queueStart actions = some state) : Fifo state := by
  obtain ⟨entries, inv⟩ := runSteps_preserved (fun state => ∃ entries, QueueInv state entries)
    ⟨[], queueInv_start⟩ (fun _ _ _ ⟨_, inv⟩ taken => queueInv_step inv taken) reached
  exact inv.fifo

/-- Two entries, the first of which is unlinked between the insertions, and a refill. -/
def refilledQueue : List QueueAction :=
  [.insert 1 0, .unlink, .unlink, .insert 2 0, .insert 3 1, .unlink]

theorem workqueue_fifo_refilled :
    ∃ state, runSteps queueStep queueStart refilledQueue = some state ∧ Fifo state :=
  ⟨_, rfl, workqueue_fifo refilledQueue _ rfl⟩

end Qaoed.Device
