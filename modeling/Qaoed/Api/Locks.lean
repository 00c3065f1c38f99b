import Qaoed.Api.Handlers

/-!
# The list locks in the hands of the API thread

A handler takes and gives up the locks of the two lists by hand on each of its paths.
All handlers but one leave the thread without a lock. `processSTATUSrequest` gives up
a lock it does not hold and keeps a read lock of the device list, for which the next
request that changes the list waits for ever.
-/

namespace Qaoed.Api

open Qaoed.Device
open Qaoed.Library
open Qaoed.Config

/-! ## The handlers -/

/-- The lock calls of a handler are allowed, and a handler that returns has given
everything up. -/
structure KeepsLocks (outcome : Outcome) : Prop where
  allowed : (afterCalls unheld outcome.locks).isSome = true
  returned : outcome.stopped = none → Balanced outcome.locks

theorem KeepsLocks.of_balanced {outcome : Outcome} (balanced : Balanced outcome.locks) :
    KeepsLocks outcome where
  allowed := by
    rw [balanced]
    rfl
  returned _ := balanced

theorem KeepsLocks.of_stopped {outcome : Outcome} {stop : Stop}
    (allowed : (afterCalls unheld outcome.locks).isSome = true)
    (stopped : outcome.stopped = some stop) : KeepsLocks outcome where
  allowed := allowed
  returned returns := by
    rw [stopped] at returns
    cases returns

section Handlers

variable (env : ApiEnv) (conf : Conf)

theorem readLocked_balanced (lock : Lock) : Balanced (readLocked lock) :=
  Balanced.rdlock_unlock lock

theorem writeLocked_balanced (lock : Lock) : Balanced (writeLocked lock) :=
  Balanced.wrlock_unlock lock

/-- A handler may stop while it holds a read lock. -/
theorem rdlock_allowed (lock : Lock) : (afterCalls unheld [.rdlock lock]).isSome = true := rfl

theorem processTargetList_keepsLocks : KeepsLocks (processTargetList env conf) := by
  unfold processTargetList
  dsimp only
  split
  · exact .of_balanced (readLocked_balanced _)
  · split
    · exact .of_stopped (rdlock_allowed _) rfl
    · exact .of_balanced (readLocked_balanced _)

theorem processAclList_keepsLocks : KeepsLocks (processAclList env conf) := by
  unfold processAclList
  dsimp only
  split
  · exact .of_balanced .nil
  · split
    · exact .of_balanced .nil
    · exact .of_balanced .nil

theorem processIntList_keepsLocks : KeepsLocks (processIntList env conf) := by
  unfold processIntList
  dsimp only
  split
  · exact .of_balanced (readLocked_balanced _)
  · exact .of_balanced (readLocked_balanced _)

theorem processTargetSetacl_keepsLocks (target : TargetInfoDetailed) :
    KeepsLocks (processTargetSetacl conf target) := by
  unfold processTargetSetacl
  split
  · exact .of_balanced .nil
  · exact .of_balanced .nil

theorem processTargetDel_keepsLocks (target : TargetInfo) :
    KeepsLocks (processTargetDel env conf target) := by
  unfold processTargetDel
  dsimp only
  split_ifs with several none failed
  · exact .of_balanced (writeLocked_balanced _)
  · exact .of_balanced (writeLocked_balanced _)
  · exact .of_balanced (writeLocked_balanced _)
  · split
    · exact .of_balanced (writeLocked_balanced _)
    · exact .of_balanced (writeLocked_balanced _)

theorem processTargetAdd_keepsLocks (target : TargetInfo) :
    KeepsLocks (processTargetAdd env conf target) := by
  unfold processTargetAdd
  dsimp only
  split
  · exact .of_balanced .nil
  · split
    · exact .of_balanced .nil
    · split
      · exact .of_stopped (rdlock_allowed _) rfl
      · exact .of_balanced (readLocked_balanced _)
      · split
        · exact .of_balanced (readLocked_balanced _)
        · exact .of_balanced (readLocked_balanced _)
        · have both := (readLocked_balanced .devlistlock).append (writeLocked_balanced .devlistlock)
          split
          · exact .of_balanced both
          · exact .of_balanced both

/-- Every handler but that of the status request leaves the locks alone. -/
theorem processAPIrequest_keepsLocks {request : Request} (other : request ≠ .status) :
    KeepsLocks (processAPIrequest env conf request) := by
  cases request with
  | status => exact absurd rfl other
  | interfacesList => exact processIntList_keepsLocks env conf
  | interfacesStatus ifcmd => exact .of_balanced .nil
  | interfacesSetmtu ifcmd => exact .of_balanced .nil
  | targetList => exact processTargetList_keepsLocks env conf
  | targetAdd target => exact processTargetAdd_keepsLocks env conf target
  | targetDel target => exact processTargetDel_keepsLocks env conf target
  | targetSetacl target => exact processTargetSetacl_keepsLocks conf target
  | aclList => exact processAclList_keepsLocks env conf
  | unhandled cmd => exact .of_balanced .nil

/-- The status request gives up a lock of the interface list that nobody took. -/
theorem processStatusRequest_locks :
    afterCalls unheld (processStatusRequest conf).locks = none := rfl

end Handlers

/-! ## Runs -/

/-- The daemon, and what the API thread holds; there is nothing it holds after a call
that is not allowed. -/
structure Holding where
  daemon : Daemon
  held : Option (Lock → Hold)

def lockingThread : Mealy Holding Call Outcome where
  next holding call :=
    ⟨apiThread.next holding.daemon call,
      holding.held.bind fun held => afterCalls held (handle holding.daemon call).locks⟩
  out holding call := handle holding.daemon call

/-- All lock calls so far were allowed: none gave up a lock that was not held, and none
waited for a lock of the thread itself. Unless the daemon is down, nothing is held. -/
structure LocksFree (holding : Holding) : Prop where
  allowed : holding.held.isSome = true
  free : holding.daemon.stopped = none → holding.held = some unheld

/-- A request for the status is handled. -/
def HandlesStatus (holding : Holding) (call : Call) : Prop :=
  holding.daemon.stopped = none ∧ call.request = .status

theorem locksFree_step_iff {holding : Holding} (free : LocksFree holding) (call : Call) :
    LocksFree (lockingThread.next holding call) ↔ ¬ HandlesStatus holding call := by
  obtain ⟨⟨conf, stopped⟩, held⟩ := holding
  cases stopped with
  | some stop =>
      have idle : lockingThread.next ⟨⟨conf, some stop⟩, held⟩ call = ⟨⟨conf, some stop⟩, held⟩ := by
        cases held <;> rfl
      rw [idle]
      exact iff_of_true free fun handles => nomatch handles.1
  | none =>
      have nothing : held = some unheld := free.free rfl
      subst nothing
      by_cases status : call.request = .status
      · refine iff_of_false ?_ (not_not.mpr ⟨rfl, status⟩)
        intro after
        have lost : (lockingThread.next ⟨⟨conf, none⟩, some unheld⟩ call).held = none := by
          show afterCalls unheld (processAPIrequest call.env conf call.request).locks = none
          rw [status]
          exact processStatusRequest_locks conf
        have allowed := after.allowed
        rw [lost] at allowed
        cases allowed
      · have keeps := processAPIrequest_keepsLocks call.env conf status
        exact iff_of_true ⟨keeps.allowed, keeps.returned⟩ fun handles => status handles.2

/-- From a state without locks every request of a run is handled without a lock left or
given up by mistake, exactly if no request for the status is handled. -/
theorem locksFree_run_iff (conf : Conf) (calls : List Call) :
    (∀ earlier, earlier <+: calls →
        LocksFree (lockingThread.run ⟨⟨conf, none⟩, some unheld⟩ earlier)) ↔
      ∀ visit ∈ lockingThread.visits ⟨⟨conf, none⟩, some unheld⟩ calls,
        ¬ HandlesStatus visit.state visit.input := by
  apply lockingThread.prefixes_invariant_iff LocksFree fun holding call => ¬ HandlesStatus holding call
  · exact ⟨rfl, fun _ => rfl⟩
  · intro holding call free
    exact locksFree_step_iff free call

/-! ## One request for the status -/

def emptyConf : Conf := ⟨[], [], none, [], []⟩

/-- The request gives up a lock that is not held, and apart from that keeps a read lock
of the device list that a request to remove a target would wait for. -/
theorem statusRequest_keepsLock :
    (¬ ∀ earlier, earlier <+: [Call.mk grantingEnv .status] →
      LocksFree (lockingThread.run ⟨⟨emptyConf, none⟩, some unheld⟩ earlier)) ∧
    afterCalls unheld (((processStatusRequest emptyConf).locks ++ writeLocked .devlistlock).filter
      fun call => call ≠ .unlock .intlistlock) = none := by
  refine ⟨?_, rfl⟩
  intro free
  cases (free _ List.prefix_rfl).allowed

end Qaoed.Api
