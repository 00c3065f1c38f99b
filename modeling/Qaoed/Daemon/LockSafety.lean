import Qaoed.Api.Locks
import Qaoed.Library.LockOrder
import Qaoed.Network.Service

/-!
# The locks of all threads

Listeners, device workers and the API thread share the locks of the two lists and the mutexes
of interfaces, access lists, queues, work entries and packets. Which calls a thread makes in a
round is read off the source; every round takes a list lock first, and no two mutexes at once.
-/

namespace Qaoed.Daemon

open Qaoed.Library
open Qaoed.Device
open Qaoed.Config
open Qaoed.Network
open Qaoed.Api

/-! ## Calls -/

/-- What carries a count that the API thread moves. No code initialises these mutexes; they are
taken for free ones at the start. -/
inductive Counter where
  | iflock (interface : Nat)
  | acllock (acl : Nat)
  deriving DecidableEq, Repr

inductive ServerLock where
  | list (lock : Lock)
  | counter (counter : Counter)
  | worklock (work : Nat)
  | pktlock (packet : Nat)
  | queuelock (device : Nat)
  deriving DecidableEq, Repr

/-- A mutex that is taken and given up. -/
def mutex (lock : ServerLock) : List (LockCall ServerLock) := [.wrlock lock, .unlock lock]

def qaoedPktdestroyCalls (packet : Nat) : List (LockCall ServerLock) := mutex (.pktlock packet)

def qaoedWorkdestroyCalls (work packet : Nat) : List (LockCall ServerLock) :=
  qaoedPktdestroyCalls packet ++ mutex (.worklock work)

/-- What the loops of `processpacket` call for one device. -/
def queueCalls (work packet device : Nat) : List (LockCall ServerLock) :=
  mutex (.worklock work) ++ mutex (.pktlock packet) ++ mutex (.queuelock device)

section Listener

variable {Iface : Type} (order : ByteOrder) (devices : List (Aoedev Aclhdr Iface))

/-- There is no call after `malloc` failed: the packet is freed as it is. -/
def processpacketCalls (malloc : Bool) (entry : Workentry) (work packet : Nat) :
    List (LockCall ServerLock) :=
  match arrival order entry.aoepkt entry.packetLen with
  | .short => qaoedPktdestroyCalls packet
  | .wrongType => qaoedPktdestroyCalls packet
  | .response => qaoedPktdestroyCalls packet
  | .request _ _ =>
      if malloc then
        .rdlock (.list .devlistlock) ::
          ((queuedAt order devices entry).flatMap (queueCalls work packet) ++
            [.unlock (.list .devlistlock)]) ++ qaoedWorkdestroyCalls work packet
      else []

/-- The packet is counted for each frame in the buffer, and once for the listener. -/
def bufferCalls (frames : List (Bool × Workentry × Nat)) (packet : Nat) : List (LockCall ServerLock) :=
  frames.flatMap (fun frame => mutex (.pktlock packet) ++
    processpacketCalls order devices frame.1 frame.2.1 frame.2.2 packet) ++
    qaoedPktdestroyCalls packet

end Listener

def listCall : LockCall Lock → LockCall ServerLock
  | .rdlock lock => .rdlock (.list lock)
  | .wrlock lock => .wrlock (.list lock)
  | .unlock lock => .unlock (.list lock)

def countCalls (counters : List Counter) : List (LockCall ServerLock) :=
  counters.flatMap fun counter => mutex (.counter counter)

/-- The calls of a handler on the list locks, with the counts that it moves before it takes a
list lock and at its end. -/
def handlerCalls : (Nat → List Counter) → List (LockCall Lock) → List (LockCall ServerLock)
  | counters, [] => countCalls (counters 0)
  | counters, .unlock lock :: calls => .unlock (.list lock) :: handlerCalls counters calls
  | counters, call :: calls =>
      countCalls (counters 0) ++ listCall call :: handlerCalls (fun count => counters (count + 1)) calls

/-! ## Rounds -/

inductive Role where
  | listener
  | worker (device : Nat)
  | api
  deriving DecidableEq, Repr

/-- What a thread does from one point where it waits for work to the next. -/
inductive Round (Iface : Type) (order : ByteOrder) : Role → List (LockCall ServerLock) → Prop
  /-- A frame from the socket. -/
  | frame (devices : List (Aoedev Aclhdr Iface)) (malloc : Bool) (entry : Workentry)
      (work packet : Nat) :
      Round Iface order .listener (processpacketCalls order devices malloc entry work packet)
  /-- A buffer of the packet filter. -/
  | buffer (devices : List (Aoedev Aclhdr Iface)) (frames : List (Bool × Workentry × Nat))
      (packet : Nat) : Round Iface order .listener (bufferCalls order devices frames packet)
  /-- The worker looks at its queue, and waits for the condition or unlinks. -/
  | turn (device : Nat) : Round Iface order (.worker device) (mutex (.queuelock device))
  /-- It handles what it has unlinked. -/
  | work (device work packet : Nat) :
      Round Iface order (.worker device) (qaoedWorkdestroyCalls work packet)
  /-- Requests for the status keep a lock. -/
  | request (env : ApiEnv) (conf : Conf) {request : Api.Request} (counters : Nat → List Counter) :
      request ≠ .status → (processAPIrequest env conf request).stopped = none →
      Round Iface order .api (handlerCalls counters (processAPIrequest env conf request).locks)

/-- A round of the thread at a place. -/
def RoundAt (Iface : Type) (order : ByteOrder) (roles : List Role) (index : Nat)
    (calls : List (LockCall ServerLock)) : Prop :=
  ∃ role, roles[index]? = some role ∧ Round Iface order role calls

/-! ## The order -/

def lockRank : ServerLock → Nat
  | .list _ => 0
  | .counter _ => 1
  | .worklock _ => 1
  | .pktlock _ => 1
  | .queuelock _ => 1

theorem ascending_mutex (lock : ServerLock) : Ascending lockRank unheld (mutex lock) :=
  Ascending.writeSection .done (List.forall_mem_nil _)

theorem ascending_flatMap {α : Type*} {list : List α} {round : α → List (LockCall ServerLock)}
    (each : ∀ item ∈ list, Ascending lockRank unheld (round item)) :
    Ascending lockRank unheld (list.flatMap round) := by
  rw [List.flatMap_def]
  refine Ascending.flatten fun calls member => ?_
  obtain ⟨item, inList, rfl⟩ := List.mem_map.mp member
  exact each item inList

theorem ascending_workdestroy (work packet : Nat) :
    Ascending lockRank unheld (qaoedWorkdestroyCalls work packet) :=
  (ascending_mutex _).append (ascending_mutex _)

theorem ascending_queueCalls (work packet device : Nat) :
    Ascending lockRank unheld (queueCalls work packet device) :=
  ((ascending_mutex _).append (ascending_mutex _)).append (ascending_mutex _)

theorem queueCalls_rank {work packet device : Nat} :
    ∀ call ∈ queueCalls work packet device, lockRank call.lock = 1 := by
  simp [queueCalls, mutex, LockCall.lock, lockRank]

theorem ascending_processpacket {Iface : Type} (order : ByteOrder)
    (devices : List (Aoedev Aclhdr Iface)) (malloc : Bool) (entry : Workentry) (work packet : Nat) :
    Ascending lockRank unheld (processpacketCalls order devices malloc entry work packet) := by
  unfold processpacketCalls
  cases arrival order entry.aoepkt entry.packetLen with
  | short => exact ascending_mutex _
  | wrongType => exact ascending_mutex _
  | response => exact ascending_mutex _
  | request shelf slot =>
      cases malloc with
      | false => exact .done
      | true =>
          refine Ascending.append (Ascending.readSection ?_ ?_) (ascending_workdestroy work packet)
          · exact ascending_flatMap fun device _ => ascending_queueCalls work packet device
          · intro call member
            obtain ⟨device, _, inQueue⟩ := List.mem_flatMap.mp member
            rw [queueCalls_rank call inQueue]
            exact Nat.one_pos

theorem ascending_countCalls (counters : List Counter) :
    Ascending lockRank unheld (countCalls counters) :=
  ascending_flatMap fun _ _ => ascending_mutex _

/-- A list lock that is taken and given up, with counts before it and other calls behind. -/
theorem ascending_section {lock : ServerLock} {call : LockCall ServerLock}
    (takes : call = .rdlock lock ∨ call = .wrlock lock) (counters : List Counter)
    {later : List (LockCall ServerLock)} (ascending : Ascending lockRank unheld later) :
    Ascending lockRank unheld (countCalls counters ++ call :: .unlock lock :: later) := by
  refine (ascending_countCalls counters).append ?_
  rcases takes with rfl | rfl
  · exact (@Ascending.readSection _ _ _ [] _ .done (List.forall_mem_nil _)).append ascending
  · exact (@Ascending.writeSection _ _ _ [] _ .done (List.forall_mem_nil _)).append ascending

/-- A handler that returns has taken no list lock, or one after the other. -/
inductive Sections : List (LockCall Lock) → Prop
  | none : Sections []
  | read (lock : Lock) : Sections (readLocked lock)
  | write (lock : Lock) : Sections (writeLocked lock)
  | both (lock : Lock) : Sections (readLocked lock ++ writeLocked lock)

theorem processTargetList_sections (env : ApiEnv) (conf : Conf)
    (returns : (processTargetList env conf).stopped = none) :
    Sections (processTargetList env conf).locks := by
  unfold processTargetList at returns ⊢
  dsimp only at returns ⊢
  split
  · exact .read _
  · split
    · simp_all
    · exact .read _

theorem processTargetDel_sections (env : ApiEnv) (conf : Conf) (target : TargetInfo) :
    Sections (processTargetDel env conf target).locks := by
  unfold processTargetDel
  dsimp only
  split_ifs
  · exact .write _
  · exact .write _
  · exact .write _
  · split
    · exact .write _
    · exact .write _

theorem processTargetAdd_sections (env : ApiEnv) (conf : Conf) (target : TargetInfo)
    (returns : (processTargetAdd env conf target).stopped = none) :
    Sections (processTargetAdd env conf target).locks := by
  unfold processTargetAdd at returns ⊢
  dsimp only at returns ⊢
  split
  · exact .none
  · split
    · exact .none
    · split
      · simp_all
      · exact .read _
      · split
        · exact .read _
        · exact .read _
        · split
          · exact .both _
          · exact .both _

theorem processAPIrequest_sections (env : ApiEnv) (conf : Conf) {request : Api.Request}
    (other : request ≠ .status) (returns : (processAPIrequest env conf request).stopped = none) :
    Sections (processAPIrequest env conf request).locks := by
  cases request with
  | status => exact absurd rfl other
  | interfacesList =>
      rw [processAPIrequest, processIntList]
      split
      · exact .read _
      · exact .read _
  | interfacesStatus ifcmd => exact .none
  | interfacesSetmtu ifcmd => exact .none
  | targetList => exact processTargetList_sections env conf returns
  | targetAdd target => exact processTargetAdd_sections env conf target returns
  | targetDel target => exact processTargetDel_sections env conf target
  | targetSetacl target =>
      rw [processAPIrequest, processTargetSetacl]
      split
      · exact .none
      · exact .none
  | aclList =>
      rw [processAPIrequest, processAclList]
      split
      · exact .none
      · split
        · exact .none
        · exact .none
  | unhandled cmd => exact .none

theorem ascending_handlerCalls {locks : List (LockCall Lock)} (sections : Sections locks)
    (counters : Nat → List Counter) : Ascending lockRank unheld (handlerCalls counters locks) := by
  cases sections with
  | none => exact ascending_countCalls _
  | read lock => exact ascending_section (.inl rfl) _ (ascending_countCalls _)
  | write lock => exact ascending_section (.inr rfl) _ (ascending_countCalls _)
  | both lock =>
      exact ascending_section (.inl rfl) _ (ascending_section (.inr rfl) _ (ascending_countCalls _))

/-- A request for the status is out of order: it gives up what it does not hold. -/
theorem not_ascending_status (conf : Conf) (counters : Nat → List Counter) :
    ¬ Ascending lockRank unheld (handlerCalls counters (processStatusRequest conf).locks) := by
  intro ascending
  have returned := ascending.returned
  have parts : handlerCalls counters (processStatusRequest conf).locks =
      countCalls (counters 0) ++ ([.rdlock (.list .devlistlock), .unlock (.list .devlistlock)] ++
        (countCalls (counters 1) ++ .rdlock (.list .devlistlock) :: .unlock (.list .intlistlock) ::
          countCalls (counters 2))) := rfl
  rw [parts, Balanced.afterCalls_append (ascending_countCalls _).returned,
    Balanced.afterCalls_append (Balanced.rdlock_unlock _),
    Balanced.afterCalls_append (ascending_countCalls _).returned] at returned
  cases returned

theorem round_ascending {Iface : Type} {order : ByteOrder} {role : Role}
    {calls : List (LockCall ServerLock)} (round : Round Iface order role calls) :
    Ascending lockRank unheld calls := by
  cases round with
  | frame devices malloc entry work packet =>
      exact ascending_processpacket order devices malloc entry work packet
  | buffer devices frames packet =>
      refine (ascending_flatMap fun frame _ => ?_).append (ascending_mutex _)
      exact (ascending_mutex _).append (ascending_processpacket order devices _ _ _ packet)
  | turn device => exact ascending_mutex _
  | work device work packet => exact ascending_workdestroy work packet
  | request env conf counters other returns =>
      exact ascending_handlerCalls (processAPIrequest_sections env conf other returns) counters

/-! ## All threads -/

/-- The threads of the daemon, whatever their number, never get into each other's way for good:
what one of them writes no other holds, some thread can go on until all wait for work, and that
takes no longer than there are calls to make. Whether writers that wait keep readers out is up to
the system. At first all locks are free, also `iflock` and the lock of an access list, which are
never initialised by the code. -/
theorem threads_goOn (Iface : Type) (order : ByteOrder) (roles : List Role)
    (grants : List (LockThread ServerLock) → Nat → LockCall ServerLock → Prop)
    (policy : Policy grants) (threads : List (LockThread ServerLock))
    (reached : Relation.ReflTransGen (LockMove grants (RoundAt Iface order roles))
      (List.replicate roles.length LockThread.idle) threads) :
    Exclusive threads ∧ (AllIdle threads ∨ ∃ next, CallReturns grants threads next) ∧
      ∀ run, (threads :: run).IsChain (CallReturns grants) → run.length ≤ pendingCalls threads := by
  have ordered (index : Nat) (calls : List (LockCall ServerLock))
      (round : RoundAt Iface order roles index calls) : Ascending lockRank unheld calls := by
    obtain ⟨role, _, round⟩ := round
    exact round_ascending round
  obtain ⟨ascending, exclusive⟩ := lockRun_invariant policy ordered reached
  exact ⟨exclusive, call_possible policy ascending, fun run => callRun_length⟩

/-- The system lets readers in while writers wait. -/
theorem open_policy : Policy (Open (κ := ServerLock)) where
  exclusive _ _ _ granted := granted
  willing _ _ _ free _ := free

/-- A listener that is to queue a broadcast, while the API thread is to remove a target. -/
def queueAndRemove : List (LockThread ServerLock) :=
  [⟨unheld, processpacketCalls .little twoSlots.devices true queryEntry 0 0⟩,
    ⟨unheld, handlerCalls (fun _ => [])
      (processAPIrequest grantingEnv emptyConf (.targetDel ⟨[], 1, 2, [], 0, 0⟩)).locks⟩]

theorem threads_goOn_queueAndRemove : Exclusive queueAndRemove ∧
    (AllIdle queueAndRemove ∨ ∃ next, CallReturns Open queueAndRemove next) ∧
    ∀ run, (queueAndRemove :: run).IsChain (CallReturns Open) →
      run.length ≤ pendingCalls queueAndRemove := by
  refine threads_goOn Unit .little [.listener, .api] Open open_policy queueAndRemove ?_
  have listens : RoundAt Unit .little [.listener, .api] 0
      (processpacketCalls .little twoSlots.devices true queryEntry 0 0) :=
    ⟨.listener, rfl, .frame twoSlots.devices true queryEntry 0 0⟩
  have removes : RoundAt Unit .little [.listener, .api] 1 (handlerCalls (fun _ => [])
      (processAPIrequest grantingEnv emptyConf (.targetDel ⟨[], 1, 2, [], 0, 0⟩)).locks) :=
    ⟨.api, rfl, .request grantingEnv emptyConf (fun _ => []) (by simp) rfl⟩
  let queueing : List (LockThread ServerLock) :=
    [⟨unheld, processpacketCalls .little twoSlots.devices true queryEntry 0 0⟩, .idle]
  have first : LockMove Open (RoundAt Unit .little [.listener, .api])
      (List.replicate 2 LockThread.idle) queueing :=
    @LockMove.enter _ _ Open _ _ 0 LockThread.idle _ rfl rfl listens
  have second : LockMove Open (RoundAt Unit .little [.listener, .api]) queueing queueAndRemove :=
    @LockMove.enter _ _ Open _ queueing 1 LockThread.idle _ rfl rfl removes
  exact .tail (.single first) second

end Qaoed.Daemon
