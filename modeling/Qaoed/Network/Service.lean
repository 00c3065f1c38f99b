import Qaoed.Device.Worker
import Qaoed.Library.Mealy
import Qaoed.Network.Dispatch

/-!
# The server at work

All threads of the server together: each listener runs `processpacket` on one frame after the
other and inserts it in the queues of the devices it names, and the worker of each device
takes the frames from its queue and handles them. One step is one lock-protected section of
one thread, and the handling of one request. Devices with the same name share its file.
-/

namespace Qaoed.Network

open Qaoed.Library
open Qaoed.Library.ByteOrder
open Qaoed.Frame
open Qaoed.Device

variable {Iface : Type}

/-! ## One request after the other -/

/-- The devices with what requests leave in them, and the files behind them. -/
structure Site (Iface : Type) where
  devices : List (Aoedev Aclhdr Iface)
  files : CString → List UInt8

/-- The file that a device exports. -/
def target (device : Aoedev Aclhdr Iface) : CString := device.devicename.getD []

/-- A request in the hands of the worker of a device. -/
structure Assigned where
  device : Nat
  request : Request

/-- The worker of a device handles a request. -/
def serve (order : ByteOrder) : Mealy (Site Iface) Assigned (List Sent) where
  next site assigned :=
    match site.devices[assigned.device]? with
    | none => site
    | some device =>
        let outcome := qaoedProcesswork order assigned.request.env device
          (site.files (target device)) assigned.request.work
        ⟨site.devices.set assigned.device outcome.dev,
          Function.update site.files (target device) outcome.store⟩
  out site assigned :=
    match site.devices[assigned.device]? with
    | none => []
    | some device =>
        (qaoedProcesswork order assigned.request.env device (site.files (target device))
          assigned.request.work).sent

/-! ## All threads -/

/-- The devices with their place in the list where they lead to their interface: the
dispatcher does not follow that pointer. -/
def numbered (devices : List (Aoedev Aclhdr Iface)) : List (Aoedev Aclhdr Nat) :=
  devices.zipIdx.map fun (device, index) =>
    { devicename := device.devicename, size := device.size, shelf := device.shelf,
      slot := device.slot, interface := some index, wacl := device.wacl, racl := device.racl,
      cfgsetacl := device.cfgsetacl, cfgracl := device.cfgracl, cfgLen := device.cfgLen,
      cfg := device.cfg }

/-- The places of the devices in whose queues `processpacket` inserts a frame. -/
def queuedAt (order : ByteOrder) (devices : List (Aoedev Aclhdr Iface)) (entry : Workentry) :
    List Nat :=
  (processpacket order (numbered devices) entry.ifentry entry.aoepkt
    entry.packetLen).queued.filterMap Aoedev.interface

/-- A work entry that a listener has made, and the devices it is for. -/
structure Made where
  listener : Nat
  entry : Workentry
  devices : List Nat

/-- A work entry that a worker has handled. -/
structure Handled where
  device : Nat
  work : Workref
  request : Request

/-- The threads and what they share. A listener is idle, or it holds a work entry with the
devices to come. The entries ever made, what was handled and what was sent are histories. -/
structure Service (Iface : Type) where
  site : Site Iface
  workers : List WorkerState
  listeners : List (Option (Workref × List Nat))
  works : List Made
  handled : List Handled
  sent : List (List Sent)

/-- The state in which the threads start. -/
def serviceStart (site : Site Iface) (listeners : Nat) : Service Iface where
  site := site
  workers := List.replicate site.devices.length workerStart
  listeners := List.replicate listeners none
  works := []
  handled := []
  sent := []

/-- The steps of a worker on its way to the next request. -/
inductive Turn where
  | lock
  | wake
  | unlink
  deriving DecidableEq, Repr

def Turn.action : Turn → WorkerAction
  | .lock => .lock
  | .wake => .wake
  | .unlink => .unlink

inductive ServiceAction where
  /-- A listener calls `processpacket` with the frame it has read. -/
  | arrive (listener : Nat) (entry : Workentry)
  /-- It inserts the work entry in the next queue, in the memory that `malloc` returns. -/
  | insert (listener : Nat) (qe : Nat)
  /-- It returns from `processpacket`. -/
  | finish (listener : Nat)
  | turn (device : Nat) (turn : Turn)
  /-- A worker hands its request to `qaoed_processwork`. -/
  | process (device : Nat) (env : Env)

/-- One step of one thread. -/
def serviceStep (order : ByteOrder) (state : Service Iface) :
    ServiceAction → Option (Service Iface)
  | .arrive listener entry =>
      match state.listeners[listener]? with
      | some none =>
          match arrival order entry.aoepkt entry.packetLen with
          | .request _ _ =>
              let devices := queuedAt order state.site.devices entry
              some { state with
                works := state.works ++ [⟨listener, entry, devices⟩]
                listeners := state.listeners.set listener (some (state.works.length, devices)) }
          | _ => some state
      | _ => none
  | .insert listener qe =>
      match state.listeners[listener]? with
      | some (some (work, device :: rest)) => do
          let worker ← state.workers[device]?
          let worker ← workerStep worker (.insert work (some qe))
          some { state with
            workers := state.workers.set device worker
            listeners := state.listeners.set listener (some (work, rest)) }
      | _ => none
  | .finish listener =>
      match state.listeners[listener]? with
      | some (some (_, [])) => some { state with listeners := state.listeners.set listener none }
      | _ => none
  | .turn device turn => do
      let worker ← state.workers[device]?
      let worker ← workerStep worker turn.action
      some { state with workers := state.workers.set device worker }
  | .process device env => do
      let worker ← state.workers[device]?
      let next ← workerStep worker .process
      let work ← worker.work
      let made ← state.works[work]?
      let request : Request := ⟨made.entry, env⟩
      some { state with
        site := (serve order).next state.site ⟨device, request⟩
        workers := state.workers.set device next
        handled := state.handled ++ [⟨device, work, request⟩]
        sent := state.sent ++ [(serve order).out state.site ⟨device, request⟩] }

/-- No return of `pthread_cond_wait` finds the queue of its device empty. -/
def WakesForWork (state : Service Iface) : ServiceAction → Prop
  | .turn device .wake => ∀ worker, state.workers[device]? = some worker → worker.queue.q ≠ none
  | _ => True

/-! ## Who gets a frame -/

/-- The shelf and slot of a device. -/
def address (device : Aoedev Aclhdr Iface) : UInt16 × UInt8 := (device.shelf, device.slot)

/-- Where a number leads to is its place. -/
theorem numbered_places (devices : List (Aoedev Aclhdr Iface)) :
    (numbered devices).filterMap Aoedev.interface = List.range devices.length := by
  rw [numbered, List.filterMap_map]
  show devices.zipIdx.filterMap (some ∘ Prod.snd) = _
  rw [List.filterMap_eq_map, List.zipIdx_map_snd, List.range_eq_range']

/-- The dispatcher looks at the addresses of the devices only. -/
theorem queuedAt_request {order : ByteOrder} {entry : Workentry} {shelf : UInt16} {slot : UInt8}
    (devices : List (Aoedev Aclhdr Iface))
    (request : arrival order entry.aoepkt entry.packetLen = .request shelf slot) :
    queuedAt order devices entry =
      ((devices.map address).zipIdx.filter fun placed => placed.1 = (shelf, slot)).map Prod.snd ++
        if isBroadcast shelf slot then List.range devices.length else [] := by
  rw [queuedAt, processpacket_request request, recipients, List.filterMap_append]
  congr 1
  · rw [addressed, numbered, List.filter_map, List.filterMap_map, List.zipIdx_map, List.filter_map,
      List.map_map]
    show (devices.zipIdx.filter _).filterMap (some ∘ Prod.snd) = _
    rw [List.filterMap_eq_map]
    refine congrArg (List.map Prod.snd) (List.filter_congr ?_)
    intro placed _
    rw [Bool.eq_iff_iff]
    simp [address]
  · split
    · exact numbered_places devices
    · rfl

/-- A frame that is dropped is queued nowhere. -/
theorem queuedAt_dropped {order : ByteOrder} {entry : Workentry}
    (devices : List (Aoedev Aclhdr Iface))
    (dropped : ∀ shelf slot, arrival order entry.aoepkt entry.packetLen ≠ .request shelf slot) :
    queuedAt order devices entry = [] := by
  rw [queuedAt, processpacket_dropped dropped]
  rfl

/-- Devices with the same addresses get the same frames. -/
theorem queuedAt_congr {order : ByteOrder} {entry : Workentry}
    {devices devices' : List (Aoedev Aclhdr Iface)}
    (same : devices.map address = devices'.map address) :
    queuedAt order devices entry = queuedAt order devices' entry := by
  have lengths : devices.length = devices'.length := by
    rw [← List.length_map address, same, List.length_map]
  by_cases request : ∃ shelf slot, arrival order entry.aoepkt entry.packetLen = .request shelf slot
  · obtain ⟨shelf, slot, request⟩ := request
    rw [queuedAt_request devices request, queuedAt_request devices' request, same, lengths]
  · have dropped (shelf : UInt16) (slot : UInt8) :
        arrival order entry.aoepkt entry.packetLen ≠ .request shelf slot :=
      fun found => request ⟨shelf, slot, found⟩
    rw [queuedAt_dropped devices dropped, queuedAt_dropped devices' dropped]

/-- How often a frame is queued for a device: once if it names the device, and once more if
it is a broadcast. -/
theorem count_queuedAt {order : ByteOrder} {entry : Workentry} {shelf : UInt16} {slot : UInt8}
    {devices : List (Aoedev Aclhdr Iface)} {device : Nat} {found : Aoedev Aclhdr Iface}
    (there : devices[device]? = some found)
    (request : arrival order entry.aoepkt entry.packetLen = .request shelf slot) :
    (queuedAt order devices entry).count device =
      (if address found = (shelf, slot) then 1 else 0) +
        if isBroadcast shelf slot then 1 else 0 := by
  have inside : device < devices.length := (List.getElem?_eq_some_iff.mp there).1
  rw [queuedAt_request devices request, List.count_append]
  congr 1
  · have distinct : (((devices.map address).zipIdx.filter fun placed =>
        placed.1 = (shelf, slot)).map Prod.snd).Nodup := by
      refine List.Nodup.sublist (List.filter_sublist.map Prod.snd) ?_
      rw [List.zipIdx_map_snd]
      exact List.nodup_range'
    have member : device ∈ ((devices.map address).zipIdx.filter fun placed =>
        placed.1 = (shelf, slot)).map Prod.snd ↔ address found = (shelf, slot) := by
      have here : (devices.map address)[device]? = some (address found) := by
        rw [List.getElem?_map, there, Option.map_some]
      constructor
      · intro listed
        obtain ⟨⟨placed, _⟩, kept, rfl⟩ := List.mem_map.mp listed
        obtain ⟨place, named⟩ := List.mem_filter.mp kept
        rw [List.mk_mem_zipIdx_iff_getElem?] at place
        have same := Option.some.inj (here.symm.trans place)
        rw [same]
        exact of_decide_eq_true named
      · intro named
        refine List.mem_map.mpr ⟨(address found, device), List.mem_filter.mpr ⟨?_, ?_⟩, rfl⟩
        · exact List.mk_mem_zipIdx_iff_getElem?.mpr here
        · exact decide_eq_true named
    split
    · next named => exact List.count_eq_one_of_mem distinct (member.mpr named)
    · next other => exact List.count_eq_zero_of_not_mem (mt member.mp other)
  · split
    · exact List.count_eq_one_of_mem List.nodup_range (List.mem_range.mpr inside)
    · rfl

/-! ## A server with two devices -/

/-- A configuration read that everybody is to answer. -/
def queryEntry : Workentry where
  aoepkt := fun index =>
    ([0, 0, 0, 0, 0, 0, 2, 0, 0, 0, 0, 1, 0x88, 0xa2, 0x10, 0, 0xff, 0xff, 0xff, 1, 0, 0, 0, 7,
      0, 0, 0, 0, 0, 0x10, 0, 0][index]?).getD 0
  packetLen := 32
  ifentry := ⟨[], none, 1500, 1518, none⟩

/-- Two devices without a file, on shelf one. -/
def twoSlots : Site Unit where
  devices := [oneSector.dev, { oneSector.dev with slot := 2 }]
  files := fun _ => []

def silent : Env := ⟨true, none, fun _ => 0, fun _ => 0⟩

/-- A query arrives, and both workers answer it, the second one first. -/
def queryRun : List ServiceAction :=
  [.arrive 0 queryEntry, .insert 0 0, .insert 0 0, .finish 0, .turn 1 .lock, .turn 1 .unlink,
    .process 1 silent, .turn 0 .lock, .turn 0 .unlink, .process 0 silent]

theorem queryRun_wakes (state : Service Iface) (action : ServiceAction)
    (member : action ∈ queryRun) : WakesForWork state action := by
  simp only [queryRun, List.mem_cons, List.not_mem_nil, or_false] at member
  rcases member with rfl | rfl | rfl | rfl | rfl | rfl | rfl | rfl | rfl | rfl
  all_goals trivial

end Qaoed.Network
