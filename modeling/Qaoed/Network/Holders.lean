import Qaoed.Library.RefCount
import Qaoed.Library.Transition
import Qaoed.Network.Dispatch

/-!
# The holders of packets and work entries

The listeners, the calls of `processpacket` and the workers, interleaved at
their lock-protected steps. A task is a thread that holds references, at one point
of the source; one step of the system is one step of one task. Freed memory is
out of reach: a step that reads or writes it leads nowhere. A worker may take any
entry that was queued, which includes the order of the queues.
-/

namespace Qaoed.Network

open Qaoed.Library
open Qaoed.Library.ByteOrder
open Qaoed.Frame
open Qaoed.Device

/-! ## State -/

/-- `struct workentry` without its counter. The packet is named whose buffer
`aoepkt` points into. -/
structure Work where
  entry : Workentry
  buffer : Nat
  rawbuf : Option Nat

/-- Where a thread that has a work entry stands. -/
inductive Stage where
  /-- In the loops of `processpacket`, with this many devices to come. -/
  | raiseWork (left : Nat)
  | raisePacket (left : Nat)
  | insert (left : Nat)
  /-- In the queue of a device. -/
  | queued
  /-- In the hands of a worker. -/
  | processing
  /-- At the start of `qaoed_workdestroy`, and further down in it. -/
  | workdestroy
  | pktdestroy (packet : Nat)
  | clearRawbuf
  | lowerWork
  deriving DecidableEq, Repr

/-- The call of `processpacket` that made a work entry, its packet, and the entry. -/
structure Hold where
  call : Nat
  packet : Nat
  work : Nat
  deriving DecidableEq, Repr

inductive Task where
  /-- A listener with a reference of its own. -/
  | listener (packet : Nat)
  /-- At the start of `processpacket`; the frame as the work entry will have it. -/
  | entered (call packet : Nat) (frame : Workentry)
  /-- Before the `qaoed_pktdestroy` of a frame that is not queued. -/
  | dropping (call packet : Nat)
  | holding (hold : Hold) (stage : Stage)
  | done

/-- The heap and the tasks. The ledger is not in the code: it records for each call
of `processpacket` what its tasks have added to the counter of its packet. -/
structure State where
  packets : List (Counted Unit)
  works : List (Counted Work)
  tasks : List Task
  ledger : List Int

def State.initial : State := ⟨[], [], [], []⟩

/-! ## Steps -/

/-- What a step finds outside of the references: the device list, and the device
with its store and the answers of the system. -/
structure Surroundings (Iface : Type) where
  devices : List (Aoedev Aclhdr Iface)
  env : Env
  dev : Aoedev Aclhdr Iface
  store : List UInt8

variable {Iface : Type}

/-- The next step of a thread that has a work entry. -/
def holdingStep (order : ByteOrder) (around : Surroundings Iface) (state : State) (index : Nat)
    (hold : Hold) : Stage → Option State
  | .raiseWork 0 =>
      some { state with tasks := state.tasks.set index (.holding hold .workdestroy) }
  | .raiseWork (left + 1) => do
      let work ← access state.works hold.work
      some { state with
        works := state.works.set hold.work work.raise
        tasks := state.tasks.set index (.holding hold (.raisePacket left)) }
  | .raisePacket left => do
      let work ← access state.works hold.work
      let packet ← work.value.rawbuf
      let object ← access state.packets packet
      some { state with
        packets := state.packets.set packet object.raise
        tasks := state.tasks.set index (.holding hold (.insert left))
        ledger := state.ledger.modify hold.call (· + 1) }
  | .insert left =>
      some { state with
        tasks := state.tasks.set index (.holding hold (.raiseWork left)) ++
          [.holding hold .queued] }
  | .queued =>
      some { state with tasks := state.tasks.set index (.holding hold .processing) }
  | .processing => do
      let work ← access state.works hold.work
      let _ ← access state.packets work.value.buffer
      let outcome := qaoedProcesswork order around.env around.dev around.store work.value.entry
      -- The worker goes on with the calls of `qaoed_workdestroy` that the handler makes.
      some { state with
        tasks := state.tasks.set index .done ++
          List.replicate outcome.workdestroys (.holding hold .workdestroy) }
  | .workdestroy => do
      let work ← access state.works hold.work
      let stage := match work.value.rawbuf with
        | none => Stage.lowerWork
        | some packet => Stage.pktdestroy packet
      some { state with tasks := state.tasks.set index (.holding hold stage) }
  | .pktdestroy packet => do
      let object ← access state.packets packet
      let stage := if object.last then Stage.clearRawbuf else Stage.lowerWork
      some { state with
        packets := state.packets.set packet object.lower
        tasks := state.tasks.set index (.holding hold stage)
        ledger := state.ledger.modify hold.call (· - 1) }
  | .clearRawbuf => do
      let work ← access state.works hold.work
      some { state with
        works := state.works.set hold.work
          { work with value := { work.value with rawbuf := none } }
        tasks := state.tasks.set index (.holding hold .lowerWork) }
  | .lowerWork => do
      let work ← access state.works hold.work
      some { state with
        works := state.works.set hold.work work.lower
        tasks := state.tasks.set index .done }

/-- The next step of a task. -/
def taskStep (order : ByteOrder) (around : Surroundings Iface) (state : State) (index : Nat) :
    Task → Option State
  | .listener packet => do
      let object ← access state.packets packet
      some { state with
        packets := state.packets.set packet object.lower
        tasks := state.tasks.set index .done }
  | .entered call packet frame => do
      let _ ← access state.packets packet
      match arrival order frame.aoepkt frame.packetLen with
      | .request shelf slot =>
          let left := (recipients around.devices shelf slot).length
          let hold : Hold := ⟨call, packet, state.works.length⟩
          some { state with
            works := state.works ++ [⟨⟨frame, packet, some packet⟩, (1 : Nat), 0⟩]
            tasks := state.tasks.set index (.holding hold (.raiseWork left)) }
      | _ => some { state with tasks := state.tasks.set index (.dropping call packet) }
  | .dropping call packet => do
      let object ← access state.packets packet
      some { state with
        packets := state.packets.set packet object.lower
        tasks := state.tasks.set index .done
        ledger := state.ledger.modify call (· - 1) }
  | .holding hold stage => holdingStep order around state index hold stage
  | .done => some state

inductive Action (Iface : Type) where
  /-- A packet arrives, with one reference for a listener and more for others. -/
  | receive (more : Nat)
  /-- A listener calls `processpacket` with its own reference. -/
  | hand (index : Nat) (frame : Workentry)
  /-- A listener raises the counter and calls `processpacket` with the new reference. -/
  | share (index : Nat) (frame : Workentry)
  | run (index : Nat) (around : Surroundings Iface)

/-- One step of the system. An action of a task that is not there changes nothing. -/
def step (order : ByteOrder) (state : State) : Action Iface → Option State
  | .receive more =>
      some { state with
        packets := state.packets ++ [⟨(), (more + 1 : Nat), 0⟩]
        tasks := state.tasks ++ List.replicate (more + 1) (.listener state.packets.length) }
  | .hand index frame =>
      match state.tasks[index]? with
      | some (.listener packet) =>
          some { state with
            tasks := state.tasks.set index (.entered state.ledger.length packet frame)
            ledger := state.ledger ++ [0] }
      | _ => some state
  | .share index frame =>
      match state.tasks[index]? with
      | some (.listener packet) => do
          let object ← access state.packets packet
          some { state with
            packets := state.packets.set packet object.raise
            tasks := state.tasks ++ [.entered state.ledger.length packet frame]
            ledger := state.ledger ++ [0] }
      | _ => some state
  | .run index around =>
      match state.tasks[index]? with
      | some task => taskStep order around state index task
      | none => some state

/-! ## References -/

/-- How many references to its packet a thread with a work entry holds. While it
queues the entry it holds the references of the entry in the queue as well. -/
def Stage.packetRefs : Stage → Nat
  | .insert _ => 2
  | .raiseWork _ | .raisePacket _ | .queued | .processing | .workdestroy | .pktdestroy _ => 1
  | .clearRawbuf | .lowerWork => 0

/-- How many references to the work entry. -/
def Stage.workRefs : Stage → Nat
  | .raisePacket _ | .insert _ => 2
  | .raiseWork _ | .queued | .processing | .workdestroy | .pktdestroy _ | .clearRawbuf
  | .lowerWork => 1

namespace Task

def packetRefs (packet : Nat) : Task → Nat
  | .listener packet' | .entered _ packet' _ | .dropping _ packet' =>
      if packet = packet' then 1 else 0
  | .holding hold stage => if packet = hold.packet then stage.packetRefs else 0
  | .done => 0

def workRefs (work : Nat) : Task → Nat
  | .holding hold stage => if work = hold.work then stage.workRefs else 0
  | .listener _ | .entered _ _ _ | .dropping _ _ | .done => 0

/-- The references to the packet of a call that the call accounts for. -/
def callRefs (call : Nat) : Task → Nat
  | .entered call' _ _ | .dropping call' _ => if call = call' then 1 else 0
  | .holding hold stage => if call = hold.call then stage.packetRefs else 0
  | .listener _ | .done => 0

end Task

namespace State

/-- The number of holders of a packet that have not run `qaoed_pktdestroy` yet. -/
def packetHolders (state : State) (packet : Nat) : Nat :=
  total (Task.packetRefs packet) state.tasks

/-- The number of holders of a work entry that have not released it yet. -/
def workHolders (state : State) (work : Nat) : Nat := total (Task.workRefs work) state.tasks

/-- The number of holders of its packet that a call of `processpacket` still has. -/
def callHolders (state : State) (call : Nat) : Nat := total (Task.callRefs call) state.tasks

end State

end Qaoed.Network
