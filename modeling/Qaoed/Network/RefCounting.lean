import Qaoed.Network.HolderInvariant

/-!
# Reference counting is exact

Every step of a listener, of a call of `processpacket` or of a worker finds the
memory it needs and preserves the invariant, so every interleaving does.
-/

namespace Qaoed.Network

open Qaoed.Library
open Qaoed.Library.ByteOrder
open Qaoed.Frame
open Qaoed.Device

variable {Iface : Type}

/-- The step comes about, and to a consistent state. -/
def Safe (result : Option State) : Prop := ∃ next, result = some next ∧ Consistent next

/-! ## Steps of a thread with a work entry -/

section Holding

variable {state : State} {index : Nat} {hold : Hold} (order : ByteOrder)
  (around : Surroundings Iface)

theorem safe_raiseWork_zero (consistent : Consistent state)
    (found : state.tasks[index]? = some (.holding hold (.raiseWork 0))) :
    Safe (holdingStep order around state index hold (.raiseWork 0)) :=
  ⟨_, rfl, consistent.next found .workdestroy rfl rfl (by simp) (by simp)⟩

theorem safe_raiseWork (consistent : Consistent state) {left : Nat}
    (found : state.tasks[index]? = some (.holding hold (.raiseWork (left + 1)))) :
    Safe (holdingStep order around state index hold (.raiseWork (left + 1))) := by
  obtain ⟨work, accessed, buffer⟩ := consistent.work_of_holding found
  refine ⟨_, by rw [holdingStep, accessed]; rfl, ?_⟩
  constructor
  · exact consistent.packets.congr fun packet => total_set_same found rfl
  · apply consistent.works.raise (Consistent.workHolders_pos found) accessed
    intro work
    apply total_set_more found
    simp only [Task.workRefs, Stage.workRefs]
    split <;> rfl
  · exact consistent.settled.congr fun call => total_set_same found rfl
  · have linked := consistent.linked.next found (.raisePacket left) (by simp)
      (by simp [Stage.packetRefs]) (by simp)
    rwa [State.entries, ← map_value_set accessed work.raise_value] at linked

theorem safe_raisePacket (consistent : Consistent state) {left : Nat}
    (found : state.tasks[index]? = some (.holding hold (.raisePacket left))) :
    Safe (holdingStep order around state index hold (.raisePacket left)) := by
  obtain ⟨work, accessed, buffer⟩ := consistent.work_of_holding found
  obtain ⟨held, object, reached⟩ := consistent.packet_of_task hold.packet found
    (by simp [Task.packetRefs, Stage.packetRefs])
  have leads := consistent.rawbuf_of_holding accessed buffer held
  refine ⟨_, by rw [holdingStep, accessed, Option.bind_eq_bind, Option.bind_some, leads,
    Option.bind_eq_bind, Option.bind_some, reached]; rfl, ?_⟩
  constructor
  · apply consistent.packets.raise held reached
    intro packet
    apply total_set_more found
    simp only [Task.packetRefs, Stage.packetRefs]
    split <;> rfl
  · exact consistent.works.congr fun work => total_set_same found rfl
  · apply consistent.settled.raise (Consistent.callHolders_pos found (by simp [Task.callRefs, Stage.packetRefs]))
    intro call
    apply total_set_more found
    simp only [Task.callRefs, Stage.packetRefs]
    split <;> rfl
  · rw [List.length_set]
    exact consistent.linked.next found (.insert left) (by simp) (by simp [Stage.packetRefs])
      (by simp)

theorem safe_insert (consistent : Consistent state) {left : Nat}
    (found : state.tasks[index]? = some (.holding hold (.insert left))) :
    Safe (holdingStep order around state index hold (.insert left)) := by
  have entry := (consistent.linked.sound _ (List.mem_of_getElem? found)).1
  refine ⟨_, rfl, ?_⟩
  constructor
  · apply consistent.packets.congr
    intro packet
    apply total_split found
    simp only [Task.packetRefs, Stage.packetRefs, total_cons, total_nil]
    split <;> rfl
  · apply consistent.works.congr
    intro work
    apply total_split found
    simp only [Task.workRefs, Stage.workRefs, total_cons, total_nil]
    split <;> rfl
  · apply consistent.settled.congr
    intro call
    apply total_split found
    simp only [Task.callRefs, Stage.packetRefs, total_cons, total_nil]
    split <;> rfl
  · apply consistent.linked.advance found _ _
    · simpa [Task.Sound] using entry
    · intro packet none
      simp only [Task.packetRefs, Stage.packetRefs, total_cons, total_nil] at none ⊢
      split at none <;> simp_all
    · simp

theorem safe_queued (consistent : Consistent state)
    (found : state.tasks[index]? = some (.holding hold .queued)) :
    Safe (holdingStep order around state index hold .queued) :=
  ⟨_, rfl, consistent.next found .processing rfl rfl (by simp) (by simp)⟩

/-- The worker makes one call of `qaoed_workdestroy` for each entry it takes. -/
theorem safe_processing (consistent : Consistent state)
    (found : state.tasks[index]? = some (.holding hold .processing)) :
    Safe (holdingStep order around state index hold .processing) := by
  obtain ⟨work, accessed, buffer⟩ := consistent.work_of_holding found
  obtain ⟨_, object, reached⟩ := consistent.packet_of_task hold.packet found
    (by simp [Task.packetRefs, Stage.packetRefs])
  have entry := (consistent.linked.sound _ (List.mem_of_getElem? found)).1
  have once := qaoedProcesswork_workdestroys order around.env around.dev around.store
    work.value.entry
  refine ⟨{ state with tasks := state.tasks.set index .done ++ [.holding hold .workdestroy] },
    ?_, ?_⟩
  · rw [holdingStep, accessed, Option.bind_eq_bind, Option.bind_some, buffer, reached,
      Option.bind_eq_bind, Option.bind_some]
    dsimp only
    rw [once, List.replicate_one]
  constructor
  · exact consistent.packets.congr fun packet =>
      total_split found (by simp [Task.packetRefs, Stage.packetRefs])
  · exact consistent.works.congr fun work =>
      total_split found (by simp [Task.workRefs, Stage.workRefs])
  · exact consistent.settled.congr fun call =>
      total_split found (by simp [Task.callRefs, Stage.packetRefs])
  · apply consistent.linked.advance found _ _
    · simpa [Task.Sound] using entry
    · intro packet none
      simpa [Task.packetRefs, Stage.packetRefs] using none
    · simp

theorem safe_workdestroy (consistent : Consistent state)
    (found : state.tasks[index]? = some (.holding hold .workdestroy)) :
    Safe (holdingStep order around state index hold .workdestroy) := by
  obtain ⟨work, accessed, buffer⟩ := consistent.work_of_holding found
  obtain ⟨held, _⟩ := consistent.packet_of_task hold.packet found
    (by simp [Task.packetRefs, Stage.packetRefs])
  have leads := consistent.rawbuf_of_holding accessed buffer held
  refine ⟨_, by rw [holdingStep, accessed, Option.bind_eq_bind, Option.bind_some, leads], ?_⟩
  exact consistent.next found (.pktdestroy hold.packet) rfl rfl (by simp) (by simp)

theorem safe_pktdestroy (consistent : Consistent state) {packet : Nat}
    (found : state.tasks[index]? = some (.holding hold (.pktdestroy packet))) :
    Safe (holdingStep order around state index hold (.pktdestroy packet)) := by
  have same := (consistent.linked.sound _ (List.mem_of_getElem? found)).2 packet rfl
  subst same
  obtain ⟨_, object, reached⟩ := consistent.packet_of_task hold.packet found
    (by simp [Task.packetRefs, Stage.packetRefs])
  refine ⟨_, by rw [holdingStep, reached]; rfl, ?_⟩
  generalize leaves : (if object.last then Stage.clearRawbuf else Stage.lowerWork) = stage
  have none : stage.packetRefs = 0 ∧ stage.workRefs = 1 ∧ ∀ packet, stage ≠ .pktdestroy packet := by
    rw [← leaves]
    split <;> simp [Stage.packetRefs, Stage.workRefs]
  obtain ⟨noPacket, oneWork, other⟩ := none
  have fewer (packet : Nat) :
      total (Task.packetRefs packet) (state.tasks.set index (.holding hold stage)) +
        (if packet = hold.packet then 1 else 0) = state.packetHolders packet := by
    apply total_set_fewer found
    simp only [Task.packetRefs, noPacket]
    split <;> rfl
  obtain ⟨packets, last⟩ := consistent.packets.lower reached fewer
  constructor
  · exact packets
  · apply consistent.works.congr
    intro work
    apply total_set_same found
    simp only [Task.workRefs, oneWork]
    rfl
  · apply consistent.settled.lower (Consistent.callHolders_pos found (by simp [Task.callRefs, Stage.packetRefs]))
    intro call
    apply total_set_fewer found
    simp only [Task.callRefs, noPacket]
    split <;> rfl
  · rw [List.length_set]
    apply consistent.linked.next found stage (fun packet is => absurd is (other packet))
      (fun _ => noPacket)
    intro clearing
    apply last.mp
    rw [clearing] at leaves
    by_contra more
    rw [if_neg more] at leaves
    cases leaves

theorem safe_clearRawbuf (consistent : Consistent state)
    (found : state.tasks[index]? = some (.holding hold .clearRawbuf)) :
    Safe (holdingStep order around state index hold .clearRawbuf) := by
  obtain ⟨work, accessed, buffer⟩ := consistent.work_of_holding found
  have last := consistent.linked.cleared hold (List.mem_of_getElem? found)
  refine ⟨_, by rw [holdingStep, accessed]; rfl, ?_⟩
  constructor
  · exact consistent.packets.congr fun packet => total_set_same found rfl
  · exact consistent.works.modify (getElem?_of_access accessed) _ fun work =>
      total_set_same found rfl
  · exact consistent.settled.congr fun call => total_set_same found rfl
  · rw [← buffer] at last
    have cleared := consistent.linked.clear (entries_of_access accessed) last
    have linked := cleared.next found .lowerWork (by simp) (by simp [Stage.packetRefs]) (by simp)
    rwa [State.entries, ← map_value_modify _ _ work] at linked

theorem safe_lowerWork (consistent : Consistent state)
    (found : state.tasks[index]? = some (.holding hold .lowerWork)) :
    Safe (holdingStep order around state index hold .lowerWork) := by
  obtain ⟨work, accessed, buffer⟩ := consistent.work_of_holding found
  refine ⟨_, by rw [holdingStep, accessed]; rfl, ?_⟩
  constructor
  · apply consistent.packets.congr
    intro packet
    apply total_set_same found
    simp [Task.packetRefs, Stage.packetRefs]
  · refine (consistent.works.lower accessed ?_).1
    intro work
    apply total_set_fewer found
    simp only [Task.workRefs, Stage.workRefs]
    split <;> rfl
  · apply consistent.settled.congr
    intro call
    apply total_set_same found
    simp [Task.callRefs, Stage.packetRefs]
  · have linked := consistent.linked.finish found
    rwa [State.entries, ← map_value_set accessed work.lower_value] at linked

theorem safe_holding (consistent : Consistent state) {stage : Stage}
    (found : state.tasks[index]? = some (.holding hold stage)) :
    Safe (holdingStep order around state index hold stage) := by
  cases stage with
  | raiseWork left =>
      cases left with
      | zero => exact safe_raiseWork_zero order around consistent found
      | succ left => exact safe_raiseWork order around consistent found
  | raisePacket left => exact safe_raisePacket order around consistent found
  | insert left => exact safe_insert order around consistent found
  | queued => exact safe_queued order around consistent found
  | processing => exact safe_processing order around consistent found
  | workdestroy => exact safe_workdestroy order around consistent found
  | pktdestroy packet => exact safe_pktdestroy order around consistent found
  | clearRawbuf => exact safe_clearRawbuf order around consistent found
  | lowerWork => exact safe_lowerWork order around consistent found

end Holding

/-! ## Steps of the other tasks -/

section Tasks

variable {state : State} {index call packet : Nat} {frame : Workentry} (order : ByteOrder)
  (around : Surroundings Iface)

theorem safe_listener (consistent : Consistent state)
    (found : state.tasks[index]? = some (.listener packet)) :
    Safe (taskStep order around state index (.listener packet)) := by
  obtain ⟨_, object, reached⟩ := consistent.packet_of_task packet found (by simp [Task.packetRefs])
  refine ⟨_, by rw [taskStep, reached]; rfl, ?_⟩
  constructor
  · refine (consistent.packets.lower reached ?_).1
    intro packet'
    apply total_set_fewer found
    exact Nat.zero_add _
  · exact consistent.works.congr fun work => total_set_same found rfl
  · exact consistent.settled.congr fun call => total_set_same found rfl
  · rw [List.length_set]
    exact consistent.linked.finish found

/-- A frame that is not for a device here is dropped. -/
theorem consistent_drop (consistent : Consistent state)
    (found : state.tasks[index]? = some (.entered call packet frame)) :
    Consistent { state with tasks := state.tasks.set index (.dropping call packet) } where
  packets := consistent.packets.congr fun _ => total_set_same found rfl
  works := consistent.works.congr fun _ => total_set_same found rfl
  settled := consistent.settled.congr fun _ => total_set_same found rfl
  linked := consistent.linked.replace found trivial (fun _ none => none) (by simp)

/-- A frame that is accepted gets a work entry, held by the call. -/
theorem consistent_accept (consistent : Consistent state)
    (found : state.tasks[index]? = some (.entered call packet frame)) (left : Nat) :
    Consistent { state with
      works := state.works ++ [⟨⟨frame, packet, some packet⟩, (1 : Nat), 0⟩]
      tasks := state.tasks.set index
        (.holding ⟨call, packet, state.works.length⟩ (.raiseWork left)) } := by
  obtain ⟨held, _⟩ := consistent.packet_of_task packet found (by simp [Task.packetRefs])
  have inside := consistent.packets.bounded packet held
  constructor
  · exact consistent.packets.congr fun _ => total_set_same found rfl
  · apply consistent.works.alloc _ Nat.one_pos
    intro work
    apply total_set_more found
    exact (Nat.zero_add _).symm
  · exact consistent.settled.congr fun _ => total_set_same found rfl
  · have grown := consistent.linked.alloc inside frame
    rw [State.entries, List.map_append]
    refine grown.replace found ?_ ?_ ?_
    · have last : (state.entries ++ [⟨frame, packet, some packet⟩])[state.works.length]? =
          some ⟨frame, packet, some packet⟩ := by simp [State.entries]
      exact ⟨⟨_, last, rfl⟩, by simp⟩
    · exact fun _ none => none
    · simp

theorem safe_entered (consistent : Consistent state)
    (found : state.tasks[index]? = some (.entered call packet frame)) :
    Safe (taskStep order around state index (.entered call packet frame)) := by
  obtain ⟨_, object, reached⟩ := consistent.packet_of_task packet found (by simp [Task.packetRefs])
  rw [taskStep, reached, Option.bind_eq_bind, Option.bind_some]
  cases arrival order frame.aoepkt frame.packetLen with
  | request shelf slot => exact ⟨_, rfl, consistent_accept consistent found _⟩
  | short => exact ⟨_, rfl, consistent_drop consistent found⟩
  | wrongType => exact ⟨_, rfl, consistent_drop consistent found⟩
  | response => exact ⟨_, rfl, consistent_drop consistent found⟩

theorem safe_dropping (consistent : Consistent state)
    (found : state.tasks[index]? = some (.dropping call packet)) :
    Safe (taskStep order around state index (.dropping call packet)) := by
  obtain ⟨_, object, reached⟩ := consistent.packet_of_task packet found (by simp [Task.packetRefs])
  refine ⟨_, by rw [taskStep, reached]; rfl, ?_⟩
  constructor
  · refine (consistent.packets.lower reached ?_).1
    intro packet'
    apply total_set_fewer found
    exact Nat.zero_add _
  · exact consistent.works.congr fun work => total_set_same found rfl
  · apply consistent.settled.lower (Consistent.callHolders_pos found (by simp [Task.callRefs]))
    intro call'
    apply total_set_fewer found
    exact Nat.zero_add _
  · rw [List.length_set]
    exact consistent.linked.finish found

theorem safe_taskStep (consistent : Consistent state) {task : Task}
    (found : state.tasks[index]? = some task) :
    Safe (taskStep order around state index task) := by
  cases task with
  | listener packet => exact safe_listener order around consistent found
  | entered call packet frame => exact safe_entered order around consistent found
  | dropping call packet => exact safe_dropping order around consistent found
  | holding hold stage => exact safe_holding order around consistent found
  | done => exact ⟨state, rfl, consistent⟩

end Tasks

/-! ## Steps of the system -/

section System

variable {state : State}

theorem consistent_receive (consistent : Consistent state) (more : Nat) :
    Consistent { state with
      packets := state.packets ++ [⟨(), (more + 1 : Nat), 0⟩]
      tasks := state.tasks ++ List.replicate (more + 1) (.listener state.packets.length) } := by
  constructor
  · apply consistent.packets.alloc () (Nat.succ_pos more)
    intro packet
    simp only [State.packetHolders, total_append, total_replicate, Task.packetRefs]
    split <;> simp
  · apply consistent.works.congr
    intro work
    simp [State.workHolders, total_replicate, Task.workRefs]
  · apply consistent.settled.congr
    intro call
    simp [State.callHolders, total_replicate, Task.callRefs]
  · rw [List.length_append]
    exact consistent.linked.receive (more + 1)

theorem consistent_hand (consistent : Consistent state) {index packet : Nat}
    (found : state.tasks[index]? = some (.listener packet)) (frame : Workentry) :
    Consistent { state with
      tasks := state.tasks.set index (.entered state.ledger.length packet frame)
      ledger := state.ledger ++ [0] } := by
  constructor
  · exact consistent.packets.congr fun _ => total_set_same found rfl
  · exact consistent.works.congr fun _ => total_set_same found rfl
  · apply consistent.settled.enter
    intro call
    apply total_set_more found
    exact (Nat.zero_add _).symm
  · exact consistent.linked.replace found trivial (fun _ none => none) (by simp)

theorem consistent_share (consistent : Consistent state) {index packet : Nat}
    (found : state.tasks[index]? = some (.listener packet)) (frame : Workentry)
    {object : Counted Unit} (reached : access state.packets packet = some object) :
    Consistent { state with
      packets := state.packets.set packet object.raise
      tasks := state.tasks ++ [.entered state.ledger.length packet frame]
      ledger := state.ledger ++ [0] } := by
  obtain ⟨held, _⟩ := consistent.packet_of_task packet found (by simp [Task.packetRefs])
  constructor
  · apply consistent.packets.raise held reached
    intro packet'
    simp [State.packetHolders, Task.packetRefs]
  · apply consistent.works.congr
    intro work
    simp [State.workHolders, Task.workRefs]
  · apply consistent.settled.enter
    intro call
    simp [State.callHolders, Task.callRefs]
  · rw [List.length_set]
    exact consistent.linked.join found trivial (fun _ none => none) (by simp)

/-- Every step from a consistent state comes about and leads to one. -/
theorem safe_step (order : ByteOrder) (consistent : Consistent state) (action : Action Iface) :
    Safe (step order state action) := by
  cases action with
  | receive more => exact ⟨_, rfl, consistent_receive consistent more⟩
  | hand index frame =>
      rw [step]
      split
      · next packet found => exact ⟨_, rfl, consistent_hand consistent found frame⟩
      · exact ⟨state, rfl, consistent⟩
  | share index frame =>
      rw [step]
      split
      · next packet found =>
          obtain ⟨_, object, reached⟩ := consistent.packet_of_task packet found
            (by simp [Task.packetRefs])
          rw [reached]
          exact ⟨_, rfl, consistent_share consistent found frame reached⟩
      · exact ⟨state, rfl, consistent⟩
  | run index around =>
      rw [step]
      split
      · next task found => exact safe_taskStep order around consistent found
      · exact ⟨state, rfl, consistent⟩

/-- No run gets stuck, and all states reached are consistent. -/
theorem safe_runSteps (order : ByteOrder) (consistent : Consistent state)
    (actions : List (Action Iface)) : Safe (runSteps (step order) state actions) := by
  induction actions generalizing state with
  | nil => exact ⟨state, rfl, consistent⟩
  | cons action rest ih =>
      obtain ⟨next, taken, nextConsistent⟩ := safe_step order consistent action
      rw [runSteps, taken]
      exact ih nextConsistent

end System

/-! ## Exactness -/

/-- However the listeners, the calls of `processpacket` and the workers are
interleaved, no step touches freed memory, both counters are exact at any time, and
a call whose holders are all done has lowered the counter of its packet by one. -/
theorem refcounts_exact (order : ByteOrder) (actions : List (Action Iface)) :
    ∃ state, runSteps (step order) State.initial actions = some state ∧
      (∀ packet (object : Counted Unit), state.packets[packet]? = some object →
        object.Tallies (state.packetHolders packet)) ∧
      (∀ work (object : Counted Work), state.works[work]? = some object →
        object.Tallies (state.workHolders work)) ∧
      (∀ call (amount : Int), state.ledger[call]? = some amount →
        state.callHolders call = 0 → amount = -1) := by
  obtain ⟨state, reached, consistent⟩ := safe_runSteps order consistent_initial actions
  refine ⟨state, reached, consistent.packets.tallies, consistent.works.tallies, ?_⟩
  intro call amount found done
  have net := consistent.settled.net call amount found
  rw [net, done]
  rfl

/-- A broadcast frame with an unknown command, and two devices to get it. -/
def broadcastFrame : Workentry where
  aoepkt := fun index =>
    if index = 12 then 0x88 else if index = 13 then 0xa2
    else if index = 16 ∨ index = 17 ∨ index = 18 then 0xff else if index = 19 then 9 else 0
  packetLen := 36
  ifentry := ⟨[], none, 1500, 1518, none⟩

def twoDevices : Surroundings Unit :=
  ⟨[oneSector.dev, oneSector.dev], ⟨true, none, fun _ => 0, fun _ => 0⟩, oneSector.dev, []⟩

/-- When the call and both workers are done, the packet and the work entry are freed. -/
example :
    (runSteps (step .little) State.initial
      ([.receive 0, .hand 0 broadcastFrame] ++ List.replicate 11 (.run 0 twoDevices) ++
        [.run 1 twoDevices, .run 1 twoDevices, .run 2 twoDevices, .run 2 twoDevices] ++
        List.replicate 3 (.run 3 twoDevices) ++ List.replicate 4 (.run 4 twoDevices))).map
      (fun state : State => (state.packets, state.works.map fun work => (work.refcount, work.frees),
        state.ledger)) =
      some ([⟨(), 0, 1⟩], [(0, 1)], [-1]) := by
  rfl

end Qaoed.Network
