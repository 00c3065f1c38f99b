import Qaoed.Library.RefCount
import Qaoed.Network.Serial

/-!
# The server catches up

When no more frames arrive, every thread of the server comes to the end of its work: each
step brings the server closer to rest, and as long as it is not at rest some thread can take
a step. No listener waits for a worker forever, and no worker for a listener.
-/

namespace Qaoed.Network

open Qaoed.Library
open Qaoed.Frame
open Qaoed.Device

variable {Iface : Type}

/-! ## What is left to do -/

def Pc.left : Pc → Nat
  | .top => 3
  | .waiting => 2
  | .locked => 1
  | .handling => 0

/-- The steps that a worker takes at most before it rests, if nothing is inserted. -/
def workerLeft (worker : WorkerState) : Nat :=
  4 * (worker.inserted.length - worker.processed.length) + Pc.left worker.pc

/-- For each device to come a listener takes one step, and the worker of the device four. -/
def listenerLeft : Option (Workref × List Nat) → Nat
  | none => 0
  | some (_, devices) => 5 * devices.length + 1

/-- The steps that all threads take at most before they rest, if no frame arrives. -/
def Service.left (state : Service Iface) : Nat :=
  total listenerLeft state.listeners + total workerLeft state.workers

def ServiceAction.arrives : ServiceAction → Bool
  | .arrive _ _ => true
  | _ => false

section Worker

variable {worker next : WorkerState} {entries : List (Nat × Workref)}

theorem workerLeft_insert {work : Workref} {qe : Nat} (inv : WorkerInv worker entries)
    (taken : workerStep worker (.insert work (some qe)) = some next) :
    workerLeft next = workerLeft worker + 4 := by
  obtain ⟨inserted, processed⟩ := workerStep_insert taken
  have same : next.pc = worker.pc := by
    unfold workerStep at taken
    dsimp only at taken
    split at taken
    · cases taken
    · split at taken
      · cases taken
      · cases taken
        rfl
  have lengths := congrArg List.length inv.accounted
  simp only [List.length_map, List.length_append] at lengths
  rw [workerLeft, workerLeft, inserted, processed, same, List.length_append, List.length_singleton]
  omega

theorem workerLeft_turn {turn : Turn} (taken : workerStep worker turn.action = some next) :
    workerLeft next < workerLeft worker := by
  obtain ⟨inserted, processed⟩ := workerStep_turn taken
  have closer : Pc.left next.pc < Pc.left worker.pc := by
    cases turn with
    | lock =>
        unfold Turn.action workerStep at taken
        dsimp only at taken
        split at taken
        · next top =>
            cases taken
            rw [top]
            dsimp only
            split <;> decide
        · cases taken
    | wake =>
        unfold Turn.action workerStep at taken
        dsimp only at taken
        split at taken
        · next waiting =>
            cases taken
            rw [waiting]
            exact (by decide : Pc.left .locked < Pc.left .waiting)
        · cases taken
    | unlink =>
        unfold Turn.action workerStep at taken
        dsimp only at taken
        split at taken
        · next locked =>
            obtain ⟨unlinked, _, rfl⟩ := Option.map_eq_some_iff.mp taken
            rw [locked]
            exact (by decide : Pc.left .handling < Pc.left .locked)
        · cases taken
  rw [workerLeft, workerLeft, inserted, processed]
  omega

theorem workerLeft_process (inv : WorkerInv worker entries)
    (taken : workerStep worker .process = some next) : workerLeft next < workerLeft worker := by
  obtain ⟨handling, inserted, processed⟩ := workerStep_process taken
  have top : next.pc = .top := by
    unfold workerStep at taken
    dsimp only at taken
    rw [if_pos handling] at taken
    cases taken
    rfl
  have lengths := congrArg List.length inv.accounted
  simp only [List.length_map, List.length_append, inHand, if_pos handling,
    List.length_singleton] at lengths
  rw [workerLeft, workerLeft, inserted, processed, top, handling, List.length_append,
    List.length_singleton]
  unfold Pc.left
  dsimp only
  omega

end Worker

/-- Every step but the arrival of a frame brings the server closer to rest. -/
theorem left_step {order : ByteOrder} {start : Site Iface} {state next : Service Iface}
    {action : ServiceAction} (inv : ServiceInv order start state)
    (quiet : action.arrives = false) (taken : serviceStep order state action = some next) :
    next.left < state.left := by
  cases moves_of_step taken with
  | dropped listener entry _ => cases quiet
  | arrive listener entry idle => cases quiet
  | @insert listener qe work device rest worker next holds found stepped =>
      obtain ⟨⟨_, sound⟩, _⟩ := inv.worker device worker found
      have workers := total_set workerLeft found next
      have listeners := total_set listenerLeft holds (some (work, rest))
      have more := workerLeft_insert sound stepped
      simp only [listenerLeft, List.length_cons] at listeners
      unfold Service.left
      dsimp only
      omega
  | @finish listener work holds =>
      have listeners := total_set listenerLeft holds none
      simp only [listenerLeft, List.length_nil] at listeners
      unfold Service.left
      dsimp only
      omega
  | @turn device turn worker next found stepped =>
      have workers := total_set workerLeft found next
      have fewer := workerLeft_turn stepped
      unfold Service.left
      dsimp only
      omega
  | @process device env work made worker next found stepped holds entry =>
      obtain ⟨⟨_, sound⟩, _⟩ := inv.worker device worker found
      have workers := total_set workerLeft found next
      have fewer := workerLeft_process sound stepped
      unfold Service.left
      dsimp only
      omega

/-! ## Memory for queue entries -/

/-- Some memory is not in use. -/
def HasRoom (queue : Queue) : Prop := ∃ bound, ∀ address, bound ≤ address → queue.heap address = none

theorem setNext_none {heap : Nat → Option Queueentry} {address : Nat} (last : Nat)
    (next : Option Nat) (unused : heap address = none) : setNext heap last next address = none := by
  unfold setNext
  cases found : heap last with
  | none => exact unused
  | some node =>
      have apart : address ≠ last := by
        rintro rfl
        rw [unused] at found
        cases found
      exact (Function.update_of_ne apart _ _).trans unused

theorem hasRoom_insertwork {queue : Queue} (room : HasRoom queue) (work : Workref) (qe : Nat) :
    HasRoom (insertwork queue work (some qe)) := by
  obtain ⟨bound, free⟩ := room
  refine ⟨max bound (qe + 1), ?_⟩
  intro address above
  have fresh : Function.update queue.heap qe (some ⟨work, none⟩) address = none := by
    rw [Function.update_of_ne (by omega)]
    exact free address (by omega)
  unfold insertwork
  dsimp only
  split
  · exact fresh
  · exact fresh
  · exact setNext_none _ _ fresh

theorem hasRoom_unlinkwork {queue queue' : Queue} {work work' : Option Workref}
    (room : HasRoom queue) (unlinked : unlinkwork queue work = some (work', queue')) :
    HasRoom queue' := by
  obtain ⟨bound, free⟩ := room
  unfold unlinkwork at unlinked
  split at unlinked
  · cases unlinked
    exact ⟨bound, free⟩
  · next q _ =>
      split at unlinked
      · cases unlinked
      · cases unlinked
        refine ⟨bound, ?_⟩
        intro address above
        dsimp only
        by_cases here : address = q
        · rw [here, Function.update_self]
        · rw [Function.update_of_ne here]
          exact free address above

theorem hasRoom_step {worker next : WorkerState} {action : WorkerAction}
    (room : HasRoom worker.queue) (taken : workerStep worker action = some next) :
    HasRoom next.queue := by
  unfold workerStep at taken
  cases action with
  | insert work qe =>
      dsimp only at taken
      split at taken
      · cases taken
      · split at taken
        · cases taken
          exact room
        · split at taken
          · cases taken
          · cases taken
            exact hasRoom_insertwork room work _
  | lock =>
      dsimp only at taken
      split at taken
      · cases taken
        exact room
      · cases taken
  | wake =>
      dsimp only at taken
      split at taken
      · cases taken
        exact room
      · cases taken
  | unlink =>
      dsimp only at taken
      split at taken
      · obtain ⟨unlinked, found, rfl⟩ := Option.map_eq_some_iff.mp taken
        exact hasRoom_unlinkwork room found
      · cases taken
  | process =>
      dsimp only at taken
      split at taken
      · cases taken
        exact room
      · cases taken

/-- All queues have room. -/
def AllRoom (state : Service Iface) : Prop := ∀ worker ∈ state.workers, HasRoom worker.queue

theorem allRoom_set {state : Service Iface} (room : AllRoom state) {device : Nat}
    {worker next : WorkerState} {action : WorkerAction}
    (found : state.workers[device]? = some worker)
    (stepped : workerStep worker action = some next) :
    ∀ other ∈ state.workers.set device next, HasRoom other.queue := by
  intro other member
  rcases List.mem_or_eq_of_mem_set member with old | rfl
  · exact room other old
  · exact hasRoom_step (room worker (List.mem_of_getElem? found)) stepped

theorem allRoom_step {order : ByteOrder} {state next : Service Iface} {action : ServiceAction}
    (room : AllRoom state) (taken : serviceStep order state action = some next) :
    AllRoom next := by
  cases moves_of_step taken with
  | dropped listener entry _ => exact room
  | arrive listener entry idle => exact room
  | insert listener qe holds found stepped => exact allRoom_set room found stepped
  | finish listener holds => exact room
  | turn device turn found stepped => exact allRoom_set room found stepped
  | process device env found stepped holds entry => exact allRoom_set room found stepped

/-! ## Threads that can go on -/

/-- Some thread can take a step, and no return of `pthread_cond_wait` is spurious. -/
def CanGoOn (order : ByteOrder) (state : Service Iface) (env : Env) : Prop :=
  ∃ action next, action.arrives = false ∧ WakesForWork state action ∧
    (∀ device env', action = .process device env' → env' = env) ∧
    serviceStep order state action = some next

section GoOn

variable {order : ByteOrder} {start : Site Iface} {state : Service Iface}

/-- A worker that holds a request or finds one can go on. -/
theorem worker_canGoOn (inv : ServiceInv order start state) (env : Env) {device : Nat}
    {worker : WorkerState} (found : state.workers[device]? = some worker)
    (busy : worker.pc = .locked ∨ worker.queue.q ≠ none ∨ inHand worker ≠ []) :
    CanGoOn order state env := by
  obtain ⟨⟨entries, sound⟩, _, known⟩ := inv.worker device worker found
  have turns (turn : Turn) (next : WorkerState) (wakes : WakesForWork state (.turn device turn))
      (stepped : workerStep worker turn.action = some next) : CanGoOn order state env := by
    refine ⟨.turn device turn, { state with workers := state.workers.set device next }, rfl, wakes,
      ?_, ?_⟩
    · intro _ _ other
      cases other
    · exact Option.bind_eq_some_iff.mpr ⟨worker, found,
        Option.bind_eq_some_iff.mpr ⟨next, stepped, rfl⟩⟩
  cases pc : worker.pc with
  | top =>
      refine turns .lock { worker with
        pc := if worker.queue.q = none then .waiting else .locked } trivial ?_
      rw [Turn.action, workerStep, if_pos pc]
  | waiting =>
      have queued : worker.queue.q ≠ none := by
        rcases busy with locked | queued | holds
        · rw [pc] at locked
          cases locked
        · exact queued
        · rw [inHand, if_neg (by rw [pc]; decide)] at holds
          exact absurd rfl holds
      refine turns .wake { worker with pc := .locked } ?_ ?_
      · intro other there
        cases found.symm.trans there
        exact queued
      · rw [Turn.action, workerStep, if_pos pc]
  | locked =>
      have some := sound.found pc
      cases entries with
      | nil => exact absurd rfl some
      | cons entry rest =>
          obtain ⟨queue, unlinked, _⟩ := describes_unlinkwork sound.describes worker.work
          refine turns .unlink { worker with
            pc := .handling, work := Option.some entry.2, queue := queue } trivial ?_
          rw [Turn.action, workerStep, if_pos pc, unlinked]
          rfl
  | handling =>
      have held : worker.work ∈ worker.inserted.map Option.some := by
        rw [sound.accounted, inHand, if_pos pc]
        exact List.mem_append_left _ (List.mem_append_right _ (List.mem_singleton_self _))
      obtain ⟨work, member, holds⟩ := List.mem_map.mp held
      have entry := List.getElem?_eq_getElem (known work member)
      have stepped : workerStep worker .process = Option.some { worker with
          pc := .top, processed := worker.processed ++ [worker.work] } := by
        rw [workerStep, if_pos pc]
      have taken : ∃ next, serviceStep order state (.process device env) = Option.some next :=
        ⟨_, Option.bind_eq_some_iff.mpr ⟨worker, found,
          Option.bind_eq_some_iff.mpr ⟨_, stepped, Option.bind_eq_some_iff.mpr ⟨work, holds.symm,
            Option.bind_eq_some_iff.mpr ⟨_, entry, rfl⟩⟩⟩⟩⟩
      obtain ⟨next, taken⟩ := taken
      refine ⟨.process device env, next, rfl, trivial, ?_, taken⟩
      intro _ _ same
      cases same
      rfl

/-- A listener with a work entry can go on, or the worker it waits for. -/
theorem listener_canGoOn (inv : ServiceInv order start state) (room : AllRoom state) (env : Env)
    {listener : Nat} {work : Workref} {devices : List Nat}
    (holds : state.listeners[listener]? = some (some (work, devices))) :
    CanGoOn order state env := by
  cases devices with
  | nil =>
      have taken : ∃ next, serviceStep order state (.finish listener) = some next := by
        rw [serviceStep, holds]
        exact ⟨_, rfl⟩
      obtain ⟨next, taken⟩ := taken
      refine ⟨.finish listener, next, rfl, trivial, ?_, taken⟩
      intro _ _ other
      cases other
  | cons device rest =>
      have inside : device < state.workers.length := by
        rw [inv.workers]
        exact (inv.held listener work _ holds).1 device List.mem_cons_self
      have found := List.getElem?_eq_getElem inside
      by_cases locked : state.workers[device].pc = .locked
      · exact worker_canGoOn inv env found (Or.inl locked)
      · obtain ⟨bound, free⟩ := room _ (List.mem_of_getElem? found)
        have unused := free bound (Nat.le_refl _)
        have stepped : ∃ next, workerStep state.workers[device] (.insert work (some bound)) =
            some next := by
          rw [workerStep, if_neg locked, unused]
          exact ⟨_, rfl⟩
        obtain ⟨next, stepped⟩ := stepped
        have taken : ∃ next, serviceStep order state (.insert listener bound) = some next := by
          rw [serviceStep, holds]
          exact ⟨_, Option.bind_eq_some_iff.mpr ⟨_, found,
            Option.bind_eq_some_iff.mpr ⟨next, stepped, rfl⟩⟩⟩
        obtain ⟨next, taken⟩ := taken
        refine ⟨.insert listener bound, next, rfl, trivial, ?_, taken⟩
        intro _ _ other
        cases other

/-- A server that is not at rest can go on. -/
theorem canGoOn (inv : ServiceInv order start state) (room : AllRoom state) (env : Env)
    (busy : ¬ state.Quiet) : CanGoOn order state env := by
  by_contra stuck
  refine busy ⟨?_, ?_⟩
  · intro listener member
    obtain ⟨index, found⟩ := List.mem_iff_getElem?.mp member
    cases listener with
    | none => rfl
    | some held => exact absurd (listener_canGoOn inv room env found) stuck
  · intro worker member
    obtain ⟨device, found⟩ := List.mem_iff_getElem?.mp member
    constructor
    · by_contra queued
      exact stuck (worker_canGoOn inv env found (Or.inr (Or.inl queued)))
    · by_contra holds
      exact stuck (worker_canGoOn inv env found (Or.inr (Or.inr holds)))

end GoOn

/-! ## Runs without arrivals -/

section CatchUp

variable {order : ByteOrder} {start : Site Iface} {state final : Service Iface}

/-- A run without arrivals has at most as many steps as are left to do. -/
theorem length_le_left (inv : ServiceInv order start state) (more : List ServiceAction)
    (quiet : ∀ action ∈ more, action.arrives = false)
    (wakes : EveryStep (serviceStep order) WakesForWork state more)
    (reached : runSteps (serviceStep order) state more = some final) :
    more.length + final.left ≤ state.left := by
  induction more generalizing state with
  | nil =>
      cases reached
      exact Nat.le_of_eq (Nat.zero_add _)
  | cons action rest ih =>
      obtain ⟨next, taken, reached⟩ := runSteps_cons reached
      obtain ⟨allowed, wakes⟩ := wakes
      have closer := left_step inv (quiet action List.mem_cons_self) taken
      have later := ih (serviceInv_step inv allowed taken)
        (fun other member => quiet other (List.mem_cons_of_mem _ member)) (wakes next taken) reached
      rw [List.length_cons]
      omega

theorem allRoom_reached {state final : Service Iface} {actions : List ServiceAction}
    (room : AllRoom state) (reached : runSteps (serviceStep order) state actions = some final) :
    AllRoom final :=
  runSteps_preserved AllRoom room (fun _ _ _ room taken => allRoom_step room taken) reached

theorem allRoom_start (start : Site Iface) (listeners : Nat) :
    AllRoom (serviceStart start listeners) := by
  intro worker member
  rw [List.eq_of_mem_replicate member]
  exact ⟨0, fun _ _ => rfl⟩

/-- Nothing is due from a run without arrivals. -/
theorem due_quiet {more : List ServiceAction}
    (quiet : ∀ action ∈ more, action.arrives = false) (order : ByteOrder) (start : Site Iface)
    (actions : List ServiceAction) (listener device : Nat) :
    due order start (actions ++ more) listener device = due order start actions listener device := by
  have nothing : received more listener = [] := by
    rw [received, List.filterMap_eq_nil_iff]
    intro action member
    have still := quiet action member
    cases action with
    | arrive _ _ => cases still
    | insert _ _ => rfl
    | finish _ => rfl
    | turn _ _ => rfl
    | process _ _ => rfl
  have append : received (actions ++ more) listener =
      received actions listener ++ received more listener := List.filterMap_append
  rw [due, append, nothing, List.append_nil, due]

end CatchUp

/-- From any state that the server gets to, a run in which no more frames arrive is over after
so many steps as are left to do, and it can go on, whatever the system answers, until the
server is at rest: then every frame that arrived before has been handled. No worker may be woken
with an empty queue, which would let a run go on for ever. -/
theorem service_catchesUp (order : ByteOrder) (start : Site Iface) (listeners : Nat)
    (actions : List ServiceAction) (state : Service Iface)
    (wakes : EveryStep (serviceStep order) WakesForWork (serviceStart start listeners) actions)
    (reached : runSteps (serviceStep order) (serviceStart start listeners) actions = some state)
    (more : List ServiceAction) (final : Service Iface)
    (noArrival : ∀ action ∈ more, action.arrives = false)
    (wakesMore : EveryStep (serviceStep order) WakesForWork state more)
    (continued : runSteps (serviceStep order) state more = some final) :
    more.length + final.left ≤ state.left ∧
      ((∀ env, CanGoOn order final env) ∨
        (final.Quiet ∧ ∀ listener device, device < start.devices.length →
          final.handledFrom listener device = due order start actions listener device)) := by
  have inv := service_reached order start listeners actions state wakes reached
  have room := allRoom_reached (allRoom_start start listeners) reached
  have whole : runSteps (serviceStep order) (serviceStart start listeners) (actions ++ more) =
      some final := by
    rw [runSteps_append, reached]
    exact continued
  have wakesWhole := everyStep_append wakes reached wakesMore
  have invFinal := service_reached order start listeners _ final wakesWhole whole
  refine ⟨length_le_left inv more noArrival wakesMore continued, ?_⟩
  by_cases quiet : final.Quiet
  · refine Or.inr ⟨quiet, ?_⟩
    intro listener device placed
    have serial := invFinal.serial fun listener device =>
      runSteps_works _ (sameSite_refl start) whole listener device
    rw [serial.complete quiet listener device placed]
    exact due_quiet noArrival order start actions listener device
  · exact Or.inl fun env => canGoOn invFinal (allRoom_reached room continued) env quiet

/-- The query has arrived; what comes after are steps of the threads alone. -/
theorem service_catchesUp_query :
    ∃ state final,
      runSteps (serviceStep .little) (serviceStart twoSlots 1) (queryRun.take 1) = some state ∧
      runSteps (serviceStep .little) state (queryRun.drop 1) = some final ∧
      (queryRun.drop 1).length + final.left ≤ state.left ∧
        ((∀ env, CanGoOn .little final env) ∨
          (final.Quiet ∧ ∀ listener device, device < twoSlots.devices.length →
            final.handledFrom listener device =
              due .little twoSlots (queryRun.take 1) listener device)) := by
  have runs : ((runSteps (serviceStep .little) (serviceStart twoSlots 1)
      (queryRun.take 1)).bind fun state =>
        runSteps (serviceStep .little) state (queryRun.drop 1)).isSome = true := rfl
  obtain ⟨final, both⟩ := Option.isSome_iff_exists.mp runs
  obtain ⟨state, reached, continued⟩ := Option.bind_eq_some_iff.mp both
  refine ⟨state, final, reached, continued, ?_⟩
  refine service_catchesUp .little twoSlots 1 (queryRun.take 1) state ?_ reached
    (queryRun.drop 1) final (by decide) ?_ continued
  · exact everyStep_of_always fun action member state =>
      queryRun_wakes state action (List.mem_of_mem_take member)
  · exact everyStep_of_always fun action member state =>
      queryRun_wakes state action (List.mem_of_mem_drop member)

end Qaoed.Network
