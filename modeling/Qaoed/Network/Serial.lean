import Mathlib.Data.List.Count
import Qaoed.Library.Transition
import Qaoed.Network.Service

/-!
# The order in which requests are served

Whatever the threads do, the devices and the files are as if requests had been handled one
after the other, and for each device and each interface in the order in which they arrived.
No frame is lost on the way, and none is handled twice.
-/

namespace Qaoed.Network

open Qaoed.Library
open Qaoed.Frame
open Qaoed.Device

variable {Iface : Type}

/-! ## What arrived where -/

/-- A request as the worker of a device has handled it. -/
def Handled.assigned (handled : Handled) : Assigned := ⟨handled.device, handled.request⟩

namespace Service

/-- The work entries that a listener has made for a device, in the order of their frames. -/
def arrivals (state : Service Iface) (listener device : Nat) : List Workref :=
  state.works.zipIdx.flatMap fun (made, work) =>
    if made.listener = listener then List.replicate (made.devices.count device) work else []

/-- The listener has made the work entry. -/
def madeBy (state : Service Iface) (listener : Nat) (work : Workref) : Bool :=
  (state.works[work]?).map Made.listener = some listener

/-- What a listener is still to insert in the queue of a device. -/
def pending (state : Service Iface) (listener device : Nat) : List Workref :=
  match state.listeners[listener]? with
  | some (some (work, devices)) => List.replicate (devices.count device) work
  | _ => []

/-- What the worker of a device has handled. -/
def handledBy (state : Service Iface) (device : Nat) : List Handled :=
  state.handled.filter fun handled => handled.device = device

/-- What it has handled of the frames of one listener. -/
def handledFrom (state : Service Iface) (listener device : Nat) : List Workentry :=
  ((state.handledBy device).filter fun handled => state.madeBy listener handled.work).map
    fun handled => handled.request.work

/-- All listeners and workers have done their work: no listener holds a work entry, all queues
are empty, and no worker has taken an entry. -/
structure Quiet (state : Service Iface) : Prop where
  listeners : ∀ listener ∈ state.listeners, listener = none
  workers : ∀ worker ∈ state.workers, worker.queue.q = none ∧ inHand worker = []

end Service

/-- The frames that a listener reads in the course of a run. -/
def received (actions : List ServiceAction) (listener : Nat) : List Workentry :=
  actions.filterMap fun
    | .arrive listener' entry => if listener' = listener then some entry else none
    | _ => none

/-- Those of them that a device is to handle, in their order. A frame counts twice that names
the device with the address of a broadcast. -/
def due (order : ByteOrder) (start : Site Iface) (actions : List ServiceAction)
    (listener device : Nat) : List Workentry :=
  (received actions listener).flatMap fun entry =>
    List.replicate ((queuedAt order start.devices entry).count device) entry

/-- What was sent for a request: at most one frame, which replies to the request in the name
of its device. -/
structure Answers (order : ByteOrder) (site : Site Iface) (assigned : Assigned)
    (sent : List Sent) : Prop where
  once : sent.length ≤ 1
  reply : ∃ device, site.devices[assigned.device]? = some device ∧
    ∀ frame ∈ sent, IsReply order device assigned.request.work frame.aoehdr

/-- The entries that a listener has made for a device, as often as it queues them. -/
def madeFor (works : List Made) (listener device : Nat) : List Workentry :=
  works.flatMap fun made =>
    if made.listener = listener then List.replicate (made.devices.count device) made.entry else []

/-- The state is that of requests handled one after the other, for each device and each
listener in the order of their arrival, and of all of them when the server is quiet. -/
structure Serial (order : ByteOrder) (start : Site Iface) (actions : List ServiceAction)
    (state : Service Iface) : Prop where
  site : state.site = (serve order).run start (state.handled.map Handled.assigned)
  sent : state.sent = (serve order).outputs start (state.handled.map Handled.assigned)
  answers : List.Forall₂ (fun handled sent => Answers order start handled.assigned sent)
    state.handled state.sent
  inOrder : ∀ listener device, device < start.devices.length →
    state.handledFrom listener device <+: due order start actions listener device
  complete : state.Quiet → ∀ listener device, device < start.devices.length →
    state.handledFrom listener device = due order start actions listener device

/-! ## Steps of the threads -/

section Worker

variable {worker next : WorkerState}

theorem workerStep_insert {work : Workref} {qe : Nat}
    (taken : workerStep worker (.insert work (some qe)) = some next) :
    next.inserted = worker.inserted ++ [work] ∧ next.processed = worker.processed := by
  unfold workerStep at taken
  dsimp only at taken
  split at taken
  · cases taken
  · split at taken
    · cases taken
    · cases taken
      exact ⟨rfl, rfl⟩

theorem workerStep_turn {turn : Turn} (taken : workerStep worker turn.action = some next) :
    next.inserted = worker.inserted ∧ next.processed = worker.processed := by
  cases turn with
  | lock =>
      unfold Turn.action workerStep at taken
      dsimp only at taken
      split at taken
      · cases taken
        exact ⟨rfl, rfl⟩
      · cases taken
  | wake =>
      unfold Turn.action workerStep at taken
      dsimp only at taken
      split at taken
      · cases taken
        exact ⟨rfl, rfl⟩
      · cases taken
  | unlink =>
      unfold Turn.action workerStep at taken
      dsimp only at taken
      split at taken
      · obtain ⟨unlinked, _, rfl⟩ := Option.map_eq_some_iff.mp taken
        exact ⟨rfl, rfl⟩
      · cases taken

theorem workerStep_process (taken : workerStep worker .process = some next) :
    worker.pc = .handling ∧ next.inserted = worker.inserted ∧
      next.processed = worker.processed ++ [worker.work] := by
  unfold workerStep at taken
  dsimp only at taken
  split at taken
  · next handling =>
      cases taken
      exact ⟨handling, rfl, rfl⟩
  · cases taken

end Worker

/-- What one step of one thread can do. -/
inductive Moves (order : ByteOrder) (state : Service Iface) :
    ServiceAction → Service Iface → Prop where
  | dropped (listener : Nat) (entry : Workentry)
      (dropped : ∀ shelf slot, arrival order entry.aoepkt entry.packetLen ≠ .request shelf slot) :
      Moves order state (.arrive listener entry) state
  | arrive (listener : Nat) (entry : Workentry) (idle : state.listeners[listener]? = some none) :
      Moves order state (.arrive listener entry)
        { state with
          works := state.works ++ [⟨listener, entry, queuedAt order state.site.devices entry⟩]
          listeners := state.listeners.set listener
            (some (state.works.length, queuedAt order state.site.devices entry)) }
  | insert (listener qe : Nat) {work : Workref} {device : Nat} {rest : List Nat}
      {worker next : WorkerState}
      (holds : state.listeners[listener]? = some (some (work, device :: rest)))
      (found : state.workers[device]? = some worker)
      (stepped : workerStep worker (.insert work (some qe)) = some next) :
      Moves order state (.insert listener qe)
        { state with
          workers := state.workers.set device next
          listeners := state.listeners.set listener (some (work, rest)) }
  | finish (listener : Nat) {work : Workref}
      (holds : state.listeners[listener]? = some (some (work, []))) :
      Moves order state (.finish listener)
        { state with listeners := state.listeners.set listener none }
  | turn (device : Nat) (turn : Turn) {worker next : WorkerState}
      (found : state.workers[device]? = some worker)
      (stepped : workerStep worker turn.action = some next) :
      Moves order state (.turn device turn)
        { state with workers := state.workers.set device next }
  | process (device : Nat) (env : Env) {work : Workref} {made : Made} {worker next : WorkerState}
      (found : state.workers[device]? = some worker)
      (stepped : workerStep worker .process = some next)
      (holds : worker.work = some work) (entry : state.works[work]? = some made) :
      Moves order state (.process device env)
        { state with
          site := (serve order).next state.site ⟨device, ⟨made.entry, env⟩⟩
          workers := state.workers.set device next
          handled := state.handled ++ [⟨device, work, ⟨made.entry, env⟩⟩]
          sent := state.sent ++ [(serve order).out state.site ⟨device, ⟨made.entry, env⟩⟩] }

theorem moves_of_step {order : ByteOrder} {state next : Service Iface} {action : ServiceAction}
    (taken : serviceStep order state action = some next) : Moves order state action next := by
  cases action with
  | arrive listener entry =>
      unfold serviceStep at taken
      dsimp only at taken
      split at taken
      · next idle =>
          split at taken
          · cases taken
            exact .arrive listener entry idle
          · next dropped =>
              cases taken
              exact .dropped listener entry dropped
      · cases taken
  | insert listener qe =>
      unfold serviceStep at taken
      dsimp only at taken
      split at taken
      · next holds =>
          obtain ⟨worker, found, taken⟩ := Option.bind_eq_some_iff.mp taken
          obtain ⟨worker', stepped, taken⟩ := Option.bind_eq_some_iff.mp taken
          cases taken
          exact .insert listener qe holds found stepped
      · cases taken
  | finish listener =>
      unfold serviceStep at taken
      dsimp only at taken
      split at taken
      · next holds =>
          cases taken
          exact .finish listener holds
      · cases taken
  | turn device turn =>
      obtain ⟨worker, found, taken⟩ := Option.bind_eq_some_iff.mp taken
      obtain ⟨worker', stepped, taken⟩ := Option.bind_eq_some_iff.mp taken
      cases taken
      exact .turn device turn found stepped
  | process device env =>
      obtain ⟨worker, found, taken⟩ := Option.bind_eq_some_iff.mp taken
      obtain ⟨worker', stepped, taken⟩ := Option.bind_eq_some_iff.mp taken
      obtain ⟨work, holds, taken⟩ := Option.bind_eq_some_iff.mp taken
      obtain ⟨made, entry, taken⟩ := Option.bind_eq_some_iff.mp taken
      cases taken
      exact .process device env found stepped holds entry

/-- A worker that is woken as the guard says finds work. -/
theorem wakeFindsWork {state : Service Iface} {device : Nat} {turn : Turn} {worker : WorkerState}
    (wakes : WakesForWork state (.turn device turn)) (found : state.workers[device]? = some worker) :
    WakeFindsWork worker turn.action := by
  intro wake
  cases turn with
  | lock => cases wake
  | wake => exact wakes worker found
  | unlink => cases wake

/-! ## The invariant -/

/-- The histories of the workers add up to what arrived, but for what listeners hold. -/
structure ServiceInv (order : ByteOrder) (start : Site Iface) (state : Service Iface) : Prop where
  site : state.site = (serve order).run start (state.handled.map Handled.assigned)
  sent : state.sent = (serve order).outputs start (state.handled.map Handled.assigned)
  request : ∀ handled ∈ state.handled, handled.device < start.devices.length ∧
    ∃ made, state.works[handled.work]? = some made ∧ made.entry = handled.request.work
  devices : state.site.devices.length = start.devices.length
  workers : state.workers.length = start.devices.length
  worker : ∀ device worker, state.workers[device]? = some worker →
    (∃ entries, WorkerInv worker entries) ∧
      worker.processed = (state.handledBy device).map (fun handled => some handled.work) ∧
      ∀ work ∈ worker.inserted, work < state.works.length
  held : ∀ listener work devices, state.listeners[listener]? = some (some (work, devices)) →
    (∀ device ∈ devices, device < start.devices.length) ∧
      ∃ made : Made, state.works[work]? = some made ∧ made.listener = listener
  account : ∀ listener device worker, state.workers[device]? = some worker →
    worker.inserted.filter (state.madeBy listener) ++ state.pending listener device =
      state.arrivals listener device

section Lists

variable {α : Type*} {list : List α} {index other : Nat} {new found : α}

theorem getElem?_set_cases (there : (list.set index new)[other]? = some found) :
    (index = other ∧ found = new) ∨ (index ≠ other ∧ list[other]? = some found) := by
  by_cases here : index = other
  · subst here
    have inside : index < list.length := by
      by_contra outside
      rw [List.getElem?_eq_none (by rw [List.length_set]; omega)] at there
      cases there
    rw [List.getElem?_set_self inside] at there
    exact Or.inl ⟨rfl, (Option.some.inj there).symm⟩
  · rw [List.getElem?_set_ne here] at there
    exact Or.inr ⟨here, there⟩

theorem getElem?_append_found (there : list[other]? = some found) (more : List α) :
    (list ++ more)[other]? = some found :=
  (List.getElem?_append_left (List.getElem?_eq_some_iff.mp there).1).trans there

end Lists

section Histories

variable {state : Service Iface} {listener device : Nat}

/-- A new work entry is the last arrival for its devices at its listener. -/
theorem arrivals_snoc (state : Service Iface) (made : Made) (listener device : Nat) :
    Service.arrivals { state with works := state.works ++ [made] } listener device =
      state.arrivals listener device ++
        if made.listener = listener then
          List.replicate (made.devices.count device) state.works.length
        else [] := by
  unfold Service.arrivals
  dsimp only
  rw [List.zipIdx_append, List.flatMap_append]
  congr 1
  simp

/-- Who has made an entry does not change. -/
theorem madeBy_append (state : Service Iface) (made : Made) {work : Workref}
    (known : work < state.works.length) (listener : Nat) :
    Service.madeBy { state with works := state.works ++ [made] } listener work =
      state.madeBy listener work := by
  unfold Service.madeBy
  dsimp only
  rw [List.getElem?_append_left known]

theorem filter_madeBy_append (state : Service Iface) (made : Made) {works : List Workref}
    (known : ∀ work ∈ works, work < state.works.length) (listener : Nat) :
    works.filter (Service.madeBy { state with works := state.works ++ [made] } listener) =
      works.filter (state.madeBy listener) :=
  List.filter_congr fun work member => madeBy_append state made (known work member) listener

theorem pending_idle (idle : state.listeners[listener]? = some none) (device : Nat) :
    state.pending listener device = [] := by
  rw [Service.pending, idle]

theorem pending_held {work : Workref} {devices : List Nat}
    (holds : state.listeners[listener]? = some (some (work, devices))) (device : Nat) :
    state.pending listener device = List.replicate (devices.count device) work := by
  rw [Service.pending, holds]

end Histories

/-- A device is addressed by its place in the list. -/
theorem queuedAt_lt {order : ByteOrder} {devices : List (Aoedev Aclhdr Iface)} {entry : Workentry}
    {device : Nat} (queued : device ∈ queuedAt order devices entry) : device < devices.length := by
  obtain ⟨found, member, place⟩ := List.mem_filterMap.mp queued
  have listed : found ∈ numbered devices := by
    unfold processpacket at member
    split at member
    · cases member
    · cases member
    · cases member
    · dsimp only [recipients] at member
      rcases List.mem_append.mp member with named | broadcast
      · exact (List.mem_filter.mp named).1
      · split at broadcast
        · exact broadcast
        · cases broadcast
  obtain ⟨⟨_, index⟩, numbering, rfl⟩ := List.mem_map.mp listed
  cases place
  have bound := List.snd_lt_of_mem_zipIdx numbering
  simpa using bound

section Preserved

variable {order : ByteOrder} {start : Site Iface} {state : Service Iface}

theorem serviceInv_start (order : ByteOrder) (start : Site Iface) (listeners : Nat) :
    ServiceInv order start (serviceStart start listeners) where
  site := rfl
  sent := rfl
  request := fun _ member => by cases member
  devices := rfl
  workers := List.length_replicate
  worker := by
    intro device worker found
    have fresh := List.eq_of_mem_replicate (List.mem_of_getElem? found)
    subst fresh
    exact ⟨⟨[], workerInv_start⟩, rfl, fun _ member => by cases member⟩
  held := by
    intro listener work devices holds
    have idle := List.eq_of_mem_replicate (List.mem_of_getElem? holds)
    cases idle
  account := by
    intro listener device worker found
    have fresh := List.eq_of_mem_replicate (List.mem_of_getElem? found)
    subst fresh
    have idle : (serviceStart start listeners).pending listener device = [] := by
      unfold Service.pending
      split
      · next holds =>
          have none := List.eq_of_mem_replicate (List.mem_of_getElem? holds)
          cases none
      · rfl
    rw [idle]
    rfl

theorem serviceInv_arrive (inv : ServiceInv order start state) {listener : Nat}
    (entry : Workentry) (idle : state.listeners[listener]? = some none) :
    ServiceInv order start
      { state with
        works := state.works ++ [⟨listener, entry, queuedAt order state.site.devices entry⟩]
        listeners := state.listeners.set listener
          (some (state.works.length, queuedAt order state.site.devices entry)) } where
  site := inv.site
  sent := inv.sent
  request := by
    intro handled member
    obtain ⟨placed, made, found, same⟩ := inv.request handled member
    exact ⟨placed, made, getElem?_append_found found _, same⟩
  devices := inv.devices
  workers := inv.workers
  worker := by
    intro device worker found
    obtain ⟨queue, processed, known⟩ := inv.worker device worker found
    refine ⟨queue, processed, ?_⟩
    intro work member
    rw [List.length_append]
    exact Nat.lt_add_right _ (known work member)
  held := by
    intro other work devices holds
    rcases getElem?_set_cases holds with ⟨rfl, here⟩ | ⟨_, there⟩
    · cases here
      refine ⟨?_, _, List.getElem?_concat_length, rfl⟩
      intro device member
      rw [← inv.devices]
      exact queuedAt_lt member
    · obtain ⟨inside, made, found, maker⟩ := inv.held other work devices there
      exact ⟨inside, made, getElem?_append_found found _, maker⟩
  account := by
    intro other device worker found
    have before := inv.account other device worker found
    have known := (inv.worker device worker found).2.2
    have entered := arrivals_snoc state
      ⟨listener, entry, queuedAt order state.site.devices entry⟩ other device
    have filtered := filter_madeBy_append state
      ⟨listener, entry, queuedAt order state.site.devices entry⟩ known other
    unfold Service.arrivals at entered ⊢
    unfold Service.madeBy at filtered ⊢
    rw [entered, filtered]
    by_cases same : listener = other
    · subst same
      rw [pending_idle idle, List.append_nil] at before
      rw [if_pos rfl, ← Service.arrivals, ← before]
      congr 1
      have inside : listener < state.listeners.length := (List.getElem?_eq_some_iff.mp idle).1
      exact pending_held (List.getElem?_set_self inside) device
    · rw [if_neg same, List.append_nil, ← Service.arrivals, ← before]
      congr 1
      unfold Service.pending
      dsimp only
      rw [List.getElem?_set_ne same]

theorem serviceInv_insert (inv : ServiceInv order start state) (listener : Nat)
    {work : Workref} {device : Nat} {rest : List Nat} {worker next : WorkerState} {qe : Nat}
    (holds : state.listeners[listener]? = some (some (work, device :: rest)))
    (found : state.workers[device]? = some worker)
    (taken : workerStep worker (.insert work (some qe)) = some next) :
    ServiceInv order start
      { state with
        workers := state.workers.set device next
        listeners := state.listeners.set listener (some (work, rest)) } := by
  obtain ⟨entered, processed⟩ := workerStep_insert taken
  obtain ⟨⟨entries, sound⟩, handled, known⟩ := inv.worker device worker found
  obtain ⟨inside, made, entry, maker⟩ := inv.held listener work (device :: rest) holds
  have bound : work < state.works.length := (List.getElem?_eq_some_iff.mp entry).1
  have place : listener < state.listeners.length := (List.getElem?_eq_some_iff.mp holds).1
  refine ⟨inv.site, inv.sent, inv.request, inv.devices, ?_, ?_, ?_, ?_⟩
  · rw [List.length_set]
    exact inv.workers
  · intro other worker' found'
    rcases getElem?_set_cases found' with ⟨rfl, rfl⟩ | ⟨_, there⟩
    · refine ⟨workerInv_step sound (fun wake => by cases wake) taken,
        processed.trans handled, ?_⟩
      intro work' member
      rw [entered] at member
      rcases List.mem_append.mp member with old | new
      · exact known work' old
      · rw [List.mem_singleton.mp new]
        exact bound
    · exact inv.worker other worker' there
  · intro other work' devices holds'
    rcases getElem?_set_cases holds' with ⟨rfl, here⟩ | ⟨_, there⟩
    · cases here
      exact ⟨fun device member => inside device (List.mem_cons_of_mem _ member), made, entry, maker⟩
    · exact inv.held other work' devices there
  · intro other device' worker' found'
    -- The entry moves from the hands of its listener to the end of the queue.
    have moved (count : Nat) (device' : Nat) (same : listener = other)
        (counted : (device :: rest).count device' = count) :
        state.pending other device' = List.replicate count work := by
      subst same
      rw [pending_held holds, counted]
    have later (device' : Nat) (same : listener = other) :
        Service.pending { state with
          workers := state.workers.set device next
          listeners := state.listeners.set listener (some (work, rest)) } other device' =
            List.replicate (rest.count device') work := by
      subst same
      exact pending_held (List.getElem?_set_self place) device'
    have apart (different : listener ≠ other) (device' : Nat) :
        Service.pending { state with
          workers := state.workers.set device next
          listeners := state.listeners.set listener (some (work, rest)) } other device' =
            state.pending other device' := by
      unfold Service.pending
      dsimp only
      rw [List.getElem?_set_ne different]
    have mine : state.madeBy other work = decide (listener = other) := by
      rw [Service.madeBy, entry, Option.map_some, maker]
      exact decide_eq_decide.mpr (Option.some_inj)
    show worker'.inserted.filter (state.madeBy other) ++ _ = state.arrivals other device'
    rcases getElem?_set_cases found' with ⟨rfl, rfl⟩ | ⟨elsewhere, there⟩
    · rw [← inv.account other device worker found, entered, List.filter_append]
      by_cases same : listener = other
      · rw [later device same, moved _ device same List.count_cons_self, List.replicate_succ,
          List.filter_singleton, mine, decide_eq_true same, List.append_assoc]
        rfl
      · rw [apart same, List.filter_singleton, mine, decide_eq_false same]
        simp
    · rw [← inv.account other device' worker' there]
      by_cases same : listener = other
      · rw [later device' same, moved _ device' same (List.count_cons_of_ne elsewhere)]
      · rw [apart same]

theorem serviceInv_finish (inv : ServiceInv order start state) (listener : Nat) {work : Workref}
    (holds : state.listeners[listener]? = some (some (work, []))) :
    ServiceInv order start { state with listeners := state.listeners.set listener none } := by
  refine ⟨inv.site, inv.sent, inv.request, inv.devices, inv.workers, inv.worker, ?_, ?_⟩
  · intro other work' devices holds'
    rcases getElem?_set_cases holds' with ⟨_, here⟩ | ⟨_, there⟩
    · cases here
    · exact inv.held other work' devices there
  · intro other device worker found
    show worker.inserted.filter (state.madeBy other) ++ _ = state.arrivals other device
    rw [← inv.account other device worker found]
    congr 1
    by_cases same : listener = other
    · subst same
      have place : listener < state.listeners.length := (List.getElem?_eq_some_iff.mp holds).1
      rw [pending_held holds]
      exact pending_idle (List.getElem?_set_self place) device
    · unfold Service.pending
      dsimp only
      rw [List.getElem?_set_ne same]

theorem serviceInv_turn (inv : ServiceInv order start state) (device : Nat) {turn : Turn}
    {worker next : WorkerState} (found : state.workers[device]? = some worker)
    (taken : workerStep worker turn.action = some next)
    (wakes : WakeFindsWork worker turn.action) :
    ServiceInv order start { state with workers := state.workers.set device next } := by
  obtain ⟨inserted, processed⟩ := workerStep_turn taken
  obtain ⟨⟨entries, sound⟩, handled, known⟩ := inv.worker device worker found
  refine ⟨inv.site, inv.sent, inv.request, inv.devices, ?_, ?_, inv.held, ?_⟩
  · rw [List.length_set]
    exact inv.workers
  · intro other worker' found'
    rcases getElem?_set_cases found' with ⟨rfl, rfl⟩ | ⟨_, there⟩
    · exact ⟨workerInv_step sound wakes taken, processed.trans handled, inserted ▸ known⟩
    · exact inv.worker other worker' there
  · intro other device' worker' found'
    rcases getElem?_set_cases found' with ⟨rfl, rfl⟩ | ⟨_, there⟩
    · rw [inserted]
      exact inv.account other device worker found
    · exact inv.account other device' worker' there

/-- Serving a request keeps the number of devices. -/
theorem serve_devices (order : ByteOrder) (site : Site Iface) (assigned : Assigned) :
    ((serve order).next site assigned).devices.length = site.devices.length := by
  unfold serve
  dsimp only
  split
  · rfl
  · exact List.length_set

theorem outputs_snoc {σ ι ο : Type*} (machine : Mealy σ ι ο) (state : σ) (earlier : List ι)
    (input : ι) : machine.outputs state (earlier ++ [input]) =
      machine.outputs state earlier ++ [machine.out (machine.run state earlier) input] := by
  induction earlier generalizing state with
  | nil => rfl
  | cons first rest ih =>
      rw [List.cons_append, Mealy.outputs_cons, Mealy.outputs_cons, ih]
      rfl

theorem serviceInv_process (inv : ServiceInv order start state) (device : Nat) (env : Env)
    {work : Workref} {made : Made} {worker next : WorkerState}
    (found : state.workers[device]? = some worker)
    (taken : workerStep worker .process = some next) (holds : worker.work = some work)
    (entry : state.works[work]? = some made) :
    ServiceInv order start
      { state with
        site := (serve order).next state.site ⟨device, ⟨made.entry, env⟩⟩
        workers := state.workers.set device next
        handled := state.handled ++ [⟨device, work, ⟨made.entry, env⟩⟩]
        sent := state.sent ++ [(serve order).out state.site ⟨device, ⟨made.entry, env⟩⟩] } := by
  obtain ⟨handling, inserted, processed⟩ := workerStep_process taken
  obtain ⟨⟨entries, sound⟩, handled, known⟩ := inv.worker device worker found
  refine ⟨?_, ?_, ?_, ?_, ?_, ?_, inv.held, ?_⟩
  · dsimp only
    rw [List.map_append, List.map_singleton, Mealy.run_snoc, ← inv.site]
    rfl
  · dsimp only
    rw [List.map_append, List.map_singleton, outputs_snoc, ← inv.site, ← inv.sent]
    rfl
  · intro other member
    rcases List.mem_append.mp member with old | new
    · exact inv.request other old
    · rw [List.mem_singleton.mp new]
      refine ⟨?_, made, entry, rfl⟩
      rw [← inv.workers]
      exact (List.getElem?_eq_some_iff.mp found).1
  · exact (serve_devices order _ _).trans inv.devices
  · rw [List.length_set]
    exact inv.workers
  · intro other worker' found'
    unfold Service.handledBy
    dsimp only
    rw [List.filter_append, List.filter_singleton]
    rcases getElem?_set_cases found' with ⟨rfl, rfl⟩ | ⟨elsewhere, there⟩
    · refine ⟨workerInv_step sound (fun wake => by cases wake) taken, ?_, inserted ▸ known⟩
      rw [processed, handled, holds, decide_eq_true rfl, List.map_append]
      rfl
    · rw [decide_eq_false elsewhere, cond_false, List.append_nil]
      exact inv.worker other worker' there
  · intro other device' worker' found'
    rcases getElem?_set_cases found' with ⟨rfl, rfl⟩ | ⟨_, there⟩
    · rw [inserted]
      exact inv.account other device worker found
    · exact inv.account other device' worker' there

/-- Every step of every thread keeps the account. -/
theorem serviceInv_step {next : Service Iface} {action : ServiceAction}
    (inv : ServiceInv order start state) (wakes : WakesForWork state action)
    (taken : serviceStep order state action = some next) : ServiceInv order start next := by
  cases moves_of_step taken with
  | dropped listener entry _ => exact inv
  | arrive listener entry idle => exact serviceInv_arrive inv entry idle
  | insert listener qe holds found stepped =>
      exact serviceInv_insert inv listener holds found stepped
  | finish listener holds => exact serviceInv_finish inv listener holds
  | turn device turn found stepped =>
      exact serviceInv_turn inv device found stepped (wakeFindsWork wakes found)
  | process device env found stepped holds entry =>
      exact serviceInv_process inv device env found stepped holds entry

end Preserved

/-! ## One request after the other -/

section Site

variable {order : ByteOrder} {start site : Site Iface}

/-- The devices are those of the start but for their configuration strings. -/
def SameSite (start site : Site Iface) : Prop :=
  List.Forall₂ SameSetup start.devices site.devices

theorem forall₂_getElem? {α β : Type*} {related : α → β → Prop} {first : List α} {second : List β}
    (all : List.Forall₂ related first second) {index : Nat} {found : β}
    (there : second[index]? = some found) :
    ∃ other, first[index]? = some other ∧ related other found := by
  induction all generalizing index with
  | nil => cases there
  | cons here _ ih =>
      cases index with
      | zero =>
          cases there
          exact ⟨_, rfl, here⟩
      | succ index => exact ih there

theorem forall₂_set {α β : Type*} {related : α → β → Prop} {first : List α} {second : List β}
    (all : List.Forall₂ related first second) {index : Nat} {other : α} {new : β}
    (there : first[index]? = some other) (here : related other new) :
    List.Forall₂ related first (second.set index new) := by
  induction all generalizing index with
  | nil => cases there
  | cons first rest ih =>
      cases index with
      | zero =>
          cases there
          exact .cons here rest
      | succ index => exact .cons first (ih there)

theorem serve_sameSite (same : SameSite start site) (assigned : Assigned) :
    SameSite start ((serve order).next site assigned) := by
  unfold serve
  dsimp only
  split
  · exact same
  · next device found =>
      obtain ⟨other, there, setup⟩ := forall₂_getElem? same found
      exact forall₂_set same there (setup.trans (qaoedProcesswork_sameSetup order _ _ _ _))

theorem IsReply.congr {dev dev' : Aoedev Aclhdr Iface} {work : Workentry} {hdr : AoeHdr}
    (same : SameSetup dev dev') (reply : IsReply order dev' work hdr) :
    IsReply order dev work hdr := by
  obtain ⟨_, _, rfl⟩ := same
  exact ⟨reply.hDest, reply.hProto, reply.response, reply.shelf, reply.slot, reply.cmd, reply.tag⟩

theorem serve_answers (same : SameSite start site) {assigned : Assigned}
    (placed : assigned.device < start.devices.length) :
    Answers order start assigned ((serve order).out site assigned) := by
  have inside : assigned.device < site.devices.length := by
    rw [← List.Forall₂.length_eq same]
    exact placed
  have found := List.getElem?_eq_getElem inside
  obtain ⟨other, there, setup⟩ := forall₂_getElem? same found
  unfold serve
  dsimp only
  rw [found]
  refine ⟨qaoedProcesswork_sent_length order _ _ _ _, other, there, ?_⟩
  intro frame member
  exact IsReply.congr setup (isReply_processwork member)

/-- Every answer of a run goes with its request. -/
theorem outputs_answers (same : SameSite start site) (requests : List Assigned)
    (placed : ∀ assigned ∈ requests, assigned.device < start.devices.length) :
    List.Forall₂ (Answers order start) requests ((serve order).outputs site requests) := by
  induction requests generalizing site with
  | nil => exact .nil
  | cons assigned rest ih =>
      rw [Mealy.outputs_cons]
      refine .cons (serve_answers same (placed assigned List.mem_cons_self)) ?_
      exact ih (serve_sameSite same assigned) fun other member =>
        placed other (List.mem_cons_of_mem _ member)

theorem sameSite_refl (start : Site Iface) : SameSite start start :=
  List.forall₂_same.mpr fun device _ => SameSetup.refl device

end Site

/-! ## Runs -/

section Reached

variable {order : ByteOrder} {start : Site Iface} {state : Service Iface}

/-- What the worker of a device has inserted, handled and not handled yet. -/
theorem ServiceInv.inserted (inv : ServiceInv order start state) {device : Nat}
    {worker : WorkerState} (found : state.workers[device]? = some worker) :
    ∃ rest, worker.inserted = (state.handledBy device).map Handled.work ++ rest ∧
      (worker.queue.q = none → inHand worker = [] → rest = []) := by
  obtain ⟨⟨entries, sound⟩, processed, _⟩ := inv.worker device worker found
  have accounted := sound.accounted
  have works : (state.handledBy device).map (fun handled => some handled.work) =
      ((state.handledBy device).map Handled.work).map some := by
    rw [List.map_map]
    rfl
  rw [processed, works, List.append_assoc, List.map_eq_append_iff] at accounted
  obtain ⟨handled, rest, split, same, left⟩ := accounted
  refine ⟨rest, ?_, ?_⟩
  · rw [split, List.map_injective_iff.mpr (Option.some_injective _) same]
  · intro empty nothing
    have none := sound.describes.segment.first_none_iff.mp empty
    rw [none, nothing] at left
    exact List.map_eq_nil_iff.mp left

/-- The work entries of a run are those of the frames that were received. -/
theorem handledFrom_eq (inv : ServiceInv order start state) (listener device : Nat) :
    state.handledFrom listener device =
      (((state.handledBy device).map Handled.work).filter (state.madeBy listener)).filterMap
        fun work => (state.works[work]?).map Made.entry := by
  rw [Service.handledFrom, List.filter_map, List.filterMap_map]
  refine (List.filterMap_eq_map_iff_forall_eq_some.mpr ?_).symm
  intro handled member
  obtain ⟨made, found, same⟩ := (inv.request handled
    (List.mem_filter.mp (List.mem_filter.mp member).1).1).2
  rw [Function.comp_apply, found, Option.map_some, same]

theorem arrivals_entries (state : Service Iface) (listener device : Nat) :
    ((state.arrivals listener device).filterMap fun work =>
        (state.works[work]?).map Made.entry) =
      madeFor state.works listener device := by
  have firsts : state.works = state.works.zipIdx.map Prod.fst := (List.zipIdx_map_fst 0 _).symm
  rw [Service.arrivals, List.filterMap_flatMap]
  nth_rewrite 3 [firsts]
  rw [madeFor, List.flatMap_map]
  refine List.flatMap_congr ?_
  rintro ⟨made, work⟩ member
  have found := List.mk_mem_zipIdx_iff_getElem?.mp member
  dsimp only
  split_ifs
  · exact List.filterMap_replicate_of_some (by rw [found, Option.map_some])
  · rfl

/-- What a device has handled of the frames of a listener came first among those for it. -/
theorem ServiceInv.handledFrom_prefix (inv : ServiceInv order start state) (listener : Nat)
    {device : Nat} (placed : device < start.devices.length) :
    state.handledFrom listener device <+: madeFor state.works listener device := by
  have found := List.getElem?_eq_getElem (inv.workers.symm ▸ placed : device < state.workers.length)
  obtain ⟨rest, split, _⟩ := inv.inserted found
  have account := inv.account listener device _ found
  rw [split, List.filter_append, List.append_assoc] at account
  rw [← arrivals_entries, handledFrom_eq inv]
  exact List.IsPrefix.filterMap _ ⟨_, account⟩

theorem ServiceInv.handledFrom_quiet (inv : ServiceInv order start state) (quiet : state.Quiet)
    (listener : Nat) {device : Nat} (placed : device < start.devices.length) :
    state.handledFrom listener device = madeFor state.works listener device := by
  have found := List.getElem?_eq_getElem (inv.workers.symm ▸ placed : device < state.workers.length)
  obtain ⟨rest, split, ends⟩ := inv.inserted found
  obtain ⟨empty, nothing⟩ := quiet.workers _ (List.mem_of_getElem? found)
  have account := inv.account listener device _ found
  have idle : state.pending listener device = [] := by
    unfold Service.pending
    split
    · next holds => cases quiet.listeners _ (List.mem_of_getElem? holds)
    · rfl
  rw [split, ends empty nothing, List.append_nil, idle, List.append_nil] at account
  rw [← arrivals_entries, handledFrom_eq inv, account]

/-- The answers go with the requests. -/
theorem ServiceInv.answered (inv : ServiceInv order start state) :
    List.Forall₂ (fun handled sent => Answers order start handled.assigned sent)
      state.handled state.sent := by
  have answered : List.Forall₂ (Answers order start) _ _ :=
    outputs_answers (sameSite_refl start) (state.handled.map Handled.assigned) ?_
  · rw [← inv.sent, List.forall₂_map_left_iff] at answered
    exact answered
  · intro assigned member
    obtain ⟨handled, here, rfl⟩ := List.mem_map.mp member
    exact (inv.request handled here).1

theorem ServiceInv.serial {actions : List ServiceAction} (inv : ServiceInv order start state)
    (arrived : ∀ listener device,
      madeFor state.works listener device =
        due order start actions listener device) : Serial order start actions state where
  site := inv.site
  sent := inv.sent
  answers := inv.answered
  inOrder := by
    intro listener device placed
    rw [← arrived]
    exact inv.handledFrom_prefix listener placed
  complete := by
    intro quiet listener device placed
    rw [← arrived]
    exact inv.handledFrom_quiet quiet listener placed

end Reached

/-! ## What arrives in a run -/

section Arrived

variable {order : ByteOrder} {start : Site Iface} {state next : Service Iface}

/-- The addresses of the devices stay. -/
theorem sameSite_addresses (same : SameSite start state.site) :
    start.devices.map address = state.site.devices.map address := by
  have both : List.Forall₂ (fun first second => address first = address second)
      start.devices state.site.devices := by
    refine List.Forall₂.imp ?_ same
    rintro first _ ⟨_, _, rfl⟩
    rfl
  exact List.forall₂_eq_eq_eq ▸ List.forall₂_map_left_iff.mpr (List.forall₂_map_right_iff.mpr both)

theorem due_arrive (order : ByteOrder) (start : Site Iface) (other : Nat) (entry : Workentry)
    (listener device : Nat) :
    due order start [.arrive other entry] listener device =
      if other = listener then
        List.replicate ((queuedAt order start.devices entry).count device) entry
      else [] := by
  unfold due received
  by_cases here : other = listener <;> simp [here]

/-- A step makes a work entry only for a frame that arrives. -/
theorem serviceStep_works {action : ServiceAction} (same : SameSite start state.site)
    (taken : serviceStep order state action = some next) (listener device : Nat) :
    SameSite start next.site ∧
      madeFor next.works listener device =
        madeFor state.works listener device ++
            due order start [action] listener device := by
  have nothing (quiet : due order start [action] listener device = [])
      (works : next.works = state.works) :
      madeFor next.works listener device =
        madeFor state.works listener device ++
            due order start [action] listener device := by
    rw [quiet, works, List.append_nil]
  cases moves_of_step taken with
  | dropped other entry dropped =>
      refine ⟨same, nothing ?_ rfl⟩
      rw [due_arrive, queuedAt_dropped start.devices dropped]
      split_ifs <;> rfl
  | arrive other entry idle =>
      refine ⟨same, ?_⟩
      have places : queuedAt order start.devices entry = queuedAt order state.site.devices entry :=
        queuedAt_congr (sameSite_addresses same)
      rw [due_arrive, places]
      exact List.flatMap_append.trans (congrArg _ (List.flatMap_singleton _ _))
  | insert other qe holds found stepped => exact ⟨same, nothing rfl rfl⟩
  | finish other holds => exact ⟨same, nothing rfl rfl⟩
  | turn device turn found stepped => exact ⟨same, nothing rfl rfl⟩
  | process device env found stepped holds entry => exact ⟨serve_sameSite same _, nothing rfl rfl⟩

theorem due_cons (order : ByteOrder) (start : Site Iface) (action : ServiceAction)
    (rest : List ServiceAction) (listener device : Nat) :
    due order start (action :: rest) listener device =
      due order start [action] listener device ++ due order start rest listener device := by
  have split : action :: rest = [action] ++ rest := rfl
  rw [due, received, split, List.filterMap_append, List.flatMap_append]
  rfl

/-- The work entries made in a run are those for the frames received. -/
theorem runSteps_works {final : Service Iface} (actions : List ServiceAction)
    (same : SameSite start state.site)
    (reached : runSteps (serviceStep order) state actions = some final) (listener device : Nat) :
    madeFor final.works listener device =
      madeFor state.works listener device ++
          due order start actions listener device := by
  induction actions generalizing state with
  | nil =>
      cases reached
      exact (List.append_nil _).symm
  | cons action rest ih =>
      obtain ⟨next, taken, reached⟩ := runSteps_cons reached
      obtain ⟨same, made⟩ := serviceStep_works same taken listener device
      rw [ih same reached, made, due_cons order start action rest, List.append_assoc]

end Arrived

theorem service_reached (order : ByteOrder) (start : Site Iface) (listeners : Nat)
    (actions : List ServiceAction) (state : Service Iface)
    (wakes : EveryStep (serviceStep order) WakesForWork (serviceStart start listeners) actions)
    (reached : runSteps (serviceStep order) (serviceStart start listeners) actions = some state) :
    ServiceInv order start state :=
  runSteps_invariant (ServiceInv order start) (serviceInv_start order start listeners)
    (fun _ _ _ inv wakes taken => serviceInv_step inv wakes taken) wakes reached

/-- However the threads take turns, the devices and files are as if requests had been handled
one after the other, with the same answers: for each device and each interface in the order of
arrival, none twice, and all of them once the server is quiet. That is so as long as no worker is
woken with an empty queue. -/
theorem service_serial (order : ByteOrder) (start : Site Iface) (listeners : Nat)
    (actions : List ServiceAction) (state : Service Iface)
    (wakes : EveryStep (serviceStep order) WakesForWork (serviceStart start listeners) actions)
    (reached : runSteps (serviceStep order) (serviceStart start listeners) actions = some state) :
    Serial order start actions state := by
  refine (service_reached order start listeners actions state wakes reached).serial ?_
  intro listener device
  exact runSteps_works actions (sameSite_refl start) reached listener device

theorem service_serial_query :
    ∃ state, runSteps (serviceStep .little) (serviceStart twoSlots 1) queryRun = some state ∧
      Serial .little twoSlots queryRun state := by
  have runs : (runSteps (serviceStep .little) (serviceStart twoSlots 1) queryRun).isSome = true :=
    rfl
  obtain ⟨state, reached⟩ := Option.isSome_iff_exists.mp runs
  refine ⟨state, reached, service_serial .little twoSlots 1 queryRun state ?_ reached⟩
  exact everyStep_of_always fun action member state => queryRun_wakes state action member

end Qaoed.Network
