import Qaoed.Daemon.ClientSessions
import Qaoed.Daemon.PlannedServer

/-!
# Targets that are added while the server runs

Beside listeners and workers there is the API thread, which may start a device and link it while
requests for others are handled. It waits with that until no listener goes through the list. As
far as devices, files and answers go, a device might as well have been there from the start; what
it handles are the frames that arrive once it is in the list.
-/

namespace Qaoed.Daemon

open Qaoed.Api hiding Request StartEnv
open Qaoed.Config
open Qaoed.Device
open Qaoed.Frame
open Qaoed.Library
open Qaoed.Network

/-! ## The whole daemon -/

/-- The configuration as the API thread sees it with what that thread holds of the lock of the
device list, and the threads that serve. -/
structure Running where
  conf : Conf
  devlistlock : Library.Hold
  service : Service Nat

inductive RunningAction where
  /-- A step of a listener or of a worker. -/
  | serve (action : ServiceAction)
  /-- The API thread handles a request. -/
  | request (call : Call)

/-- The devices that a handler has linked behind the others. -/
def linked (before after : Conf) : List (Aoedev Aclhdr Nat) :=
  (after.devices.drop before.devices.length).map (Devconf.deref after.acllist)

/-- More devices, each with a worker that has nothing to do yet. -/
def withDevices (service : Service Nat) (more : List (Aoedev Aclhdr Nat)) : Service Nat :=
  { service with
    site := { service.site with devices := service.site.devices ++ more }
    workers := service.workers ++ List.replicate more.length workerStart }

/-- A handler comes to its end where the locks it waits for are given up. Listeners hold a read
lock of the device list as long as they go through it; a handler that links a device holds the
write lock. The daemon does not outlive a handler that is stopped. A frame keeps the interface as
it was when the frame arrived: what a new MTU does to frames in the queues is left out. -/
def runningStep (order : ByteOrder) (running : Running) : RunningAction → Option Running
  | .serve action =>
      (serviceStep order running.service action).map fun service => { running with service := service }
  | .request call =>
      let outcome := processAPIrequest call.env running.conf call.request
      match devlistAfter running.devlistlock outcome.locks with
      | none => none
      | some hold =>
          if outcome.stopped.isSome then none
          else if .wrlock .devlistlock ∈ outcome.locks ∧
              ∃ listener ∈ running.service.listeners, listener ≠ none then none
          else
            some ⟨outcome.conf, hold,
              withDevices running.service (linked running.conf outcome.conf)⟩

/-- Requests that neither take a device out of the list, nor change what it refuses, nor the MTU of
an interface: the interface of a frame that is queued is the one of its arrival. -/
def Adding : RunningAction → Prop
  | .serve _ => True
  | .request call => (∀ target, call.request ≠ .targetDel target) ∧
      (∀ target, call.request ≠ .targetSetacl target) ∧
      ∀ ifcmd, call.request ≠ .interfacesSetmtu ifcmd

def RunningWakes (running : Running) : RunningAction → Prop
  | .serve action => WakesForWork running.service action
  | .request _ => True

/-- The frames that a device is to handle: those that arrive while it is in the list. -/
def dueAlong (order : ByteOrder) : Conf → List RunningAction → Nat → Nat → List Workentry
  | _, [], _, _ => []
  | conf, .serve action :: later, listener, device =>
      due order (serverSite conf fun _ => []) [action] listener device ++
        dueAlong order conf later listener device
  | conf, .request call :: later, listener, device =>
      dueAlong order (processAPIrequest call.env conf call.request).conf later listener device

def runningStart (conf : Conf) (files : CString → List UInt8) (listeners : Nat) : Running :=
  ⟨conf, .free, serviceStart (serverSite conf files) listeners⟩

/-- As far as devices, files and answers go, all devices might have been there from the start. -/
structure SerialAlong (order : ByteOrder) (conf : Conf) (files : CString → List UInt8)
    (actions : List RunningAction) (final : Running) : Prop where
  site : final.service.site =
    (serve order).run (serverSite final.conf files) (final.service.handled.map Handled.assigned)
  sent : final.service.sent =
    (serve order).outputs (serverSite final.conf files) (final.service.handled.map Handled.assigned)
  answers : List.Forall₂ (fun handled sent =>
    Answers order (serverSite final.conf files) handled.assigned sent)
    final.service.handled final.service.sent
  inOrder : ∀ listener device, device < final.conf.devices.length →
    final.service.handledFrom listener device <+: dueAlong order conf actions listener device
  complete : final.service.Quiet → ∀ listener device, device < final.conf.devices.length →
    final.service.handledFrom listener device = dueAlong order conf actions listener device

/-! ## More devices than requests are for -/

section Extended

variable {order : ByteOrder} {site : Site Nat} {more : List (Aoedev Aclhdr Nat)}

/-- Devices behind the others do not matter to a request for one of the others. -/
theorem serve_extended {assigned : Assigned} (placed : assigned.device < site.devices.length) :
    (serve order).next { site with devices := site.devices ++ more } assigned =
        { (serve order).next site assigned with
          devices := ((serve order).next site assigned).devices ++ more } ∧
      (serve order).out { site with devices := site.devices ++ more } assigned =
        (serve order).out site assigned := by
  have found := List.getElem?_eq_getElem placed
  have found' : (site.devices ++ more)[assigned.device]? = some site.devices[assigned.device] :=
    (List.getElem?_append_left placed).trans found
  simp only [serve, found, found', List.set_append_left _ _ placed, and_self]

theorem run_extended (requests : List Assigned)
    (placed : ∀ assigned ∈ requests, assigned.device < site.devices.length) :
    (serve order).run { site with devices := site.devices ++ more } requests =
        { (serve order).run site requests with
          devices := ((serve order).run site requests).devices ++ more } ∧
      (serve order).outputs { site with devices := site.devices ++ more } requests =
        (serve order).outputs site requests := by
  induction requests generalizing site with
  | nil => exact ⟨rfl, rfl⟩
  | cons assigned rest ih =>
      obtain ⟨next, out⟩ := @serve_extended order site more assigned (placed assigned List.mem_cons_self)
      have later := @ih ((serve order).next site assigned) fun other member => by
        rw [serve_devices]
        exact placed other (List.mem_cons_of_mem _ member)
      rw [Mealy.run, List.foldl_cons, next, ← Mealy.run, later.1, Mealy.outputs_cons, next, out, later.2]
      exact ⟨rfl, rfl⟩

variable {start : Site Nat} {state : Service Nat}

/-- A worker is one of those that were there, or has nothing to do yet. -/
theorem withDevices_worker {device : Nat} {worker : WorkerState}
    (found : (withDevices state more).workers[device]? = some worker) :
    state.workers[device]? = some worker ∨
      worker = workerStart ∧ state.workers.length ≤ device ∧ more ≠ [] := by
  change (state.workers ++ List.replicate more.length workerStart)[device]? = some worker at found
  rcases Nat.lt_or_ge device state.workers.length with before | behind
  · rw [List.getElem?_append_left before] at found
    exact Or.inl found
  · rw [List.getElem?_append_right behind] at found
    refine Or.inr ⟨List.eq_of_mem_replicate (List.mem_of_getElem? found), behind, ?_⟩
    rintro rfl
    cases found

/-- Nothing is made for a device that is not there yet. -/
theorem arrivals_unplaced {listener device : Nat}
    (unplaced : ∀ made ∈ state.works, device ∉ made.devices) :
    state.arrivals listener device = [] := by
  rw [Service.arrivals, List.flatMap_eq_nil_iff]
  rintro ⟨made, work⟩ member
  have none := List.count_eq_zero_of_not_mem (unplaced made (List.fst_mem_of_mem_zipIdx member))
  simp [none]

theorem handledBy_unplaced {device : Nat}
    (unplaced : ∀ handled ∈ state.handled, handled.device ≠ device) :
    state.handledBy device = [] := by
  rw [Service.handledBy, List.filter_eq_nil_iff]
  intro handled member
  simp [unplaced handled member]

/-- Devices that are linked while no listener goes through the list are as good as devices from
the start that nothing has arrived for. -/
theorem serviceInv_withDevices (inv : ServiceInv order start state)
    (placed : ∀ made ∈ state.works, ∀ device ∈ made.devices, device < start.devices.length)
    (idle : more ≠ [] → ∀ listener ∈ state.listeners, listener = none) :
    ServiceInv order { start with devices := start.devices ++ more } (withDevices state more) := by
  have handled (assigned : Assigned) (member : assigned ∈ state.handled.map Handled.assigned) :
      assigned.device < start.devices.length := by
    obtain ⟨handled, here, rfl⟩ := List.mem_map.mp member
    exact (inv.request handled here).1
  obtain ⟨run, outputs⟩ := @run_extended order start more _ handled
  have further {device : Nat} (inside : device < start.devices.length) :
      device < (start.devices ++ more).length := by
    rw [List.length_append]
    omega
  refine ⟨?_, ?_, ?_, ?_, ?_, ?_, ?_, ?_⟩
  · show (⟨state.site.devices ++ more, state.site.files⟩ : Site Nat) = _
    rw [inv.site]
    exact run.symm
  · exact inv.sent.trans outputs.symm
  · intro handled member
    obtain ⟨inside, made⟩ := inv.request handled member
    exact ⟨further inside, made⟩
  · show (state.site.devices ++ more).length = (start.devices ++ more).length
    rw [List.length_append, List.length_append, inv.devices]
  · show (state.workers ++ List.replicate more.length workerStart).length = _
    rw [List.length_append, List.length_append, List.length_replicate, inv.workers]
  · intro device worker found
    rcases withDevices_worker found with there | ⟨rfl, behind, _⟩
    · exact inv.worker device worker there
    · have nothing : state.handledBy device = [] := handledBy_unplaced fun handled member => by
        have := (inv.request handled member).1
        rw [inv.workers] at behind
        omega
      refine ⟨⟨[], workerInv_start⟩, ?_, fun work member => by cases member⟩
      show [] = (state.handledBy device).map _
      rw [nothing]
      rfl
  · intro listener work devices holds
    obtain ⟨inside, made⟩ := inv.held listener work devices holds
    exact ⟨fun device member => further (inside device member), made⟩
  · intro listener device worker found
    show worker.inserted.filter (state.madeBy listener) ++ state.pending listener device =
      state.arrivals listener device
    rcases withDevices_worker found with there | ⟨rfl, behind, some⟩
    · exact inv.account listener device worker there
    · have empty : state.arrivals listener device = [] := arrivals_unplaced fun made member here => by
        have := placed made member device here
        rw [inv.workers] at behind
        omega
      rw [empty, Service.pending]
      split
      · next holds =>
          have none := idle some _ (List.mem_of_getElem? holds)
          cases none
      · rfl

end Extended

/-! ## One step of the daemon -/

section Lists

variable (env : ApiEnv) (conf : Conf)

theorem processIntList_conf : (processIntList env conf).conf = conf := by
  unfold processIntList
  split
  · rfl
  · rfl

theorem processTargetList_conf : (processTargetList env conf).conf = conf := by
  unfold processTargetList
  split
  · rfl
  · split
    · rfl
    · rfl

theorem processAclList_conf : (processAclList env conf).conf = conf := by
  unfold processAclList
  split
  · rfl
  · split
    · rfl
    · rfl

end Lists

/-- A request for something else leaves devices and access lists, and one to add a target links
it behind the others under the write lock. -/
theorem processAPIrequest_links (conf : Conf) {call : Call} (adding : Adding (.request call)) :
    ∃ added, (processAPIrequest call.env conf call.request).conf.devices = conf.devices ++ added ∧
      (processAPIrequest call.env conf call.request).conf.acllist = conf.acllist ∧
      (added ≠ [] →
        .wrlock .devlistlock ∈ (processAPIrequest call.env conf call.request).locks) := by
  obtain ⟨env, request⟩ := call
  have nothing (same : (processAPIrequest env conf request).conf = conf) :
      ∃ added, (processAPIrequest env conf request).conf.devices = conf.devices ++ added ∧
        (processAPIrequest env conf request).conf.acllist = conf.acllist ∧
        (added ≠ [] → .wrlock .devlistlock ∈ (processAPIrequest env conf request).locks) :=
    ⟨[], by rw [same, List.append_nil], by rw [same], fun some => absurd rfl some⟩
  cases request with
  | status => exact nothing rfl
  | interfacesList => exact nothing (processIntList_conf env conf)
  | interfacesStatus ifcmd => exact nothing rfl
  | interfacesSetmtu ifcmd => exact absurd rfl (adding.2.2 ifcmd)
  | targetList => exact nothing (processTargetList_conf env conf)
  | targetAdd target =>
      dsimp only [processAPIrequest]
      rcases processTargetAdd_cases env conf target with leaves | ⟨added, position, adds⟩
      · exact ⟨[], by rw [leaves.devices, List.append_nil], leaves.acllist,
          fun some => absurd rfl some⟩
      · obtain ⟨newdevice, size, devdefault, _, _, after⟩ := adds.started
        refine ⟨[added], by rw [after], by rw [after], fun _ => ?_⟩
        rcases processTargetAdd_waits env conf target with locks | ⟨same, _⟩
        · rw [locks]
          decide
        · rw [after] at same
          exact absurd same (by simp)
  | targetDel target => exact absurd rfl (adding.1 target)
  | targetSetacl target => exact absurd rfl (adding.2.1 target)
  | aclList => exact nothing (processAclList_conf env conf)
  | unhandled cmd => exact nothing rfl

/-- The service is one over the devices that are linked by now, and has nothing for others. -/
structure RunningInv (order : ByteOrder) (files : CString → List UInt8) (running : Running) :
    Prop where
  service : ServiceInv order (serverSite running.conf files) running.service
  placed : ∀ made ∈ running.service.works, ∀ device ∈ made.devices,
    device < running.conf.devices.length

theorem serverSite_length (conf : Conf) (files : CString → List UInt8) :
    (serverSite conf files).devices.length = conf.devices.length :=
  List.length_map _

theorem runningInv_start (order : ByteOrder) (conf : Conf) (files : CString → List UInt8)
    (listeners : Nat) : RunningInv order files (runningStart conf files listeners) :=
  ⟨serviceInv_start order _ listeners, fun _ member => by cases member⟩

section Step

variable {order : ByteOrder} {files : CString → List UInt8} {running next : Running}

theorem serviceInv_sameSite {start : Site Nat} {state : Service Nat}
    (inv : ServiceInv order start state) : SameSite start state.site := by
  rw [inv.site]
  exact (serve order).run_invariant (SameSite start) (sameSite_refl start)
    fun site assigned _ same => serve_sameSite same assigned

/-- A new work entry is for devices in the list. -/
theorem works_placed {state after : Service Nat} {action : ServiceAction} {made : Made}
    (taken : serviceStep order state action = some after) (member : made ∈ after.works) :
    made ∈ state.works ∨ ∀ device ∈ made.devices, device < state.site.devices.length := by
  cases moves_of_step taken with
  | dropped listener entry _ => exact Or.inl member
  | arrive listener entry _ =>
      rcases List.mem_append.mp member with old | new
      · exact Or.inl old
      · rw [List.mem_singleton.mp new]
        exact Or.inr fun device queued => queuedAt_lt queued
  | insert listener qe _ _ _ => exact Or.inl member
  | finish listener _ => exact Or.inl member
  | turn device turn _ _ => exact Or.inl member
  | process device env _ _ _ _ => exact Or.inl member

theorem runningInv_serve (inv : RunningInv order files running) {action : ServiceAction}
    (wakes : WakesForWork running.service action)
    (taken : runningStep order running (.serve action) = some next) :
    RunningInv order files next ∧ next.conf = running.conf ∧ ∀ listener device,
      madeFor next.service.works listener device = madeFor running.service.works listener device ++
        due order (serverSite running.conf fun _ => []) [action] listener device := by
  obtain ⟨after, stepped, rfl⟩ := Option.map_eq_some_iff.mp taken
  refine ⟨⟨serviceInv_step inv.service wakes stepped, ?_⟩, rfl, ?_⟩
  · intro made member device here
    rcases works_placed stepped member with old | new
    · exact inv.placed made old device here
    · have inside := new device here
      rw [inv.service.devices, serverSite_length] at inside
      exact inside
  · intro listener device
    exact (serviceStep_works 
      (serviceInv_sameSite inv.service) stepped listener device).2

theorem runningInv_request (inv : RunningInv order files running) {call : Call}
    (adding : Adding (.request call))
    (taken : runningStep order running (.request call) = some next) :
    RunningInv order files next ∧
      next.conf = (processAPIrequest call.env running.conf call.request).conf ∧
      next.service.works = running.service.works := by
  obtain ⟨added, devices, acllist, locked⟩ := processAPIrequest_links running.conf adding
  unfold runningStep at taken
  dsimp only at taken
  split at taken
  · cases taken
  · split at taken
    · cases taken
    · split at taken
      · cases taken
      · next free =>
          cases taken
          have more : linked running.conf (processAPIrequest call.env running.conf call.request).conf =
              added.map (Devconf.deref running.conf.acllist) := by
            rw [linked, devices, acllist, List.drop_left]
          have site : serverSite (processAPIrequest call.env running.conf call.request).conf files =
              { serverSite running.conf files with
                devices := (serverSite running.conf files).devices ++
                  added.map (Devconf.deref running.conf.acllist) } := by
            rw [serverSite, devices, acllist, List.map_append]
            rfl
          refine ⟨⟨?_, ?_⟩, rfl, rfl⟩
          · dsimp only
            rw [site, more]
            refine serviceInv_withDevices inv.service ?_ ?_
            · rw [serverSite_length]
              exact inv.placed
            · intro some listener member
              by_contra busy
              exact free ⟨locked fun none => some (by rw [none, List.map_nil]), listener, member, busy⟩
          · intro made member device here
            have inside := inv.placed made member device here
            rw [devices, List.length_append]
            omega

/-- What is still to come for a device is counted from the list as a step leaves it. -/
theorem runningInv_step (inv : RunningInv order files running) {action : RunningAction}
    (adding : Adding action) (wakes : RunningWakes running action)
    (taken : runningStep order running action = some next) :
    RunningInv order files next ∧ ∀ later listener device,
      madeFor next.service.works listener device ++ dueAlong order next.conf later listener device =
        madeFor running.service.works listener device ++
          dueAlong order running.conf (action :: later) listener device := by
  cases action with
  | serve action =>
      obtain ⟨inv', conf, works⟩ := runningInv_serve inv wakes taken
      refine ⟨inv', fun later listener device => ?_⟩
      rw [works, conf, dueAlong, List.append_assoc]
  | request call =>
      obtain ⟨inv', conf, works⟩ := runningInv_request inv adding taken
      refine ⟨inv', fun later listener device => ?_⟩
      rw [works, conf, dueAlong]

end Step

/-! ## Runs -/

/-- What has been queued in a run is what arrived for the devices that were in the list then. -/
theorem runningInv_run {order : ByteOrder} {files : CString → List UInt8} {running final : Running}
    (actions : List RunningAction) (inv : RunningInv order files running)
    (adding : ∀ action ∈ actions, Adding action)
    (wakes : EveryStep (runningStep order) RunningWakes running actions)
    (reached : runSteps (runningStep order) running actions = some final) :
    RunningInv order files final ∧ ∀ listener device,
      madeFor final.service.works listener device =
        madeFor running.service.works listener device ++
          dueAlong order running.conf actions listener device := by
  induction actions generalizing running with
  | nil =>
      cases reached
      exact ⟨inv, fun _ _ => (List.append_nil _).symm⟩
  | cons action rest ih =>
      obtain ⟨next, taken, reached⟩ := runSteps_cons reached
      obtain ⟨wake, later⟩ := wakes
      obtain ⟨inv', counted⟩ := runningInv_step inv (adding action List.mem_cons_self) wake taken
      obtain ⟨sound, works⟩ := ih inv'
        (fun other member => adding other (List.mem_cons_of_mem _ member)) (later next taken) reached
      exact ⟨sound, fun listener device => (works listener device).trans (counted rest listener device)⟩

/-- Whatever targets are added while the server runs, and however its threads take turns, devices
and files are as if all devices had been there from the start and requests had been handled one
after the other, with the same answers. A device handles the frames of each interface in their
order from when it is in the list, none twice, and all of them once the server is quiet, if no
worker is woken with an empty queue. -/
theorem additions_serial (order : ByteOrder) (conf : Conf) (files : CString → List UInt8)
    (listeners : Nat) (actions : List RunningAction) (final : Running)
    (adding : ∀ action ∈ actions, Adding action)
    (wakes : EveryStep (runningStep order) RunningWakes (runningStart conf files listeners) actions)
    (reached : runSteps (runningStep order) (runningStart conf files listeners) actions =
      some final) : SerialAlong order conf files actions final := by
  obtain ⟨inv, works⟩ := runningInv_run actions (runningInv_start order conf files listeners)
    adding wakes reached
  have arrived (listener device : Nat) : madeFor final.service.works listener device =
      dueAlong order conf actions listener device := works listener device
  have placed {device : Nat} (inside : device < final.conf.devices.length) :
      device < (serverSite final.conf files).devices.length := by
    rw [serverSite_length]
    exact inside
  refine ⟨inv.service.site, inv.service.sent, inv.service.answered, ?_, ?_⟩
  · intro listener device inside
    rw [← arrived]
    exact inv.service.handledFrom_prefix listener (placed inside)
  · intro quiet listener device inside
    rw [← arrived]
    exact inv.service.handledFrom_quiet quiet listener (placed inside)

/-- A query arrives for the only device, another device is added, and both answer a second query. -/
def addedRun : List RunningAction :=
  [.serve (.arrive 0 queryEntry), .serve (.insert 0 1), .serve (.finish 0),
    .request ⟨grantingEnv, .targetAdd (slotRequest 1 2 "eth0")⟩] ++ queryRun.map .serve ++
    [.serve (.turn 0 .lock), .serve (.turn 0 .unlink), .serve (.process 0 silent)]

theorem addedRun_action {action : RunningAction} (member : action ∈ addedRun) :
    Adding action ∧ ∀ running, RunningWakes running action := by
  simp only [addedRun, queryRun, List.map_cons, List.map_nil, List.cons_append, List.nil_append,
    List.mem_cons, List.not_mem_nil, or_false] at member
  rcases member with rfl | rfl | rfl | rfl | rfl | rfl | rfl | rfl | rfl | rfl | rfl | rfl | rfl |
    rfl | rfl | rfl | rfl
  all_goals refine ⟨?_, fun running => trivial⟩
  all_goals first
    | trivial
    | exact ⟨fun _ => Request.noConfusion, fun _ => Request.noConfusion, fun _ => Request.noConfusion⟩

theorem additions_serial_addedRun :
    ∃ final, runSteps (runningStep .little) (runningStart oneTarget (fun _ => []) 1) addedRun =
        some final ∧
      SerialAlong .little oneTarget (fun _ => []) addedRun final := by
  have runs : (runSteps (runningStep .little) (runningStart oneTarget (fun _ => []) 1)
      addedRun).isSome = true := by
    decide +kernel
  obtain ⟨final, reached⟩ := Option.isSome_iff_exists.mp runs
  refine ⟨final, reached, additions_serial .little oneTarget _ 1 addedRun final ?_ ?_ reached⟩
  · exact fun action member => (addedRun_action member).1
  · exact everyStep_of_always fun action member => (addedRun_action member).2

end Qaoed.Daemon
