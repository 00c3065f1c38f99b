import Qaoed.Api.Addresses
import Qaoed.Network.Dispatch

/-!
# Values that a new target lacks

In a request 0xffff and 0xff stand for a shelf and a slot that the default device is
to supply, and on the wire for all targets. The check of a configuration refuses a
device that is left with them, or without an interface; a request to add a target
starts it.
-/

namespace Qaoed.Api

open Qaoed.Device
open Qaoed.Library
open Qaoed.Config
open Qaoed.Network

/-- What the check of a configuration asks of each device alone. -/
structure Complete (device : Devconf) : Prop where
  interface : device.interface ≠ none
  slot : device.slot ≠ 0xff
  shelf : device.shelf ≠ 0xffff

/-- Every device is complete; none has the address of a broadcast, which goes to each
device once. -/
structure AllComplete (conf : Conf) : Prop where
  devices : ∀ device ∈ conf.devices, Complete device
  address : ∀ device ∈ conf.devices, isBroadcast device.shelf device.slot = false
  once : ∀ shelf slot, isBroadcast shelf slot = true →
    recipients conf.toQconfig.devices shelf slot = conf.toQconfig.devices

theorem allComplete_iff {conf : Conf} :
    AllComplete conf ↔ ∀ device ∈ conf.devices, Complete device := by
  constructor
  · exact AllComplete.devices
  · intro complete
    have address (device : Devconf) (member : device ∈ conf.devices) :
        isBroadcast device.shelf device.slot = false := by
      unfold isBroadcast
      rw [beq_false_of_ne (complete device member).shelf, Bool.false_and]
    refine ⟨complete, address, ?_⟩
    intro shelf slot broadcast
    have none : addressed conf.toQconfig.devices shelf slot = [] := by
      apply List.filter_eq_nil_iff.mpr
      intro device member same
      obtain ⟨original, listed, rfl⟩ := List.mem_map.mp member
      obtain ⟨here, there⟩ := Bool.and_eq_true _ _ ▸ same
      have other := address original listed
      rw [← eq_of_beq here, ← eq_of_beq there] at broadcast
      exact absurd broadcast (Bool.eq_false_iff.mp other)
    rw [recipients, none, if_pos broadcast, List.nil_append]

theorem allComplete_of_accepted {stat : CString → Option Mode} {conf : Conf}
    (accepted : qaoedValidateconfig stat conf.toQconfig = 0) : AllComplete conf := by
  obtain ⟨_, _, _, interfaces, addresses, _⟩ := qaoedValidateconfig_accepted accepted
  rw [allComplete_iff]
  intro device member
  have listed : device.deref conf.acllist ∈ conf.toQconfig.devices := List.mem_map_of_mem member
  have attached := List.any_eq_false.mp interfaces _ listed
  have given := List.any_eq_false.mp addresses _ listed
  rw [Bool.or_eq_true, not_or, beq_iff_eq, beq_iff_eq] at given
  refine ⟨?_, given.1, given.2⟩
  intro none
  exact attached (Option.isNone_iff_eq_none.mpr none)

/-! ## The values of a new device -/

/-- The interface of the name in the request, or of the default device. -/
def interfaceOf (conf : Conf) (target : TargetInfo) : Option Nat :=
  (newDevice conf.intlist target).interface.or (conf.devdefault.bind fun dflt => dflt.interface)

def shelfOf (conf : Conf) (target : TargetInfo) : UInt16 :=
  if target.shelf = 0xffff then (conf.devdefault.map fun dflt => dflt.shelf).getD 0xffff
  else target.shelf

def slotOf (conf : Conf) (target : TargetInfo) : UInt8 :=
  if target.slot = 0xff then (conf.devdefault.map fun dflt => dflt.slot).getD 0xff else target.slot

section Add

variable {env : ApiEnv} {conf : Conf} {target : TargetInfo} {newdevice : Devconf}
  {devdefault : Option Devconf}

theorem Checked.interface (checked : Checked env conf target newdevice devdefault) :
    newdevice.interface = interfaceOf conf target :=
  (qaoedDevdefaults_interface checked.defaults).1

theorem Checked.shelf (checked : Checked env conf target newdevice devdefault) :
    newdevice.shelf = shelfOf conf target :=
  (qaoedDevdefaults_address checked.defaults).1

theorem Checked.slot (checked : Checked env conf target newdevice devdefault) :
    newdevice.slot = slotOf conf target :=
  (qaoedDevdefaults_address checked.defaults).2

theorem Checked.named (checked : Checked env conf target newdevice devdefault) :
    newdevice.devicename.isSome = true := by
  rw [(qaoedDevdefaults_spec checked.defaults).1.devicename]
  rfl

theorem Checked.unique (checked : Checked env conf target newdevice devdefault)
    {other : Devconf} {otherdefault : Option Devconf}
    (checked' : Checked env conf target other otherdefault) : other = newdevice := by
  have same := checked.defaults.symm.trans checked'.defaults
  cases same
  rfl

/-- A device that passes the checks is on the list exactly if its worker is started. -/
theorem Checked.devices {position : Nat} (checked : Checked env conf target newdevice devdefault)
    (attached : newdevice.interface = some position) :
    (processTargetAdd env conf target).conf.devices =
      conf.devices ++ if env.start.reachesWorker && env.start.threadCreated then
        [{ newdevice with size := env.start.exported }] else [] := by
  obtain ⟨intlist', starts⟩ := qaoedStartdevice_attached checked.named attached
  rw [checked.handled]
  dsimp only
  rw [starts]
  cases env.start.reachesWorker && env.start.threadCreated with
  | false => exact (List.append_nil _).symm
  | true =>
      simp only [↓reduceIte]
      split
      · rfl
      · rfl

/-- Without an interface a device does not get on the list. -/
theorem processTargetAdd_kept (kept : ∀ newdevice devdefault,
      Checked env conf target newdevice devdefault → newdevice.interface = none) :
    (processTargetAdd env conf target).conf.devices = conf.devices := by
  rcases processTargetAdd_cases env conf target with leaves | ⟨added, position, adds⟩
  · exact leaves.devices
  · obtain ⟨newdevice, size, devdefault, rfl, checked, _⟩ := adds.started
    have attached : newdevice.interface = some position := adds.attached
    rw [kept newdevice devdefault checked] at attached
    cases attached

/-- Behind the checks only starting the device, and reporting it, can stop the daemon. -/
theorem Checked.stopped (checked : Checked env conf target newdevice devdefault) :
    (processTargetAdd env conf target).stopped =
      match qaoedStartdevice env.start newdevice conf.intlist with
      | .error stop => some stop
      | .ok (none, _) => none
      | .ok (some newdevice, intlist) =>
          match targetInfo intlist newdevice with
          | .error stop => some stop
          | .ok _ => none := by
  rw [checked.handled]
  dsimp only
  cases qaoedStartdevice env.start newdevice conf.intlist with
  | error stop => rfl
  | ok result =>
      obtain ⟨started, intlist⟩ := result
      cases started with
      | none => rfl
      | some device =>
          dsimp only
          cases targetInfo intlist device with
          | error stop => rfl
          | ok info => rfl

/-- With names to compare the loop over the devices gets to its end. -/
theorem slotTaken_returns {devices : List Devconf}
    (named : ∀ device ∈ devices, device.devicename.isSome = true)
    (newNamed : newdevice.devicename.isSome = true) :
    ∃ taken, slotTaken newdevice devices = .ok taken := by
  obtain ⟨newname, hasNewname⟩ := Option.isSome_iff_exists.mp newNamed
  induction devices with
  | nil => exact ⟨false, rfl⟩
  | cons device next ih =>
      obtain ⟨taken, rest⟩ := ih fun other member => named other (List.mem_cons_of_mem _ member)
      obtain ⟨name, hasName⟩ := Option.isSome_iff_exists.mp (named device List.mem_cons_self)
      rw [slotTaken, hasName, hasNewname, rest]
      unfold follow
      dsimp only
      split_ifs
      · exact ⟨true, rfl⟩
      · exact ⟨true, rfl⟩
      · exact ⟨taken, rfl⟩
      · exact ⟨taken, rfl⟩

theorem targetInfo_returns {intlist : List Interface} {device : Devconf} {position : Nat}
    (named : device.devicename.isSome = true) (attached : device.interface = some position)
    (inside : position < intlist.length) : ∃ info, targetInfo intlist device = .ok info := by
  obtain ⟨name, hasName⟩ := Option.isSome_iff_exists.mp named
  unfold targetInfo
  rw [hasName, attached, Option.bind_some, List.getElem?_eq_getElem inside]
  exact ⟨_, rfl⟩

end Add

/-! ## Requests -/

def IsAdd (call : Call) : Prop := ∃ target, call.request = .targetAdd target

/-- The handler starts a device without an interface, and follows the NULL pointer. -/
def FollowsNull (daemon : Daemon) (call : Call) : Prop :=
  daemon.stopped = none ∧ ∃ target newdevice devdefault, call.request = .targetAdd target ∧
    Checked call.env daemon.conf target newdevice devdefault ∧ newdevice.interface = none ∧
    qaoedStartdevice call.env.start newdevice daemon.conf.intlist = .error .crash

/-- The handler starts a device without a shelf or a slot. -/
def ServesIncomplete (daemon : Daemon) (call : Call) : Prop :=
  daemon.stopped = none ∧ ∃ target newdevice devdefault, call.request = .targetAdd target ∧
    Checked call.env daemon.conf target newdevice devdefault ∧ newdevice.interface ≠ none ∧
    (call.env.start.reachesWorker && call.env.start.threadCreated) = true ∧
    (newdevice.shelf = 0xffff ∨ newdevice.slot = 0xff)

/-- A request is handled that passes the checks and gets as far as the worker, and for
which there is no interface, or a worker, but no shelf or no slot. -/
def HandlesIncomplete (daemon : Daemon) (call : Call) : Prop :=
  daemon.stopped = none ∧ ∃ target, call.request = .targetAdd target ∧
    (∃ newdevice devdefault, Checked call.env daemon.conf target newdevice devdefault) ∧
    call.env.start.reachesWorker = true ∧
    (interfaceOf daemon.conf target = none ∨ call.env.start.threadCreated = true ∧
      (shelfOf daemon.conf target = 0xffff ∨ slotOf daemon.conf target = 0xff))

section Step

variable {daemon : Daemon} {call : Call}

theorem handlesIncomplete_iff :
    HandlesIncomplete daemon call ↔ FollowsNull daemon call ∨ ServesIncomplete daemon call := by
  constructor
  · rintro ⟨runs, target, request, ⟨newdevice, devdefault, checked⟩, reaches, missing⟩
    rw [← checked.interface, ← checked.shelf, ← checked.slot] at missing
    by_cases unattached : newdevice.interface = none
    · refine Or.inl ⟨runs, target, newdevice, devdefault, request, checked, unattached, ?_⟩
      rw [qaoedStartdevice_unattached checked.named unattached, if_pos reaches]
    · obtain ⟨created, sentinel⟩ := missing.resolve_left unattached
      refine Or.inr ⟨runs, target, newdevice, devdefault, request, checked, unattached, ?_, sentinel⟩
      rw [reaches, created, Bool.and_self]
  · rintro (⟨runs, target, newdevice, devdefault, request, checked, unattached, crashes⟩ |
      ⟨runs, target, newdevice, devdefault, request, checked, _, starts, sentinel⟩)
    · refine ⟨runs, target, request, ⟨newdevice, devdefault, checked⟩, ?_, ?_⟩
      · rw [qaoedStartdevice_unattached checked.named unattached] at crashes
        split_ifs at crashes with reaches
        exact reaches
      · rw [← checked.interface]
        exact Or.inl unattached
    · rw [Bool.and_eq_true] at starts
      refine ⟨runs, target, request, ⟨newdevice, devdefault, checked⟩, starts.1, Or.inr ⟨starts.2, ?_⟩⟩
      rw [← checked.shelf, ← checked.slot]
      exact sentinel

theorem allComplete_of_devices {conf conf' : Conf} (same : conf'.devices = conf.devices)
    (complete : AllComplete conf) : AllComplete conf' := by
  rw [allComplete_iff] at complete ⊢
  rw [same]
  exact complete

theorem allComplete_step_iff (add : IsAdd call) (complete : AllComplete daemon.conf) :
    AllComplete (apiThread.next daemon call).conf ↔ ¬ ServesIncomplete daemon call := by
  obtain ⟨conf, stopped⟩ := daemon
  obtain ⟨env, request⟩ := call
  obtain ⟨target, rfl⟩ := add
  cases stopped with
  | some stop => exact iff_of_true complete fun serves => nomatch serves.1
  | none =>
      show AllComplete (processTargetAdd env conf target).conf ↔ _
      by_cases passes : ∃ newdevice devdefault, Checked env conf target newdevice devdefault ∧
          newdevice.interface ≠ none
      · obtain ⟨newdevice, devdefault, checked, attached⟩ := passes
        obtain ⟨position, interface⟩ := Option.ne_none_iff_exists'.mp attached
        have serves : ServesIncomplete ⟨conf, none⟩ ⟨env, .targetAdd target⟩ ↔
            (env.start.reachesWorker && env.start.threadCreated) = true ∧
              (newdevice.shelf = 0xffff ∨ newdevice.slot = 0xff) := by
          constructor
          · rintro ⟨_, _, other, _, same, checked', _, starts, sentinel⟩
            cases same
            rw [checked.unique checked'] at sentinel
            exact ⟨starts, sentinel⟩
          · rintro ⟨starts, sentinel⟩
            exact ⟨rfl, target, newdevice, devdefault, rfl, checked, attached, starts, sentinel⟩
        have devices := checked.devices interface
        rw [serves]
        by_cases starts : (env.start.reachesWorker && env.start.threadCreated) = true
        · rw [if_pos starts] at devices
          rw [allComplete_iff, devices]
          constructor
          · rintro all ⟨_, sentinel⟩
            have added := all _ (List.mem_append_right _ List.mem_cons_self)
            exact sentinel.elim added.shelf added.slot
          · intro allowed device member
            rcases List.mem_append.mp member with old | new
            · exact complete.devices device old
            · rw [List.mem_singleton.mp new]
              exact ⟨attached, fun slot => allowed ⟨starts, Or.inr slot⟩,
                fun shelf => allowed ⟨starts, Or.inl shelf⟩⟩
        · rw [if_neg starts, List.append_nil] at devices
          exact iff_of_true (allComplete_of_devices devices complete) fun both => starts both.1
      · have kept := processTargetAdd_kept fun newdevice devdefault checked =>
          not_not.mp fun attached => passes ⟨newdevice, devdefault, checked, attached⟩
        refine iff_of_true (allComplete_of_devices kept complete) ?_
        rintro ⟨_, _, newdevice, devdefault, same, checked, attached, _⟩
        cases same
        exact passes ⟨newdevice, devdefault, checked, attached⟩

/-- What a configuration has that was loaded and started: the default logging target can
be looked up, devices have names, and pointers lead to interfaces. -/
structure Steady (conf : Conf) : Prop where
  log : ∃ log, referencelog (text "default") conf.loglist = .ok log
  named : ∀ device ∈ conf.devices, device.devicename.isSome = true
  attached : Attached conf

theorem checked_or_returns {env : ApiEnv} {conf : Conf} (steady : Steady conf) (target : TargetInfo) :
    (processTargetAdd env conf target).stopped = none ∨
      ∃ newdevice devdefault, Checked env conf target newdevice devdefault := by
  cases malloc : env.malloc with
  | false =>
      left
      unfold processTargetAdd
      rw [malloc]
      rfl
  | true =>
      obtain ⟨log, found⟩ := steady.log
      obtain ⟨⟨newdevice, devdefault⟩, defaults⟩ : ∃ result, qaoedDevdefaults conf.loglist
          conf.devdefault (newDevice conf.intlist target) = .ok result :=
        qaoedDevdefaults_returns found
      have newNamed : newdevice.devicename.isSome = true := by
        rw [(qaoedDevdefaults_spec defaults).1.devicename]
        rfl
      obtain ⟨taken, search⟩ := slotTaken_returns steady.named newNamed
      cases taken with
      | false => exact Or.inr ⟨newdevice, devdefault, malloc, defaults, search⟩
      | true =>
          left
          unfold processTargetAdd
          rw [malloc, Bool.not_true, if_neg Bool.false_ne_true, defaults]
          dsimp only
          rw [search]

/-- Only a NULL pointer to an interface takes the daemon down. -/
theorem stopped_iff_followsNull (runs : daemon.stopped = none) (add : IsAdd call)
    (steady : Steady daemon.conf) :
    (apiThread.next daemon call).stopped ≠ none ↔ FollowsNull daemon call := by
  obtain ⟨conf, stopped⟩ := daemon
  obtain ⟨env, request⟩ := call
  obtain ⟨target, rfl⟩ := add
  cases runs
  show (processTargetAdd env conf target).stopped ≠ none ↔ _
  constructor
  · intro stops
    obtain ⟨newdevice, devdefault, checked⟩ := (checked_or_returns steady target).resolve_left stops
    rw [checked.stopped] at stops
    cases interface : newdevice.interface with
    | none =>
        rw [qaoedStartdevice_unattached checked.named interface] at stops
        by_cases reaches : env.start.reachesWorker = true
        · refine ⟨rfl, target, newdevice, devdefault, rfl, checked, interface, ?_⟩
          rw [qaoedStartdevice_unattached checked.named interface, if_pos reaches]
        · rw [if_neg reaches] at stops
          exact absurd rfl stops
    | some position =>
        obtain ⟨intlist', starts⟩ : ∃ intlist',
            qaoedStartdevice env.start newdevice conf.intlist = _ :=
          qaoedStartdevice_attached checked.named interface
        rw [starts] at stops
        cases both : env.start.reachesWorker && env.start.threadCreated with
        | false =>
            rw [both] at stops
            exact absurd rfl stops
        | true =>
            have length : intlist'.length = conf.intlist.length := by
              rcases qaoedStartdevice_spec starts with ⟨_, rfl⟩ | ⟨_, _, _, _, rfl⟩
              · rfl
              · exact raised_length _ _
            have inside := checked.leads steady.attached position interface
            obtain ⟨info, reports⟩ : ∃ info,
                targetInfo intlist' { newdevice with size := env.start.exported } = .ok info :=
              targetInfo_returns checked.named interface (Nat.lt_of_lt_of_eq inside length.symm)
            rw [both] at stops
            simp only [↓reduceIte, reports] at stops
            exact absurd rfl stops
  · rintro ⟨_, other, newdevice, devdefault, same, checked, _, crashes⟩
    cases same
    rw [checked.stopped, crashes]
    exact Option.some_ne_none _

theorem steady_step (add : IsAdd call) (steady : Steady daemon.conf) :
    Steady (apiThread.next daemon call).conf := by
  have kind : AddsOrRemoves call := by
    obtain ⟨target, request⟩ := add
    exact ⟨target, Or.inl request⟩
  have attached := attached_step kind steady.attached
  rcases addsOrRemoves_cases kind with
    ⟨leaves, _⟩ | ⟨_, _, _, adds, _⟩ | ⟨_, _, _, _, _, request, _⟩
  · refine ⟨?_, ?_, attached⟩
    · rw [leaves.loglist]
      exact steady.log
    · rw [leaves.devices]
      exact steady.named
  · obtain ⟨newdevice, size, devdefault, rfl, checked, same⟩ := adds.started
    rw [same] at attached ⊢
    refine ⟨steady.log, ?_, attached⟩
    intro device member
    rcases List.mem_append.mp member with old | new
    · exact steady.named device old
    · rw [List.mem_singleton.mp new]
      exact checked.named
  · obtain ⟨other, same⟩ := add
    rw [same] at request
    cases request

theorem steady_started {loadEnv : LoadEnv} {c : Cfg} {env : Nat → StartEnv} {conf started : Conf}
    (loads : qaoedLoadconfig loadEnv c = .ok conf)
    (starts : qaoedDevices env conf = .ok (some started)) : Steady started := by
  obtain ⟨ifconfs, acllist, middle, dflts, devlist, passes⟩ := passes_of_loads loads
  have attached := (qaoedDevices_matches (fresh_of_loads loads) starts).2
  obtain ⟨_, _, targets, _⟩ := qaoedValidateconfig_accepted passes.valid
  obtain ⟨devices, intlist, rfl, along, _⟩ := qaoedDevices_spec starts
  refine ⟨passes.log, ?_, attached⟩
  intro device member
  obtain ⟨index, found⟩ := List.mem_iff_getElem?.mp member
  obtain ⟨before, there, _, _, _, rfl⟩ := forall₂_getElem? along.flip found
  have listed : before.deref conf.acllist ∈ conf.toQconfig.devices :=
    List.mem_map_of_mem (List.mem_of_getElem? there)
  have valid := List.any_eq_false.mp targets _ listed
  show before.devicename.isSome = true
  cases name : before.devicename with
  | some devicename => rfl
  | none =>
      have nameless : (before.deref conf.acllist).devicename = none := name
      rw [targetValid, nameless] at valid
      exact absurd rfl valid

/-- In a run of the daemon requests to add a target take it down just where a NULL pointer
to an interface is followed. -/
theorem daemon_stops_iff {loadEnv : LoadEnv} {c : Cfg} {env : Nat → StartEnv} {conf started : Conf}
    (loads : qaoedLoadconfig loadEnv c = .ok conf)
    (starts : qaoedDevices env conf = .ok (some started)) {calls : List Call}
    (adds : ∀ call ∈ calls, IsAdd call) :
    ∀ visit ∈ apiThread.visits ⟨started, none⟩ calls, visit.state.stopped = none →
      ((apiThread.next visit.state visit.input).stopped ≠ none ↔
        FollowsNull visit.state visit.input) := by
  intro visit member runs
  apply stopped_iff_followsNull runs (adds visit.input (apiThread.input_mem member))
  exact apiThread.visit_invariant (fun daemon => Steady daemon.conf) (steady_started loads starts)
    (fun _ call member => steady_step (adds call member)) member

theorem complete_run_iff {conf : Conf} (start : AllComplete conf) {calls : List Call}
    (adds : ∀ call ∈ calls, IsAdd call) :
    ((∀ earlier, earlier <+: calls → AllComplete (apiThread.run ⟨conf, none⟩ earlier).conf) ∧
        ∀ visit ∈ apiThread.visits ⟨conf, none⟩ calls, ¬ FollowsNull visit.state visit.input) ↔
      ∀ visit ∈ apiThread.visits ⟨conf, none⟩ calls, ¬ HandlesIncomplete visit.state visit.input := by
  have complete : (∀ earlier, earlier <+: calls →
      AllComplete (apiThread.run ⟨conf, none⟩ earlier).conf) ↔ _ :=
    apiThread.prefixes_invariant_iff_of_mem (fun daemon => AllComplete daemon.conf)
      (fun daemon call => ¬ ServesIncomplete daemon call) calls start
      fun daemon call member => allComplete_step_iff (adds call member)
  rw [complete, and_comm, ← forall₂_and]
  refine forall₂_congr fun visit _ => ?_
  rw [handlesIncomplete_iff, not_or]

/-- Starting the devices gives them their sizes. -/
theorem allComplete_started {env : Nat → StartEnv} {conf started : Conf}
    (complete : AllComplete conf) (starts : qaoedDevices env conf = .ok (some started)) :
    AllComplete started := by
  obtain ⟨devices, intlist, rfl, along, _⟩ := qaoedDevices_spec starts
  rw [allComplete_iff] at complete ⊢
  intro device member
  obtain ⟨index, found⟩ := List.mem_iff_getElem?.mp member
  obtain ⟨before, there, _, _, _, rfl⟩ := forall₂_getElem? along.flip found
  have whole := complete before (List.mem_of_getElem? there)
  exact ⟨whole.interface, whole.slot, whole.shelf⟩

/-- The daemon from its start on. -/
theorem daemon_complete_iff {stat : CString → Option Mode} {env : Nat → StartEnv}
    {conf started : Conf} (accepted : qaoedValidateconfig stat conf.toQconfig = 0)
    (starts : qaoedDevices env conf = .ok (some started)) {calls : List Call}
    (adds : ∀ call ∈ calls, IsAdd call) :
    ((∀ earlier, earlier <+: calls → AllComplete (apiThread.run ⟨started, none⟩ earlier).conf) ∧
        ∀ visit ∈ apiThread.visits ⟨started, none⟩ calls, ¬ FollowsNull visit.state visit.input) ↔
      ∀ visit ∈ apiThread.visits ⟨started, none⟩ calls,
        ¬ HandlesIncomplete visit.state visit.input :=
  complete_run_iff (allComplete_started (allComplete_of_accepted accepted) starts) adds

end Step

/-- From an accepted configuration on every device is complete, and no NULL pointer to an
interface is followed, exactly if no request is handled that lacks one of the values. -/
theorem targets_complete_iff (stat : CString → Option Mode) (conf : Conf)
    (accepted : qaoedValidateconfig stat conf.toQconfig = 0) (calls : List Call)
    (adds : ∀ call ∈ calls, IsAdd call) :
    ((∀ earlier, earlier <+: calls → AllComplete (apiThread.run ⟨conf, none⟩ earlier).conf) ∧
        ∀ visit ∈ apiThread.visits ⟨conf, none⟩ calls, ¬ FollowsNull visit.state visit.input) ↔
      ∀ visit ∈ apiThread.visits ⟨conf, none⟩ calls, ¬ HandlesIncomplete visit.state visit.input :=
  complete_run_iff (allComplete_of_accepted accepted) adds

theorem targets_complete_iff_oneTarget :
    AllComplete (apiThread.run ⟨oneTarget, none⟩
      [⟨grantingEnv, .targetAdd (slotRequest 1 2 "eth0")⟩]).conf ∧
    ¬ FollowsNull ⟨oneTarget, none⟩ ⟨grantingEnv, .targetAdd (slotRequest 1 2 "eth0")⟩ := by
  have adds : ∀ call ∈ [Call.mk grantingEnv (.targetAdd (slotRequest 1 2 "eth0"))], IsAdd call := by
    intro call member
    rw [List.mem_singleton.mp member]
    exact ⟨_, rfl⟩
  have allowed : ∀ visit ∈ apiThread.visits ⟨oneTarget, none⟩
      [⟨grantingEnv, .targetAdd (slotRequest 1 2 "eth0")⟩],
      ¬ HandlesIncomplete visit.state visit.input := by
    intro visit member
    rw [List.mem_singleton.mp member]
    rintro ⟨_, target, request, _, _, missing⟩
    cases request
    rcases missing with unattached | ⟨_, shelf | slot⟩
    · cases unattached
    · cases shelf
    · cases slot
  obtain ⟨complete, follows⟩ :=
    (targets_complete_iff (fun _ => some .reg) oneTarget rfl _ adds).mpr allowed
  exact ⟨complete _ List.prefix_rfl, follows _ List.mem_cons_self⟩

/-- Without a default device a new target is served at the address of a broadcast, which
it gets twice; and one without an interface takes the daemon down. -/
theorem broadcastAddress_served :
    qaoedValidateconfig (fun _ => some .reg) oneTarget.toQconfig = 0 ∧
    (¬ AllComplete (apiThread.run ⟨oneTarget, none⟩
      [⟨grantingEnv, .targetAdd (slotRequest 0xffff 0xff "eth0")⟩]).conf) ∧
    ((recipients (apiThread.run ⟨oneTarget, none⟩
      [⟨grantingEnv, .targetAdd (slotRequest 0xffff 0xff "eth0")⟩]).conf.toQconfig.devices
        0xffff 0xff).map fun device => device.devicename) =
      [some (text "/dev/sdb"), some (text "/dev/sda"), some (text "/dev/sdb")] ∧
    FollowsNull ⟨oneTarget, none⟩ ⟨grantingEnv, .targetAdd (slotRequest 1 2 "")⟩ := by
  refine ⟨rfl, ?_, rfl, rfl, _, _, _, rfl, ⟨rfl, rfl, rfl⟩, rfl, rfl⟩
  intro complete
  have served := complete.devices _ (List.mem_cons_of_mem _ List.mem_cons_self)
  exact served.shelf rfl

end Qaoed.Api
