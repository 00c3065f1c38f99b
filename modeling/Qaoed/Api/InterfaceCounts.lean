import Qaoed.Api.Removal
import Qaoed.Config.Attachment

/-!
# Counting the devices of an interface

A device that is started raises the count of its interface, and one that is removed
should lower it. The counts match the device list from the start on and through every
request to add a target, and stop matching it with the first target that is removed.
-/

namespace Qaoed.Api

open Qaoed.Device
open Qaoed.Library
open Qaoed.Config

/-- The devices that are attached to the interface at a position. -/
def attachedTo (position : Nat) (devices : List Devconf) : Nat :=
  devices.countP fun device => device.interface = some position

/-- Every interface counts the devices that are attached to it. -/
def Matches (intlist : List Interface) (devices : List Devconf) : Prop :=
  ∀ (position : Nat) interface, intlist[position]? = some interface →
    interface.refcnt = attachedTo position devices

def RefcntsMatch (conf : Conf) : Prop := Matches conf.intlist conf.devices

/-- Once devices are started every one is attached. -/
structure Attached (conf : Conf) : Prop where
  devices : ∀ device ∈ conf.devices, ∃ position < conf.intlist.length,
    device.interface = some position
  devdefault : ∀ dflt, conf.devdefault = some dflt → Leads conf.intlist.length dflt.interface

/-! ## Starting -/

section Start

variable {position : Nat} {intlist intlist' : List Interface} {devices devices' : List Devconf}

@[simp]
theorem raised_length (position : Nat) (intlist : List Interface) :
    (raised position intlist).length = intlist.length := List.length_modify _ _ _

/-- One more device is attached. -/
theorem Matches.raised (counts : Matches intlist devices) {device : Devconf}
    (attached : device.interface = some position) :
    Matches (Api.raised position intlist) (devices ++ [device]) := by
  intro other interface found
  rw [Api.raised, List.getElem?_modify] at found
  obtain ⟨before, here, rfl⟩ := Option.map_eq_some_iff.mp found
  have count := counts other before here
  unfold attachedTo at count ⊢
  rw [List.countP_append, List.countP_singleton, attached]
  by_cases same : position = other
  · simp [same, count]
  · simp [same, count]

/-- A device with an interface, and the same device with its size. -/
def Starts (before after : Devconf) : Prop :=
  ∃ position size, before.interface = some position ∧ after = { before with size := size }

/-- Devices that are started keep their interfaces, and are counted. -/
theorem startAll_spec {env : Nat → StartEnv}
    (returns : startAll env devices intlist = .ok (some devices', intlist')) :
    List.Forall₂ Starts devices devices' ∧ intlist'.length = intlist.length ∧
      ∀ earlier, Matches intlist earlier → Matches intlist' (earlier ++ devices') := by
  induction devices generalizing env intlist devices' with
  | nil =>
      cases returns
      refine ⟨List.Forall₂.nil, rfl, ?_⟩
      intro earlier counts
      rw [List.append_nil]
      exact counts
  | cons device next ih =>
      obtain ⟨⟨result, middle⟩, first, returns⟩ := bind_eq_ok.mp returns
      rcases qaoedStartdevice_spec first with
        ⟨rfl, _⟩ | ⟨position, size, attached, rfl, rfl⟩
      · cases returns
      · obtain ⟨⟨others, last⟩, rest, returned⟩ := bind_eq_ok.mp returns
        cases others with
        | none => cases returned
        | some others =>
            cases returned
            obtain ⟨along, length, counted⟩ := ih rest
            rw [raised_length] at length
            refine ⟨List.Forall₂.cons ⟨position, size, attached, rfl⟩ along, length, ?_⟩
            intro earlier counts
            have onward : Matches _ (earlier ++ [{ device with size := size }]) :=
              counts.raised attached
            have counted' := counted _ onward
            rwa [List.append_assoc] at counted'

theorem qaoedDevices_spec {env : Nat → StartEnv} {conf started : Conf}
    (starts : qaoedDevices env conf = .ok (some started)) :
    ∃ devices intlist, started = { conf with devices := devices, intlist := intlist } ∧
      List.Forall₂ Starts conf.devices devices ∧ intlist.length = conf.intlist.length ∧
      ∀ earlier, Matches conf.intlist earlier → Matches intlist (earlier ++ devices) := by
  unfold qaoedDevices at starts
  split_ifs at starts with empty
  · cases starts
  · obtain ⟨⟨result, intlist⟩, all, returned⟩ := bind_eq_ok.mp starts
    cases result with
    | none => cases returned
    | some devices =>
        cases returned
        exact ⟨devices, intlist, rfl, startAll_spec all⟩

/-- The counts match once the devices have been started. -/
theorem qaoedDevices_matches {env : Nat → StartEnv} {conf started : Conf} (fresh : Fresh conf)
    (starts : qaoedDevices env conf = .ok (some started)) :
    RefcntsMatch started ∧ Attached started := by
  obtain ⟨devices, intlist, rfl, along, length, counted⟩ := qaoedDevices_spec starts
  have blank : Matches conf.intlist [] := by
    intro position interface found
    exact fresh.refcnts interface (List.mem_of_getElem? found)
  refine ⟨counted [] blank, ?_, ?_⟩
  · intro device member
    obtain ⟨index, found⟩ := List.mem_iff_getElem?.mp member
    obtain ⟨before, there, position, size, attached, rfl⟩ := forall₂_getElem? along.flip found
    refine ⟨position, ?_, attached⟩
    show position < intlist.length
    rw [length]
    exact fresh.devices before (List.mem_of_getElem? there) position attached
  · intro dflt has position attached
    show position < intlist.length
    rw [length]
    exact fresh.devdefault dflt has position attached

end Start

/-! ## Requests -/

section Step

variable {env : ApiEnv} {conf conf' : Conf} {target : TargetInfo}

theorem referenceint_lt {name : CString} {intlist : List Interface} {position : Nat}
    (found : referenceint name intlist = some position) : position < intlist.length := by
  obtain ⟨index, _, rfl⟩ := Option.map_eq_some_iff.mp found
  exact Nat.lt_of_lt_of_eq index.isLt (List.length_map _)

theorem newDevice_leads : Leads conf.intlist.length (newDevice conf.intlist target).interface := by
  intro position attached
  unfold newDevice at attached
  dsimp only at attached
  split at attached
  · cases attached
  · exact referenceint_lt attached

theorem Attached.of_leaves (leaves : Leaves conf conf') (attached : Attached conf) :
    Attached conf' := by
  refine ⟨?_, ?_⟩
  · rw [leaves.devices, leaves.intlist]
    exact attached.devices
  · intro dflt has position place
    have same := leaves.interface
    rw [has] at same
    obtain ⟨before, had, interface⟩ := Option.map_eq_some_iff.mp same.symm
    rw [leaves.intlist]
    exact attached.devdefault before had position (interface.trans place)

theorem RefcntsMatch.of_leaves (leaves : Leaves conf conf') (counts : RefcntsMatch conf) :
    RefcntsMatch conf' := by
  unfold RefcntsMatch
  rw [leaves.devices, leaves.intlist]
  exact counts

theorem Adds.matches_ {added : Devconf} {position : Nat}
    (adds : Adds env conf target conf' added position) (counts : RefcntsMatch conf) :
    RefcntsMatch conf' := by
  obtain ⟨_, _, _, _, _, rfl⟩ := adds.started
  exact counts.raised adds.attached

theorem Checked.leads {newdevice : Devconf} {devdefault : Option Devconf}
    (checked : Checked env conf target newdevice devdefault) (attached : Attached conf) :
    Leads conf.intlist.length newdevice.interface := by
  rw [(qaoedDevdefaults_interface checked.defaults).1]
  exact newDevice_leads.or (Leads.bind attached.devdefault)

theorem Adds.attachedAll {added : Devconf} {position : Nat}
    (adds : Adds env conf target conf' added position) (attached : Attached conf) :
    Attached conf' := by
  obtain ⟨newdevice, size, devdefault, rfl, checked, rfl⟩ := adds.started
  have same := (qaoedDevdefaults_interface checked.defaults).2
  have leads := checked.leads attached
  refine ⟨?_, ?_⟩
  · intro device member
    show ∃ place < (raised position conf.intlist).length, _
    rw [raised_length]
    rcases List.mem_append.mp member with old | new
    · exact attached.devices device old
    · rw [List.mem_singleton.mp new]
      exact ⟨position, leads position adds.attached, adds.attached⟩
  · intro dflt has place attachedDflt
    have kept : devdefault = some dflt := has
    show place < (raised position conf.intlist).length
    rw [raised_length]
    rw [kept] at same
    obtain ⟨before, had, interface⟩ := Option.map_eq_some_iff.mp same.symm
    exact attached.devdefault before had place (interface.trans attachedDflt)

/-- The list without a device that its interface still counts. -/
theorem without_mismatch (counts : RefcntsMatch conf) (attached : Attached conf)
    (one : matching conf target = 1) : ¬ RefcntsMatch (without conf target) := by
  obtain ⟨device, member, selects⟩ := List.countP_pos_iff.mp (Nat.lt_of_lt_of_eq Nat.one_pos one.symm)
  obtain ⟨position, inside, place⟩ := attached.devices device member
  have found := List.getElem?_eq_getElem inside
  intro counts'
  have before := counts position _ found
  have after := counts' position _ found
  have split := List.countP_eq_countP_filter_add conf.devices
    (fun device => decide (device.interface = some position)) (target.selects conf.intlist)
  have gone : 0 < attachedTo position (conf.devices.filter (target.selects conf.intlist)) :=
    List.countP_pos_iff.mpr ⟨device, List.mem_filter.mpr ⟨member, selects⟩, decide_eq_true place⟩
  unfold attachedTo at before gone
  rw [before] at after
  unfold attachedTo without at after
  dsimp only at after
  omega

theorem without_attached (attached : Attached conf) : Attached (without conf target) where
  devices device member := attached.devices device (List.mem_of_mem_filter member)
  devdefault := attached.devdefault

end Step

/-! ## Runs -/

/-- A request to add or to remove a target. -/
def AddsOrRemoves (call : Call) : Prop :=
  ∃ target, call.request = .targetAdd target ∨ call.request = .targetDel target

/-- A request is handled that removes a target. -/
def HandlesRemoval (daemon : Daemon) (call : Call) : Prop :=
  daemon.stopped = none ∧ ∃ target, call.request = .targetDel target ∧ matching daemon.conf target = 1

section Run

variable {daemon : Daemon} {call : Call}

/-- What one request does to the configuration. -/
theorem addsOrRemoves_cases (kind : AddsOrRemoves call) :
    (Leaves daemon.conf (apiThread.next daemon call).conf ∧ ¬ HandlesRemoval daemon call) ∨
      (∃ target added position,
        Adds call.env daemon.conf target (apiThread.next daemon call).conf added position ∧
          ¬ HandlesRemoval daemon call) ∨
      ∃ target, matching daemon.conf target = 1 ∧
        (apiThread.next daemon call).conf = without daemon.conf target ∧ HandlesRemoval daemon call := by
  obtain ⟨conf, stopped⟩ := daemon
  obtain ⟨env, request⟩ := call
  cases stopped with
  | some stop => exact Or.inl ⟨⟨rfl, rfl, rfl, rfl, rfl⟩, fun handles => nomatch handles.1⟩
  | none =>
      obtain ⟨target, rfl | rfl⟩ := kind
      · have adding : ¬ HandlesRemoval ⟨conf, none⟩ ⟨env, .targetAdd target⟩ := by
          rintro ⟨_, other, same, _⟩
          cases same
        rcases processTargetAdd_cases env conf target with leaves | ⟨added, position, adds⟩
        · exact Or.inl ⟨leaves, adding⟩
        · exact Or.inr (Or.inl ⟨target, added, position, adds, adding⟩)
      · by_cases one : matching conf target = 1
        · refine Or.inr (Or.inr ⟨target, one, ?_, rfl, target, rfl, one⟩)
          show (processTargetDel env conf target).conf = without conf target
          rw [processTargetDel_selected one]
          split <;> rfl
        · have refused : (processTargetDel env conf target).conf = conf := by
            rw [processTargetDel_refused one]
          have leaves : Leaves conf (processTargetDel env conf target).conf := by
            rw [refused]
            exact ⟨rfl, rfl, rfl, rfl, rfl⟩
          refine Or.inl ⟨leaves, ?_⟩
          rintro ⟨_, other, same, selected⟩
          cases same
          exact one selected

theorem attached_step (kind : AddsOrRemoves call) (attached : Attached daemon.conf) :
    Attached (apiThread.next daemon call).conf := by
  rcases addsOrRemoves_cases kind with
    ⟨leaves, _⟩ | ⟨_, _, _, adds, _⟩ | ⟨target, _, removed, _⟩
  · exact attached.of_leaves leaves
  · exact adds.attachedAll attached
  · rw [removed]
    exact without_attached attached

theorem refcntsMatch_step_iff (kind : AddsOrRemoves call) (counts : RefcntsMatch daemon.conf)
    (attached : Attached daemon.conf) :
    RefcntsMatch (apiThread.next daemon call).conf ↔ ¬ HandlesRemoval daemon call := by
  rcases addsOrRemoves_cases kind with
    ⟨leaves, other⟩ | ⟨_, _, _, adds, other⟩ | ⟨target, one, removed, handles⟩
  · exact iff_of_true (counts.of_leaves leaves) other
  · exact iff_of_true (adds.matches_ counts) other
  · refine iff_of_false ?_ (not_not.mpr handles)
    rw [removed]
    exact without_mismatch counts attached one

/-- The counts match all along a run exactly if no request removes a target. -/
theorem refcntsMatch_run_iff {daemon : Daemon} (counts : RefcntsMatch daemon.conf)
    (attached : Attached daemon.conf) {calls : List Call} (kind : ∀ call ∈ calls, AddsOrRemoves call) :
    (∀ earlier, earlier <+: calls → RefcntsMatch (apiThread.run daemon earlier).conf) ↔
      ∀ visit ∈ apiThread.visits daemon calls, ¬ HandlesRemoval visit.state visit.input := by
  have both : (∀ earlier, earlier <+: calls → RefcntsMatch (apiThread.run daemon earlier).conf ∧
        Attached (apiThread.run daemon earlier).conf) ↔ _ :=
    apiThread.prefixes_invariant_iff_of_mem (fun daemon => RefcntsMatch daemon.conf ∧ Attached daemon.conf)
      (fun daemon call => ¬ HandlesRemoval daemon call) calls ⟨counts, attached⟩ (by
        rintro daemon call member ⟨counts, attached⟩
        rw [refcntsMatch_step_iff (kind call member) counts attached]
        exact and_iff_left (attached_step (kind call member) attached))
  rw [← both]
  refine forall₂_congr fun earlier part => (and_iff_left ?_).symm
  apply apiThread.run_invariant (fun daemon => Attached daemon.conf) attached
  intro daemon call member
  exact attached_step (kind call (part.subset member))

/-- The daemon from its file on. -/
theorem daemon_refcntsMatch_iff {loadEnv : LoadEnv} {c : Cfg} {startEnv : Nat → StartEnv}
    {conf started : Conf} (loads : qaoedLoadconfig loadEnv c = .ok conf)
    (starts : qaoedDevices startEnv conf = .ok (some started)) {calls : List Call}
    (kind : ∀ call ∈ calls, AddsOrRemoves call) :
    (∀ earlier, earlier <+: calls → RefcntsMatch (apiThread.run ⟨started, none⟩ earlier).conf) ↔
      ∀ visit ∈ apiThread.visits ⟨started, none⟩ calls, ¬ HandlesRemoval visit.state visit.input := by
  obtain ⟨counts, attached⟩ := qaoedDevices_matches (fresh_of_loads loads) starts
  exact refcntsMatch_run_iff counts attached kind

end Run

/-- A request does to a well linked list what is asked exactly if it does not select one
device whose thread is then cancelled; and the counts of the interfaces, which match once
the devices are started, match until a target is removed. -/
theorem targetDel_correct_iff (env : ApiEnv) (list : DoublyLinked Devconf)
    (nodes : List (Nat × Devconf)) (intlist : List Interface) (target : TargetInfo)
    (startEnv : Nat → StartEnv) (conf started : Conf) (calls : List Call)
    (linked : list.Linked nodes) (fresh : Fresh conf)
    (starts : qaoedDevices startEnv conf = .ok (some started))
    (kind : ∀ call ∈ calls, AddsOrRemoves call) :
    (DelCorrect env list nodes intlist target ↔
      ¬ (selected nodes intlist target = 1 ∧ env.cancel = 0)) ∧
    ((∀ earlier, earlier <+: calls → RefcntsMatch (apiThread.run ⟨started, none⟩ earlier).conf) ↔
      ∀ visit ∈ apiThread.visits ⟨started, none⟩ calls, ¬ HandlesRemoval visit.state visit.input) := by
  obtain ⟨counts, attached⟩ := qaoedDevices_matches fresh starts
  exact ⟨delCorrect_iff linked, refcntsMatch_run_iff counts attached kind⟩

/-! ## One target -/

/-- A target of shelf 1 and slot 1 on the only interface. -/
def onlyDevice : Devconf :=
  { blankDEV with devicename := some (text "/dev/sda"), shelf := 1, slot := 1, interface := some 0 }

def oneTarget : Conf where
  loglist := [createdefaultlog]
  intlist := [⟨⟨text "eth0", none, 1500, 1518, some ⟨text "default", .syslog⟩⟩, 0⟩]
  devdefault := none
  devices := [onlyDevice]
  acllist := []

/-- The device list in memory. -/
def onlyDeviceLinked : DoublyLinked Devconf where
  heap address := if address = 0 then some ⟨onlyDevice, none, none⟩ else none
  head := some 0

theorem onlyDeviceLinked_linked : onlyDeviceLinked.Linked [(0, onlyDevice)] :=
  .singleton rfl rfl

def startGranted : Nat → StartEnv := fun _ => grantingEnv.start

def slotRequest (shelf : UInt16) (slot : UInt8) (ifname : String) : TargetInfo :=
  ⟨text "/dev/sdb", shelf, slot, text ifname, 0, 1⟩

theorem targetDel_correct_iff_oneTarget :
    DelCorrect grantingEnv onlyDeviceLinked [(0, onlyDevice)] oneTarget.intlist (slotRequest 1 2 "") ∧
    ∃ started, qaoedDevices startGranted oneTarget = .ok (some started) ∧
      ∀ earlier, earlier <+: [Call.mk grantingEnv (.targetAdd (slotRequest 1 2 "eth0"))] →
        RefcntsMatch (apiThread.run ⟨started, none⟩ earlier).conf := by
  have fresh : Fresh oneTarget := by
    refine ⟨?_, ?_, fun _ none => nomatch none⟩
    · intro interface member
      rw [List.mem_singleton.mp member]
    · intro device member position attached
      rw [List.mem_singleton.mp member] at attached
      cases attached
      exact Nat.one_pos
  have kind : ∀ call ∈ [Call.mk grantingEnv (.targetAdd (slotRequest 1 2 "eth0"))],
      AddsOrRemoves call := by
    intro call member
    rw [List.mem_singleton.mp member]
    exact ⟨_, Or.inl rfl⟩
  obtain ⟨request, run⟩ := targetDel_correct_iff grantingEnv onlyDeviceLinked [(0, onlyDevice)]
    oneTarget.intlist (slotRequest 1 2 "") startGranted oneTarget _ _ onlyDeviceLinked_linked fresh
    rfl kind
  refine ⟨request.mpr (by decide), _, rfl, run.mpr ?_⟩
  intro visit member
  rw [List.mem_singleton.mp member]
  rintro ⟨_, target, removal, _⟩
  cases removal

/-- Removing the target unlinks it and takes the daemon down: no reply is sent, and the
interface still counts the device. -/
theorem removal_crashes :
    ¬ DelCorrect grantingEnv onlyDeviceLinked [(0, onlyDevice)] oneTarget.intlist (slotRequest 1 1 "") ∧
    (processTargetDel grantingEnv oneTarget (slotRequest 1 1 "")).stopped = some .crash ∧
    ∃ started, qaoedDevices startGranted oneTarget = .ok (some started) ∧
      ¬ RefcntsMatch (apiThread.run ⟨started, none⟩
        [⟨grantingEnv, .targetDel (slotRequest 1 1 "")⟩]).conf := by
  refine ⟨?_, rfl, _, rfl, ?_⟩
  · rw [delCorrect_iff onlyDeviceLinked_linked]
    decide
  · intro counts
    cases counts 0 _ rfl

end Qaoed.Api
