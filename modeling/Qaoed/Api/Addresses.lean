import Qaoed.Api.InterfaceCounts

/-!
# Shelf and slot of a target

Two devices may share a shelf and a slot if they export one target on different
interfaces. The check of a configuration looks at every pair of devices, a request to
add a target only at the new device and each of the others.
-/

namespace Qaoed.Api

open Qaoed.Device
open Qaoed.Library
open Qaoed.Config

/-- Two devices may be served side by side. -/
def Compatible (device search : Devconf) : Prop :=
  device.shelf = search.shelf → device.slot = search.slot →
    device.devicename = search.devicename ∧ device.interface ≠ search.interface

/-- Any two devices of the list are compatible. Devices are told apart by their position. -/
def Unambiguous (devices : List Devconf) : Prop :=
  ∀ (position position' : Nat) (device search : Devconf), devices[position]? = some device →
    devices[position']? = some search → position ≠ position' → Compatible device search

section Pairs

variable {device search : Devconf} {devices : List Devconf}

theorem Compatible.symm (compatible : Compatible device search) : Compatible search device := by
  intro shelf slot
  obtain ⟨name, interface⟩ := compatible shelf.symm slot.symm
  exact ⟨name.symm, interface.symm⟩

theorem unambiguous_iff_pairwise : Unambiguous devices ↔ devices.Pairwise Compatible := by
  rw [List.pairwise_iff_getElem]
  constructor
  · intro unambiguous position position' inside inside' before
    exact unambiguous position position' _ _ (List.getElem?_eq_getElem inside)
      (List.getElem?_eq_getElem inside') (Nat.ne_of_lt before)
  · intro pairs position position' device search here there apart
    obtain ⟨inside, rfl⟩ := List.getElem?_eq_some_iff.mp here
    obtain ⟨inside', rfl⟩ := List.getElem?_eq_some_iff.mp there
    rcases Nat.lt_or_gt_of_ne apart with before | behind
    · exact pairs position position' inside inside' before
    · exact (pairs position' position inside' inside behind).symm

theorem compatible_iff_not_clash (acllist : List Aclconf) :
    Compatible device search ↔ ¬ Clash (device.deref acllist) (search.deref acllist) := by
  constructor
  · rintro compatible ⟨⟨slot, shelf⟩, conflict⟩
    obtain ⟨name, interface⟩ := compatible shelf slot
    rcases conflict with same | other
    · exact interface same
    · exact other name
  · intro apart shelf slot
    by_contra conflict
    refine apart ⟨⟨slot, shelf⟩, ?_⟩
    by_cases same : device.interface = search.interface
    · exact Or.inl same
    · exact Or.inr fun name => conflict ⟨name, same⟩

/-- The nested loops of the check leave no two devices that clash. -/
theorem unambiguous_of_accepted {stat : CString → Option Mode} {conf : Conf}
    (accepted : qaoedValidateconfig stat conf.toQconfig = 0) : Unambiguous conf.devices := by
  intro position position' device search here there apart
  rw [compatible_iff_not_clash conf.acllist]
  intro clash
  have derefs (place : Nat) : conf.toQconfig.devices[place]? =
      conf.devices[place]?.map (Devconf.deref conf.acllist) := List.getElem?_map
  have here' : conf.toQconfig.devices[position]? = some (device.deref conf.acllist) := by
    rw [derefs, here, Option.map_some]
  have there' : conf.toQconfig.devices[position']? = some (search.deref conf.acllist) := by
    rw [derefs, there, Option.map_some]
  exact apart (position_of_accepted accepted here' there' clash)

end Pairs

/-! ## Requests -/

section Requests

variable {conf conf' : Conf} {devices : List Devconf}

/-- A device that passes the loop is compatible with all others. -/
theorem slotTaken_free {newdevice : Devconf} (free : slotTaken newdevice devices = .ok false) :
    ∀ device ∈ devices, Compatible device newdevice := by
  induction devices with
  | nil =>
      intro device member
      cases member
  | cons first rest ih =>
      have compatible : Compatible first newdevice ∧ slotTaken newdevice rest = .ok false := by
        rw [slotTaken] at free
        by_cases here : first.slot = newdevice.slot ∧ first.shelf = newdevice.shelf
        · rw [if_pos here] at free
          by_cases same : first.interface = newdevice.interface
          · rw [if_pos same] at free
            cases free
          · rw [if_neg same] at free
            obtain ⟨name, named, free⟩ := follow_eq_ok.mp free
            obtain ⟨newname, newnamed, free⟩ := follow_eq_ok.mp free
            by_cases other : name = newname
            · rw [if_neg (not_not.mpr other)] at free
              rw [other] at named
              exact ⟨fun _ _ => ⟨named.trans newnamed.symm, same⟩, free⟩
            · rw [if_pos other] at free
              cases free
        · rw [if_neg here] at free
          exact ⟨fun shelf slot => absurd ⟨slot, shelf⟩ here, free⟩
      intro device member
      rcases List.mem_cons.mp member with rfl | inRest
      · exact compatible.1
      · exact ih compatible.2 device inRest

/-- The new device has the address it was checked with. -/
theorem Adds.unambiguous {env : ApiEnv} {target : TargetInfo} {added : Devconf} {position : Nat}
    (adds : Adds env conf target conf' added position) (before : Unambiguous conf.devices) :
    Unambiguous conf'.devices := by
  obtain ⟨newdevice, size, devdefault, rfl, checked, rfl⟩ := adds.started
  rw [unambiguous_iff_pairwise] at before ⊢
  apply List.pairwise_append.mpr ⟨before, List.pairwise_singleton _ _, ?_⟩
  intro device member search new
  rw [List.mem_singleton.mp new]
  exact slotTaken_free checked.free device member

theorem without_unambiguous (target : TargetInfo) (before : Unambiguous conf.devices) :
    Unambiguous (without conf target).devices := by
  rw [unambiguous_iff_pairwise] at before ⊢
  exact before.filter _

/-- The configuration through one request after the other, whether or not a handler gets
to its end. -/
def deviceListUpdates : Mealy Conf Call Outcome where
  next conf call := (processAPIrequest call.env conf call.request).conf
  out conf call := processAPIrequest call.env conf call.request

theorem unambiguous_step {call : Call} (kind : AddsOrRemoves call)
    (before : Unambiguous conf.devices) : Unambiguous (deviceListUpdates.next conf call).devices := by
  rcases @addsOrRemoves_cases ⟨conf, none⟩ call kind with
    ⟨leaves, _⟩ | ⟨_, _, _, adds, _⟩ | ⟨target, _, removed, _⟩
  · have same : (deviceListUpdates.next conf call).devices = conf.devices := leaves.devices
    rw [same]
    exact before
  · exact adds.unambiguous before
  · have same : deviceListUpdates.next conf call = without conf target := removed
    rw [same]
    exact without_unambiguous target before

theorem apiThread_run_stopped (conf : Conf) (stop : Stop) (calls : List Call) :
    apiThread.run ⟨conf, some stop⟩ calls = ⟨conf, some stop⟩ := by
  induction calls with
  | nil => rfl
  | cons call rest ih => exact ih

/-- The API thread goes through the same configurations, as far as it gets. -/
theorem apiThread_run_conf (conf : Conf) (calls : List Call) :
    ∃ earlier, earlier <+: calls ∧
      (apiThread.run ⟨conf, none⟩ calls).conf = deviceListUpdates.run conf earlier := by
  induction calls generalizing conf with
  | nil => exact ⟨[], List.prefix_rfl, rfl⟩
  | cons call rest ih =>
      have first : apiThread.next ⟨conf, none⟩ call = ⟨deviceListUpdates.next conf call,
          (processAPIrequest call.env conf call.request).stopped⟩ := rfl
      cases stopped : (processAPIrequest call.env conf call.request).stopped with
      | none =>
          obtain ⟨earlier, part, same⟩ := ih (deviceListUpdates.next conf call)
          refine ⟨call :: earlier, List.cons_prefix_cons.mpr ⟨rfl, part⟩, ?_⟩
          rw [Mealy.run, List.foldl_cons, first, stopped]
          exact same
      | some stop =>
          refine ⟨[call], List.cons_prefix_cons.mpr ⟨rfl, List.nil_prefix⟩, ?_⟩
          rw [Mealy.run, List.foldl_cons, first, stopped]
          exact congrArg Daemon.conf (apiThread_run_stopped _ stop rest)

theorem unambiguous_run (start : Unambiguous conf.devices) {calls : List Call}
    (kind : ∀ call ∈ calls, AddsOrRemoves call) :
    Unambiguous (deviceListUpdates.run conf calls).devices :=
  deviceListUpdates.run_invariant (fun conf => Unambiguous conf.devices) start
    fun _ call member => unambiguous_step (kind call member)

/-- Starting the devices gives them their sizes. -/
theorem unambiguous_started {env : Nat → StartEnv} {conf started : Conf}
    (before : Unambiguous conf.devices) (starts : qaoedDevices env conf = .ok (some started)) :
    Unambiguous started.devices := by
  obtain ⟨devices, intlist, rfl, along, _⟩ := qaoedDevices_spec starts
  intro position position' device search here there apart
  obtain ⟨first, here', _, _, _, rfl⟩ := forall₂_getElem? along.flip here
  obtain ⟨second, there', _, _, _, rfl⟩ := forall₂_getElem? along.flip there
  exact before position position' first second here' there' apart

/-- The daemon from its start on. -/
theorem daemon_unambiguous {stat : CString → Option Mode} {env : Nat → StartEnv} {conf started : Conf}
    (accepted : qaoedValidateconfig stat conf.toQconfig = 0)
    (starts : qaoedDevices env conf = .ok (some started)) {calls : List Call}
    (kind : ∀ call ∈ calls, AddsOrRemoves call) :
    Unambiguous (apiThread.run ⟨started, none⟩ calls).conf.devices := by
  obtain ⟨earlier, part, same⟩ := apiThread_run_conf started calls
  rw [same]
  apply unambiguous_run (unambiguous_started (unambiguous_of_accepted accepted) starts)
  intro call member
  exact kind call (part.subset member)

end Requests

/-- No two targets of an accepted configuration get into each other's way, whatever
targets are added and removed. -/
theorem addresses_unambiguous (stat : CString → Option Mode) (conf : Conf)
    (accepted : qaoedValidateconfig stat conf.toQconfig = 0) (calls : List Call)
    (kind : ∀ call ∈ calls, AddsOrRemoves call) :
    Unambiguous (deviceListUpdates.run conf calls).devices :=
  unambiguous_run (unambiguous_of_accepted accepted) kind

theorem addresses_unambiguous_oneTarget :
    Unambiguous (deviceListUpdates.run oneTarget
      [⟨grantingEnv, .targetAdd (slotRequest 1 2 "eth0")⟩, ⟨grantingEnv, .targetDel (slotRequest 1 1 "")⟩,
        ⟨grantingEnv, .targetAdd (slotRequest 1 1 "eth0")⟩]).devices := by
  apply addresses_unambiguous (fun _ => some .reg) oneTarget rfl
  intro call member
  simp only [List.mem_cons, List.not_mem_nil, or_false] at member
  rcases member with rfl | rfl | rfl
  · exact ⟨_, Or.inl rfl⟩
  · exact ⟨_, Or.inr rfl⟩
  · exact ⟨_, Or.inl rfl⟩

end Qaoed.Api
