import Qaoed.Device.State

/-!
# Checking a configuration

The configuration as far as `qaoed_validateconfig` reads it, and the check that
keeps two devices with one shelf and slot apart. Interfaces are compared as
pointers, so a device names its interface by an address.
-/

namespace Qaoed.Config

open Qaoed.Device

/-- The lists of `struct qconfig`. -/
structure Qconfig (Iface : Type) where
  devices : List (Aoedev Aclhdr Iface)
  intlist : List Ifst
  acllist : List Aclhdr

/-- What `stat` reports; `none` stands for a failure. -/
inductive Mode where
  | reg
  | blk
  | other
  deriving DecidableEq, Repr

variable {Iface : Type} [DecidableEq Iface]

/-- An access list may lack a logging target, but not have an invalid one. -/
def aclValid (acl : Aclhdr) : Bool :=
  match acl.log with
  | none => true
  | some log => log.logtype != .err

/-- An interface has a valid logging target and an MTU. -/
def interfaceValid (ifent : Ifst) : Bool :=
  match ifent.log with
  | none => false
  | some log => log.logtype != .err && ifent.mtu != 0

/-- The target of a device exists. That it is neither a regular file nor a block
device is logged and not refused. -/
def targetValid (stat : CString → Option Mode) (device : Aoedev Aclhdr Iface) : Bool :=
  match device.devicename with
  | none => false
  | some devicename => (stat devicename).isSome

/-- Two devices share the shelf and slot, and the interface or not the target. -/
def Clash (device search : Aoedev Aclhdr Iface) : Prop :=
  (device.slot = search.slot ∧ device.shelf = search.shelf) ∧
    (device.interface = search.interface ∨ device.devicename ≠ search.devicename)

instance (device search : Aoedev Aclhdr Iface) : Decidable (Clash device search) :=
  inferInstanceAs (Decidable ((_ ∧ _) ∧ (_ ∨ _)))

/-- The two nested loops over the device list. Devices are told apart by their position. -/
def anyClash (devices : List (Aoedev Aclhdr Iface)) : Bool :=
  devices.zipIdx.any fun device =>
    devices.zipIdx.any fun search => search.2 != device.2 && decide (Clash device.1 search.1)

def qaoedValidateconfig (stat : CString → Option Mode) (conf : Qconfig Iface) : Int :=
  if conf.acllist.any (fun acl => !aclValid acl) then -1
  else if conf.intlist.any (fun ifent => !interfaceValid ifent) then -1
  else if conf.devices.any (fun device => !targetValid stat device) then -1
  else if conf.devices.any (fun device => device.interface.isNone) then -1
  else if conf.devices.any (fun device => device.slot == 0xff || device.shelf == 0xffff) then -1
  else if anyClash conf.devices then -1
  else 0

/-- Every check of an accepted configuration passed. -/
theorem qaoedValidateconfig_accepted {stat : CString → Option Mode} {conf : Qconfig Iface}
    (accepted : qaoedValidateconfig stat conf = 0) :
    (conf.acllist.any fun acl => !aclValid acl) = false ∧
    (conf.intlist.any fun ifent => !interfaceValid ifent) = false ∧
    (conf.devices.any fun device => !targetValid stat device) = false ∧
    (conf.devices.any fun device => device.interface.isNone) = false ∧
    (conf.devices.any fun device => device.slot == 0xff || device.shelf == 0xffff) = false ∧
    anyClash conf.devices = false := by
  unfold qaoedValidateconfig at accepted
  split_ifs at accepted with acls ints targets interfaces slots clash
  simp only [Bool.not_eq_true] at acls ints targets interfaces slots clash
  exact ⟨acls, ints, targets, interfaces, slots, clash⟩

/-- An accepted configuration has an MTU for every interface. -/
theorem mtu_of_accepted {stat : CString → Option Mode} {conf : Qconfig Iface}
    (accepted : qaoedValidateconfig stat conf = 0) {ifent : Ifst} (member : ifent ∈ conf.intlist) :
    ifent.mtu ≠ 0 := by
  obtain ⟨_, ints, _⟩ := qaoedValidateconfig_accepted accepted
  have valid := List.any_eq_false.mp ints ifent member
  intro zero
  unfold interfaceValid at valid
  cases log : ifent.log with
  | none => simp [log] at valid
  | some log' => simp [log, zero] at valid

/-- Two devices of an accepted configuration that share shelf, slot and interface
stand at one position of the list. -/
theorem position_of_accepted {stat : CString → Option Mode} {conf : Qconfig Iface}
    (accepted : qaoedValidateconfig stat conf = 0) {device search : Aoedev Aclhdr Iface}
    {position position' : Nat} (here : conf.devices[position]? = some device)
    (there : conf.devices[position']? = some search) (clash : Clash device search) :
    position = position' := by
  obtain ⟨_, _, _, _, _, clashes⟩ := qaoedValidateconfig_accepted accepted
  by_contra apart
  have inner := List.any_eq_false.mp clashes (device, position)
    (List.mem_zipIdx_iff_getElem?.mpr here)
  simp only [Bool.not_eq_true] at inner
  have found := List.any_eq_false.mp inner (search, position')
    (List.mem_zipIdx_iff_getElem?.mpr there)
  simp only [Bool.and_eq_true, bne_iff_ne, ne_eq, decide_eq_true_eq, not_and] at found
  exact found (fun same => apart same.symm) clash

end Qaoed.Config
