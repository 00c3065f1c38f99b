import Qaoed.Config.Complete

/-!
# What an accepted configuration can be relied on for

The check refuses a configuration or lets it through. Most of what the later stages
need is refused when it is missing; the logging target of a device is never looked
at, and a target of the wrong kind is reported and let through.
-/

namespace Qaoed.Config

open Qaoed.Device
open Qaoed.Library

/-! ## What the check promises -/

/-- A logging target that an object is attached to is a valid one. -/
def LogValid (log : Option Logging) : Prop := ∀ target, log = some target → target.logtype ≠ .err

/-- The target is there, and is a file or a block device. -/
def TargetServes (stat : CString → Option Mode) (devicename : Option CString) : Prop :=
  ∃ target mode, devicename = some target ∧ stat target = some mode ∧ (mode = .reg ∨ mode = .blk)

/-- What the later stages take for granted. -/
structure Sound (stat : CString → Option Mode) (conf : Conf) : Prop where
  aclLog : ∀ acl ∈ conf.acllist, LogValid acl.log
  interfaceLog : ∀ ifent ∈ conf.intlist, ifent.log.isSome = true ∧ LogValid ifent.log
  deviceLog : ∀ device ∈ conf.devices, LogValid device.log
  mtu : ∀ ifent ∈ conf.intlist, ifent.mtu ≠ 0
  target : ∀ device ∈ conf.devices, TargetServes stat device.devicename
  interface : ∀ device ∈ conf.devices, device.interface.isSome = true
  slot : ∀ device ∈ conf.devices, device.slot ≠ 0xff
  shelf : ∀ device ∈ conf.devices, device.shelf ≠ 0xffff
  apart : ∀ (position position' : Nat) (device search : Devconf), position ≠ position' →
    conf.devices[position]? = some device → conf.devices[position']? = some search →
    device.shelf = search.shelf → device.slot = search.slot →
    device.devicename = search.devicename ∧ device.interface ≠ search.interface

/-- What the check leaves to the file: valid logging targets for the devices, and no
target that is something else than a file or a block device. -/
structure Unchecked (stat : CString → Option Mode) (conf : Conf) : Prop where
  deviceLog : ∀ device ∈ conf.devices, LogValid device.log
  target : ∀ device ∈ conf.devices, ∀ target, device.devicename = some target →
    stat target ≠ some .other

section Accepted

variable {stat : CString → Option Mode} {conf : Conf}

theorem aclValid_iff {acl : Aclhdr} : aclValid acl = true ↔ LogValid acl.log := by
  unfold aclValid LogValid
  cases acl.log with
  | none => simp
  | some log => simp

theorem interfaceValid_iff {ifent : Ifst} :
    interfaceValid ifent = true ↔
      (ifent.log.isSome = true ∧ LogValid ifent.log) ∧ ifent.mtu ≠ 0 := by
  unfold interfaceValid LogValid
  cases ifent.log with
  | none => simp
  | some log => simp

theorem aclLog_of_accepted (accepted : qaoedValidateconfig stat conf.toQconfig = 0) :
    ∀ acl ∈ conf.acllist, LogValid acl.log := by
  obtain ⟨acls, _⟩ := qaoedValidateconfig_accepted accepted
  intro acl member
  have valid := List.any_eq_false.mp acls acl.toAclhdr (List.mem_map_of_mem member)
  rw [Bool.not_eq_true', Bool.not_eq_false] at valid
  exact aclValid_iff.mp valid

theorem interface_of_accepted (accepted : qaoedValidateconfig stat conf.toQconfig = 0) :
    ∀ ifent ∈ conf.intlist,
      (ifent.log.isSome = true ∧ LogValid ifent.log) ∧ ifent.mtu ≠ 0 := by
  obtain ⟨_, ints, _⟩ := qaoedValidateconfig_accepted accepted
  intro ifent member
  have valid := List.any_eq_false.mp ints ifent.toIfst (List.mem_map_of_mem member)
  rw [Bool.not_eq_true', Bool.not_eq_false] at valid
  exact interfaceValid_iff.mp valid

/-- The target of a device is there, whatever it is. -/
theorem target_of_accepted (accepted : qaoedValidateconfig stat conf.toQconfig = 0) :
    ∀ device ∈ conf.devices, ∃ target mode, device.devicename = some target ∧
      stat target = some mode := by
  obtain ⟨_, _, targets, _⟩ := qaoedValidateconfig_accepted accepted
  intro device member
  have valid := List.any_eq_false.mp targets (device.deref conf.acllist)
    (List.mem_map_of_mem member)
  have kept : (device.deref conf.acllist).devicename = device.devicename := rfl
  rw [Bool.not_eq_true', Bool.not_eq_false, targetValid, kept] at valid
  cases named : device.devicename with
  | none =>
      rw [named] at valid
      cases valid
  | some target =>
      rw [named] at valid
      obtain ⟨mode, found⟩ := Option.isSome_iff_exists.mp valid
      exact ⟨target, mode, rfl, found⟩

theorem attached_of_accepted (accepted : qaoedValidateconfig stat conf.toQconfig = 0) :
    ∀ device ∈ conf.devices, device.interface.isSome = true := by
  obtain ⟨_, _, _, interfaces, _⟩ := qaoedValidateconfig_accepted accepted
  intro device member
  have valid := List.any_eq_false.mp interfaces (device.deref conf.acllist)
    (List.mem_map_of_mem member)
  rw [Option.isNone_iff_eq_none] at valid
  exact Option.isSome_iff_ne_none.mpr valid

theorem address_of_accepted (accepted : qaoedValidateconfig stat conf.toQconfig = 0) :
    ∀ device ∈ conf.devices, device.slot ≠ 0xff ∧ device.shelf ≠ 0xffff := by
  obtain ⟨_, _, _, _, addresses, _⟩ := qaoedValidateconfig_accepted accepted
  intro device member
  have valid := List.any_eq_false.mp addresses (device.deref conf.acllist)
    (List.mem_map_of_mem member)
  rw [Bool.or_eq_true, beq_iff_eq, beq_iff_eq, not_or] at valid
  exact valid

/-- Two devices at one address have one target and two interfaces. -/
theorem apart_of_accepted (accepted : qaoedValidateconfig stat conf.toQconfig = 0)
    {position position' : Nat} {device search : Devconf} (distinct : position ≠ position')
    (here : conf.devices[position]? = some device)
    (there : conf.devices[position']? = some search)
    (shelf : device.shelf = search.shelf) (slot : device.slot = search.slot) :
    device.devicename = search.devicename ∧ device.interface ≠ search.interface := by
  have at_ {position : Nat} {device : Devconf} (here : conf.devices[position]? = some device) :
      conf.toQconfig.devices[position]? = some (device.deref conf.acllist) := by
    rw [Conf.toQconfig, List.getElem?_map, here]
    rfl
  have free : ¬ Clash (device.deref conf.acllist) (search.deref conf.acllist) :=
    fun clash => distinct (position_of_accepted accepted (at_ here) (at_ there) clash)
  rw [Clash, not_and, not_or, not_not] at free
  obtain ⟨interfaces, targets⟩ := free ⟨slot, shelf⟩
  exact ⟨targets, interfaces⟩

end Accepted

/-- An accepted configuration is sound exactly if the devices have valid logging targets and
no device has a target of the wrong kind. -/
theorem sound_iff_unchecked (stat : CString → Option Mode) (conf : Conf)
    (accepted : qaoedValidateconfig stat conf.toQconfig = 0) :
    Sound stat conf ↔ Unchecked stat conf := by
  constructor
  · intro sound
    refine ⟨sound.deviceLog, ?_⟩
    intro device member target named other
    obtain ⟨target', mode, named', found, kind⟩ := sound.target device member
    cases named.symm.trans named'
    cases other.symm.trans found
    rcases kind with kind | kind <;> cases kind
  · intro unchecked
    constructor
    case aclLog => exact aclLog_of_accepted accepted
    case interfaceLog =>
      exact fun ifent member => (interface_of_accepted accepted ifent member).1
    case deviceLog => exact unchecked.deviceLog
    case mtu => exact fun ifent member => (interface_of_accepted accepted ifent member).2
    case target =>
      intro device member
      obtain ⟨target, mode, named, found⟩ := target_of_accepted accepted device member
      refine ⟨target, mode, named, found, ?_⟩
      cases mode with
      | reg => exact Or.inl rfl
      | blk => exact Or.inr rfl
      | other => exact absurd found (unchecked.target device member target named)
    case interface => exact attached_of_accepted accepted
    case slot => exact fun device member => (address_of_accepted accepted device member).1
    case shelf => exact fun device member => (address_of_accepted accepted device member).2
    case apart =>
      intro position position' device search distinct here there shelf slot
      exact apart_of_accepted accepted distinct here there shelf slot

/-- A device at 1:1 on the first interface. -/
def attachedDevice (log : Option Logging) : Devconf :=
  { blankDEV with
    devicename := some (text "/a"), shelf := 1, slot := 1, interface := some 0, log := log }

/-- One interface with one device. -/
def oneDevice (log : Option Logging) : Conf where
  loglist := []
  intlist := [⟨⟨text "eth0", none, 1500, 1518, some ⟨text "default", .syslog⟩⟩, 1⟩]
  devdefault := none
  devices := [attachedDevice log]
  acllist := []

theorem sound_iff_unchecked_oneDevice :
    qaoedValidateconfig (fun _ => some .blk) (oneDevice none).toQconfig = 0 ∧
      Sound (fun _ => some .blk) (oneDevice none) := by
  have accepted : qaoedValidateconfig (fun _ => some .blk) (oneDevice none).toQconfig = 0 := by
    decide
  refine ⟨accepted, (sound_iff_unchecked _ _ accepted).mpr ⟨?_, ?_⟩⟩
  · intro device member target attached
    rw [List.mem_singleton.mp member] at attached
    cases attached
  · intro device _ target _ other
    cases other

/-- A directory as target, and a logging target that nothing defines, are let through. -/
theorem unsound_accepted :
    (qaoedValidateconfig (fun _ => some .other) (oneDevice none).toQconfig = 0 ∧
      ¬ Sound (fun _ => some .other) (oneDevice none)) ∧
    (qaoedValidateconfig (fun _ => some .blk) (oneDevice (some ⟨text "lgo", .err⟩)).toQconfig = 0 ∧
      ¬ Sound (fun _ => some .blk) (oneDevice (some ⟨text "lgo", .err⟩))) := by
  refine ⟨⟨by decide, ?_⟩, by decide, ?_⟩
  · intro sound
    obtain ⟨target, mode, _, found, kind⟩ := sound.target _ List.mem_cons_self
    cases found
    rcases kind with kind | kind <;> cases kind
  · intro sound
    exact sound.deviceLog _ List.mem_cons_self _ rfl rfl

/-! ## Automatic slots -/

/-- Everything a section set, but for the slot, is the same afterwards. -/
structure KeepsSet (before after : Devconf) : Prop where
  devicename : after.devicename = before.devicename
  shelf : before.shelf ≠ 0xffff → after.shelf = before.shelf
  interface : before.interface.isSome = true → after.interface = before.interface
  acls : ∀ op : AclOp, (op.get before).isSome = true → op.get after = op.get before
  writecache : before.writecache ≠ -1 → after.writecache = before.writecache
  broadcast : before.broadcast ≠ -1 → after.broadcast = before.broadcast
  log : before.log.isSome = true → after.log = before.log
  size : after.size = before.size
  cfgLen : after.cfgLen = before.cfgLen
  cfg : after.cfg = before.cfg

/-- The devices without a slot have one number after the other, none of them 255 or more,
and the others have the slot they had. -/
inductive SlotsFrom : Nat → List Devconf → List Devconf → Prop where
  | nil (slot : Nat) : SlotsFrom slot [] []
  | automatic {before after : Devconf} {devlist devices : List Devconf} (slot : Nat)
      (missing : before.slot = 0xff) (taken : after.slot.toNat = slot) (below : slot < 255)
      (keeps : KeepsSet before after) (next : SlotsFrom (slot + 1) devlist devices) :
      SlotsFrom slot (before :: devlist) (after :: devices)
  | given {before after : Devconf} {devlist devices : List Devconf} (slot : Nat)
      (given : before.slot ≠ 0xff) (kept : after.slot = before.slot)
      (keeps : KeepsSet before after) (next : SlotsFrom slot devlist devices) :
      SlotsFrom slot (before :: devlist) (after :: devices)

section Slots

variable {loglist : List Logconf}

theorem qaoedDevdefaults_keepsSet {devdefault devdefault' : Option Devconf}
    {device device' : Devconf}
    (returns : qaoedDevdefaults loglist devdefault device = .ok (device', devdefault')) :
    KeepsSet device device' := by
  obtain ⟨completes, _⟩ := qaoedDevdefaults_spec returns
  have untouched : device'.size = device.size ∧ device'.cfgLen = device.cfgLen ∧
      device'.cfg = device.cfg := by
    obtain ⟨defaultlog, _, returned⟩ := map_eq_ok.mp returns
    cases returned
    cases devdefault <;> exact ⟨rfl, rfl, rfl⟩
  obtain ⟨size, cfgLen, cfg⟩ := untouched
  refine ⟨completes.devicename, completes.shelf, completes.interface, ?_, completes.writecache,
    completes.broadcast, completes.log, size, cfgLen, cfg⟩
  intro op set
  rw [completes.acls op]
  exact Option.or_of_isSome set

/-- A slot that is not the mark for a missing one has a successor. -/
theorem slot_successor {slot : UInt8} (valid : slot ≠ 0xff) :
    slot.toNat < 255 ∧ (slot + 1).toNat = slot.toNat + 1 := by
  have below : slot.toNat < 255 := by
    have width := slot.toNat_lt
    have apart : slot.toNat ≠ 255 := fun equal => valid (UInt8.toNat_inj.mp equal)
    omega
  refine ⟨below, ?_⟩
  rw [UInt8.toNat_add]
  exact Nat.mod_eq_of_lt (by rw [UInt8.toNat_one]; omega)

/-- The counter cannot pass 255 unnoticed: the device that takes 255 has no valid slot. -/
theorem qaoedDefaultconfig_slots {dflt : Devconf} {devdefault' : Option Devconf}
    {devlist devices : List Devconf}
    (returns : qaoedDefaultconfig loglist (some dflt) devlist = .ok (devices, devdefault'))
    (valid : ∀ device ∈ devices, device.slot ≠ 0xff) :
    SlotsFrom dflt.slot.toNat devlist devices := by
  induction devlist generalizing dflt devices with
  | nil =>
      cases returns
      exact SlotsFrom.nil _
  | cons device next ih =>
      obtain ⟨⟨first, middle⟩, returnsFirst, returns⟩ := bind_eq_ok.mp returns
      obtain ⟨⟨others, last⟩, returnsOthers, returned⟩ := bind_eq_ok.mp returns
      cases returned
      have keeps := qaoedDevdefaults_keepsSet returnsFirst
      obtain ⟨_, address⟩ := qaoedDevdefaults_address returnsFirst
      have counted := qaoedDevdefaults_counted returnsFirst
      rw [Option.map_some] at counted
      subst counted
      have validFirst := valid first List.mem_cons_self
      have slots := ih returnsOthers fun device member =>
        valid device (List.mem_cons_of_mem _ member)
      by_cases missing : device.slot = 0xff
      · rw [if_pos missing] at address slots
        rw [Option.map_some, Option.getD_some] at address
        rw [address] at validFirst
        obtain ⟨below, successor⟩ := slot_successor validFirst
        rw [successor] at slots
        exact SlotsFrom.automatic _ missing (congrArg UInt8.toNat address) below keeps slots
      · rw [if_neg missing] at address slots
        exact SlotsFrom.given _ missing address keeps slots

end Slots

/-- In an accepted configuration the slots that the default section hands out are in a
row and valid, and nothing else that a device section set has changed. -/
theorem slots_of_accepted (stat : CString → Option Mode) (conf : Conf) (dflt : Devconf)
    (devlist : List Devconf)
    (returns : qaoedDefaultconfig conf.loglist (some dflt) devlist =
      .ok (conf.devices, conf.devdefault))
    (accepted : qaoedValidateconfig stat conf.toQconfig = 0) :
    SlotsFrom dflt.slot.toNat devlist conf.devices :=
  qaoedDefaultconfig_slots returns fun device member =>
    (address_of_accepted accepted device member).1

/-- Two devices that leave the slot to the default section, and one that does not. -/
def slotSections : List Devconf :=
  [{ attachedDevice none with slot := 0xff }, { attachedDevice none with slot := 9 },
    { attachedDevice none with slot := 0xff }]

/-- The slots of the devices, after 253 as the slot of the default section. -/
theorem slots_of_accepted_two :
    ∃ conf : Conf, conf.devices.map (fun device => device.slot) = [253, 9, 254] ∧
      SlotsFrom 253 slotSections conf.devices := by
  let dflt : Devconf := { blankDEV with slot := 253, log := some ⟨text "default", .syslog⟩ }
  let conf : Conf := { oneDevice none with
    devices := (slotSections.zip [253, 9, 254]).map fun (device, slot) =>
      { device with
        slot := slot, log := some ⟨text "default", .syslog⟩, writecache := 1, broadcast := 1 }
    devdefault := some { dflt with slot := 255 } }
  exact ⟨conf, rfl, slots_of_accepted (fun _ => some .blk) conf dflt slotSections rfl (by decide)⟩

end Qaoed.Config
