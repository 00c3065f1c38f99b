import Qaoed.Config.SectionSpec

/-!
# What a loaded configuration holds

The parts of a configuration that `qaoed_loadconfig` returns, in terms of the
sections of the file: which of them have an entry, and where the access lists of
a device come from.
-/

namespace Qaoed.Config

open Qaoed.Device
open Qaoed.Library

/-! ## Default values -/

/-- The list of the default device for an operation. -/
def dfltAcl (devdefault : Option Devconf) (op : AclOp) : Option Nat := devdefault.bind op.get

/-- The device after the defaults are filled in: what was set stays, and a missing
access list is taken from the default device. -/
structure Completes (dflt : AclOp → Option Nat) (before after : Devconf) : Prop where
  devicename : after.devicename = before.devicename
  shelf : before.shelf ≠ 0xffff → after.shelf = before.shelf
  slot : before.slot ≠ 0xff → after.slot = before.slot
  interface : before.interface.isSome = true → after.interface = before.interface
  writecache : before.writecache ≠ -1 → after.writecache = before.writecache
  broadcast : before.broadcast ≠ -1 → after.broadcast = before.broadcast
  log : before.log.isSome = true → after.log = before.log
  acls : ∀ op : AclOp, op.get after = (op.get before).or (dflt op)

section Defaults

variable {loglist : List Logconf} {devdefault devdefault' : Option Devconf} {device : Devconf}

theorem completes_completed (dflt device : Devconf) (defaultlog : Option Logging) :
    Completes (fun op => op.get dflt) device (completed defaultlog (inherited dflt device)) where
  devicename := rfl
  shelf set := if_neg set
  slot set := if_neg set
  interface set := Option.or_of_isSome set
  writecache set := by simp [completed, inherited, set]
  broadcast set := by simp [completed, inherited, set]
  log set := by simp [completed, inherited, Option.or_of_isSome set]
  acls op := by cases op <;> rfl

theorem completes_undefaulted (device : Devconf) (defaultlog : Option Logging) :
    Completes (fun _ => none) device (completed defaultlog device) where
  devicename := rfl
  shelf _ := rfl
  slot _ := rfl
  interface _ := rfl
  writecache set := if_neg set
  broadcast set := if_neg set
  log set := Option.or_of_isSome set
  acls op := by cases op <;> exact Option.or_none.symm

theorem qaoedDevdefaults_spec {device' : Devconf}
    (returns : qaoedDevdefaults loglist devdefault device = .ok (device', devdefault')) :
    Completes (dfltAcl devdefault) device device' ∧ dfltAcl devdefault' = dfltAcl devdefault := by
  obtain ⟨defaultlog, _, returned⟩ := map_eq_ok.mp returns
  cases returned
  cases devdefault with
  | none => exact ⟨completes_undefaulted device defaultlog, rfl⟩
  | some dflt =>
      refine ⟨completes_completed dflt device defaultlog, ?_⟩
      funext op
      rw [Option.map_some, dfltAcl, dfltAcl, Option.bind_some, Option.bind_some]
      split
      · cases op <;> rfl
      · rfl

/-- The lookup of the target named `default` is all that can go wrong. -/
theorem qaoedDevdefaults_returns {log : Option Logging}
    (found : referencelog (text "default") loglist = .ok log) :
    ∃ result, qaoedDevdefaults loglist devdefault device = .ok result := by
  have lookup (merged : Devconf) : ∃ defaultlog, (if merged.log.isNone = true then
      referencelog (text "default") loglist else .ok none) = .ok defaultlog := by
    split
    · exact ⟨log, found⟩
    · exact ⟨none, rfl⟩
  obtain ⟨defaultlog, looked⟩ := lookup _
  exact ⟨_, map_eq_ok.mpr ⟨defaultlog, looked, rfl⟩⟩

/-- The default device counts its slot up for a device that has none. -/
theorem qaoedDevdefaults_counted {device' : Devconf}
    (returns : qaoedDevdefaults loglist devdefault device = .ok (device', devdefault')) :
    devdefault' = devdefault.map fun dflt =>
      if device.slot = 0xff then { dflt with slot := dflt.slot + 1 } else dflt := by
  obtain ⟨defaultlog, _, returned⟩ := map_eq_ok.mp returns
  cases returned
  rfl

/-- A device without an interface takes that of the default device, which keeps its own. -/
theorem qaoedDevdefaults_interface {device' : Devconf}
    (returns : qaoedDevdefaults loglist devdefault device = .ok (device', devdefault')) :
    device'.interface = device.interface.or (devdefault.bind fun dflt => dflt.interface) ∧
      devdefault'.map (fun dflt => dflt.interface) = devdefault.map fun dflt => dflt.interface := by
  obtain ⟨defaultlog, _, returned⟩ := map_eq_ok.mp returns
  cases returned
  cases devdefault with
  | none => exact ⟨Option.or_none.symm, rfl⟩
  | some dflt =>
      refine ⟨rfl, ?_⟩
      rw [Option.map_some, Option.map_some, Option.map_some]
      split <;> rfl

/-- Shelf and slot are taken from the default device if they are not given. -/
theorem qaoedDevdefaults_address {device' : Devconf}
    (returns : qaoedDevdefaults loglist devdefault device = .ok (device', devdefault')) :
    (device'.shelf = if device.shelf = 0xffff then (devdefault.map fun dflt => dflt.shelf).getD 0xffff
      else device.shelf) ∧
    device'.slot = if device.slot = 0xff then (devdefault.map fun dflt => dflt.slot).getD 0xff
      else device.slot := by
  obtain ⟨defaultlog, _, returned⟩ := map_eq_ok.mp returns
  cases returned
  cases devdefault with
  | none =>
      constructor
      · by_cases missing : device.shelf = 0xffff
        · rw [if_pos missing]
          exact missing
        · rw [if_neg missing]
          rfl
      · by_cases missing : device.slot = 0xff
        · rw [if_pos missing]
          exact missing
        · rw [if_neg missing]
          rfl
  | some dflt => exact ⟨rfl, rfl⟩

theorem qaoedDefaultconfig_spec {devlist devices : List Devconf}
    (returns : qaoedDefaultconfig loglist devdefault devlist = .ok (devices, devdefault')) :
    List.Forall₂ (Completes (dfltAcl devdefault)) devlist devices ∧
      dfltAcl devdefault' = dfltAcl devdefault := by
  induction devlist generalizing devdefault devices with
  | nil =>
      cases returns
      exact ⟨List.Forall₂.nil, rfl⟩
  | cons device next ih =>
      obtain ⟨⟨first, middle⟩, returnsFirst, returns⟩ := bind_eq_ok.mp returns
      obtain ⟨⟨others, last⟩, returnsOthers, returned⟩ := bind_eq_ok.mp returns
      cases returned
      obtain ⟨completes, same⟩ := qaoedDevdefaults_spec returnsFirst
      obtain ⟨completesOthers, sameOthers⟩ := ih returnsOthers
      rw [same] at completesOthers sameOthers
      exact ⟨List.Forall₂.cons completes completesOthers, sameOthers⟩

end Defaults

/-! ## The configuration -/

/-- A configuration in terms of the file it was loaded from. `acllist` are the access
lists before any reference, `devlist` the devices before the defaults. -/
structure Loaded (c : Cfg) (conf : Conf) (ifconfs : List Ifconf) (acllist : List Aclconf)
    (devlist : List Devconf) : Prop where
  lists : List.Forall₂ (ReadACL conf.loglist) (keptACL c) acllist
  counts : conf.acllist =
    counted (references acllist (c.sections (text "default") ++ c.sections (text "device"))) acllist
  devices : List.Forall₂ (ReadDEV conf.loglist ifconfs acllist) (keptDEV c) devlist
  nonempty : devlist ≠ []
  completes : List.Forall₂ (Completes (dfltAcl conf.devdefault)) devlist conf.devices
  devdefault : ∀ op, dfltAcl conf.devdefault op = (keptDFLT c).head?.bind fun section_ =>
    assigned (pointers acllist (namedAcls section_)) op none

theorem Loaded.sameLists {c : Cfg} {conf : Conf} {ifconfs : List Ifconf}
    {acllist : List Aclconf} {devlist : List Devconf}
    (loaded : Loaded c conf ifconfs acllist devlist) : SameLists acllist conf.acllist := by
  rw [loaded.counts]
  exact counted_sameLists _ _

theorem require_eq_ok {condition : Prop} [Decidable condition] {result : Unit} :
    require condition = .ok result ↔ condition := by
  unfold require
  split <;> simp [*]

/-- The passes of a load that succeeds. `acllist` are the access lists before the default
and the device sections, `middle` those in between. -/
structure Passes (env : LoadEnv) (c : Cfg) (conf : Conf) (ifconfs : List Ifconf)
    (acllist middle : List Aclconf) (dflts devlist : List Devconf) : Prop where
  log : ∃ log, referencelog (text "default") conf.loglist = .ok log
  acls : findACL conf.loglist c = .ok acllist
  defaults : findDFLT conf.loglist ifconfs acllist c = .ok (dflts, middle)
  devices : findDEV conf.loglist ifconfs middle c = .ok (devlist, conf.acllist)
  nonempty : devlist ≠ []
  merged : qaoedDefaultconfig conf.loglist dflts.head? devlist = .ok (conf.devices, conf.devdefault)
  opens : openConfigured env ifconfs = .ok conf.intlist
  valid : qaoedValidateconfig env.stat conf.toQconfig = 0

theorem passes_of_loads {env : LoadEnv} {c : Cfg} {conf : Conf}
    (loads : qaoedLoadconfig env c = .ok conf) :
    ∃ ifconfs acllist middle dflts devlist, Passes env c conf ifconfs acllist middle dflts devlist := by
  obtain ⟨_, _, loads⟩ := bind_eq_ok.mp loads
  obtain ⟨_, _, loads⟩ := bind_eq_ok.mp loads
  obtain ⟨⟨loglist, leadsBack⟩, creates, loads⟩ := bind_eq_ok.mp loads
  obtain ⟨_, _, loads⟩ := bind_eq_ok.mp loads
  obtain ⟨ifconfs, _, loads⟩ := bind_eq_ok.mp loads
  obtain ⟨_, _, loads⟩ := bind_eq_ok.mp loads
  obtain ⟨acllist, acls, loads⟩ := bind_eq_ok.mp loads
  obtain ⟨⟨dflts, middle⟩, defaults, loads⟩ := bind_eq_ok.mp loads
  obtain ⟨⟨devlist, last⟩, devices, loads⟩ := bind_eq_ok.mp loads
  obtain ⟨_, nonempty, loads⟩ := bind_eq_ok.mp loads
  obtain ⟨⟨completed, devdefault⟩, merged, loads⟩ := bind_eq_ok.mp loads
  obtain ⟨intlist, opens, loads⟩ := bind_eq_ok.mp loads
  obtain ⟨_, valid, returned⟩ := bind_eq_ok.mp loads
  cases returned
  obtain ⟨found, _, creates⟩ := bind_eq_ok.mp creates
  obtain ⟨log, looked, created⟩ := bind_eq_ok.mp creates
  cases created
  exact ⟨ifconfs, acllist, middle, dflts, devlist, ⟨log, looked⟩, acls, defaults, devices,
    require_eq_ok.mp nonempty, merged, opens, require_eq_ok.mp valid⟩

theorem loaded_of_loads {env : LoadEnv} {c : Cfg} {conf : Conf}
    (loads : qaoedLoadconfig env c = .ok conf) :
    (∃ ifconfs acllist devlist, Loaded c conf ifconfs acllist devlist) ∧
      qaoedValidateconfig env.stat conf.toQconfig = 0 := by
  obtain ⟨ifconfs, acllist, middle, dflts, devlist, passes⟩ := passes_of_loads loads
  obtain ⟨countsDflt, entriesDflt⟩ := findDFLT_spec passes.defaults
  obtain ⟨countsDev, entriesDev⟩ := findDEV_spec passes.devices
  obtain ⟨completes, sameDflt⟩ := qaoedDefaultconfig_spec passes.merged
  have same : SameLists acllist middle := by
    rw [countsDflt]
    exact counted_sameLists _ _
  refine ⟨⟨ifconfs, acllist, devlist, findACL_spec passes.acls, ?_, ?_, passes.nonempty, ?_, ?_⟩,
    passes.valid⟩
  · rw [references_append, counted_append, ← countsDflt, ← same.references]
    exact countsDev
  · exact entriesDev.imp fun _ _ read => read.of_sameLists same
  · rw [sameDflt]
    exact completes
  · intro op
    rw [sameDflt]
    generalize keptDFLT c = kept at entriesDflt ⊢
    cases entriesDflt with
    | nil => rfl
    | cons first rest => exact first op

end Qaoed.Config
