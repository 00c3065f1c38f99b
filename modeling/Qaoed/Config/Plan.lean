import Qaoed.Config.FirstMatch
import Qaoed.Config.InterfaceSearch

/-!
# A configuration as it is meant

Interfaces, access lists and devices as an administrator writes them down, and the
configuration that they stand for. Loading the sections gives that configuration, with the
interfaces as the system opens them, if it passes the checks.
-/

namespace Qaoed.Config

open Qaoed.Device
open Qaoed.Frame
open Qaoed.Library

/-! ## Plans -/

/-- An interface with its MTU, or with the one that the system reports. -/
structure InterfacePlan where
  ifname : CString
  mtu : Option CString

/-- An access list: the rules, and what holds for all other addresses. -/
structure AclPlan where
  name : CString
  accepts : Bool
  rules : List (Bool × CString)

/-- A device, with an access list for each operation that has one. -/
structure DevicePlan where
  target : CString
  shelf : CString
  slot : CString
  interface : CString
  acl : List (AclOp × CString)
  writecache : Option Bool
  broadcast : Option Bool

structure Plan where
  interfaces : List InterfacePlan
  acls : List AclPlan
  devices : List DevicePlan

def AclOp.keyword : AclOp → CString
  | .write => text "write"
  | .read => text "read"
  | .cfgset => text "cfgset"
  | .cfgread => text "cfgread"

def switchText (on : Bool) : CString := if on then text "on" else text "off"

/-! ## Sections -/

/-- A chain of assignments, in front of another chain. -/
def assignAll (statements : List (CString × CString)) (next : Cfg) : Cfg :=
  statements.foldr (fun statement next => .assignment statement.1 statement.2 next) next

/-- A chain of blocks. -/
def blockAll (sections : List (CString × Cfg)) : Cfg :=
  sections.foldr (fun section_ next => .block section_.1 section_.2 next) .null

def InterfacePlan.body (plan : InterfacePlan) : Cfg :=
  assignAll [(text "interface", plan.ifname), (text "mtu", plan.mtu.getD (text "auto"))] .null

def AclPlan.body (plan : AclPlan) : Cfg :=
  assignAll ([(text "name", plan.name), (text "policy", ruleKeyword plan.accepts)] ++
    plan.rules.map fun rule => (ruleKeyword rule.1, rule.2)) .null

/-- What is assigned in a device section in front of the access lists. -/
def DevicePlan.given (plan : DevicePlan) : List (CString × CString) :=
  [(text "target", plan.target), (text "shelf", plan.shelf), (text "slot", plan.slot),
      (text "interface", plan.interface)] ++
    (plan.writecache.map fun on => (text "writecache", switchText on)).toList ++
    (plan.broadcast.map fun on => (text "broadcast", switchText on)).toList

def DevicePlan.body (plan : DevicePlan) : Cfg :=
  assignAll plan.given (.block (text "acl")
    (assignAll (plan.acl.map fun entry => (entry.1.keyword, entry.2)) .null) .null)

def Plan.sections (plan : Plan) : List (CString × Cfg) :=
  plan.interfaces.map (fun interface => (text "interface", interface.body)) ++
    plan.acls.map (fun acl => (text "access-list", acl.body)) ++
    plan.devices.map fun device => (text "device", device.body)

def Plan.cfg (plan : Plan) : Cfg := blockAll plan.sections

/-! ## The configuration that is meant -/

/-- The target that everything logs to. -/
def plannedLog : Logging := ⟨text "default", .syslog⟩

def InterfacePlan.entry (plan : InterfacePlan) : Ifconf :=
  let mtu := (plan.mtu.map atoi).getD 0
  ⟨some plan.ifname, mtu, if 0 < mtu then mtu + 14 else 0, some plannedLog⟩

/-- The row for a rule with an address that can be read. -/
def plannedRow (rule : Bool × CString) : Aclentry :=
  rowOf (rule.1, (aclmac rule.2).getD SixBytes.zero)

def AclPlan.entry (plan : AclPlan) (aclnum : Nat) : Aclconf where
  name := some plan.name
  aclnum := aclnum
  refcnt := 0
  defaultpolicy := aclpolicy (ruleKeyword plan.accepts)
  acl := plan.rules.map plannedRow
  log := none

namespace Plan

variable (plan : Plan)

def ifconfs : List Ifconf := plan.interfaces.map InterfacePlan.entry

/-- The access lists, before any device refers to them. -/
def acllist : List Aclconf := plan.acls.zipIdx.map fun acl => acl.1.entry (acl.2 + 1)

/-- The position of an interface. -/
def interfaceAt (ifname : CString) : Option Nat :=
  plan.ifconfs.findIdx? fun entry => entry.ifname = some ifname

/-- The device before its access lists are looked up. -/
def bareDevice (device : DevicePlan) : Devconf :=
  { blankDEV with
    devicename := some device.target
    shelf := shelfOf device.shelf
    slot := slotOf device.slot
    interface := plan.interfaceAt device.interface
    writecache := (device.writecache.map fun on => if on then 1 else 0).getD (-1)
    broadcast := (device.broadcast.map fun on => if on then 1 else 0).getD (-1) }

/-- The device with the last list that it names for each operation. -/
def guardedDevice (device : DevicePlan) : Devconf :=
  device.acl.foldl (fun dev entry => entry.1.set dev (resolve plan.acllist entry.2))
    (plan.bareDevice device)

/-- All references to access lists, in the order of the devices. -/
def references : List (AclOp × Option Nat) :=
  plan.devices.flatMap fun device => pointers plan.acllist device.acl

/-- The configuration with its interfaces opened. -/
def conf (intlist : List Ifst) : Conf where
  loglist := [createdefaultlog]
  intlist := intlist.map fun ifst => ⟨ifst, 0⟩
  devdefault := none
  devices := plan.devices.map fun device => completed (some plannedLog) (plan.guardedDevice device)
  acllist := counted plan.references plan.acllist

/-- What is to come of the plan on a system. -/
def load (env : LoadEnv) : Except Stop Conf :=
  match openAll env.interfaces (plan.interfaces.map fun interface =>
      interface.entry.toIfst interface.ifname) with
  | none => .error .null
  | some intlist =>
      if qaoedValidateconfig env.stat (plan.conf intlist).toQconfig = 0 then
        .ok (plan.conf intlist)
      else .error .null

/-- The plan says something, its numbers and addresses can be read, and its devices are on its
interfaces. -/
structure Proper : Prop where
  interfaces : plan.interfaces ≠ []
  devices : plan.devices ≠ []
  mtu : ∀ interface ∈ plan.interfaces, ∀ mtu ∈ interface.mtu, mtu ≠ text "auto" ∧ (scanInt mtu).isSome
  mac : ∀ acl ∈ plan.acls, ∀ rule ∈ acl.rules, (aclmac rule.2).isSome
  placed : ∀ device ∈ plan.devices, ∃ interface ∈ plan.interfaces,
    interface.ifname = device.interface

end Plan

/-! ## Sections of a plan -/

section Chains

variable {keyword : CString}

theorem sections_assignAll (statements : List (CString × CString)) (next : Cfg) :
    (assignAll statements next).sections keyword = next.sections keyword := by
  induction statements with
  | nil => rfl
  | cons statement statements ih => exact ih

theorem children_assignAll (statements : List (CString × CString)) (next : Cfg) :
    (assignAll statements next).children keyword = next.children keyword := by
  induction statements with
  | nil => rfl
  | cons statement statements ih => exact ih

theorem sections_blockAll {sections : List (CString × Cfg)}
    (flat : ∀ section_ ∈ sections, section_.1 ≠ keyword → section_.2.sections keyword = []) :
    (blockAll sections).sections keyword =
      (sections.filter fun section_ => section_.1 = keyword).map Prod.snd := by
  induction sections with
  | nil => rfl
  | cons section_ sections ih =>
      rw [List.forall_mem_cons] at flat
      have later := ih flat.2
      simp only [blockAll, List.foldr_cons] at later ⊢
      rw [BlockTree.sections, later]
      by_cases here : section_.1 = keyword
      · simp [here]
      · simp [here, flat.1 here]

theorem children_blockAll (sections : List (CString × Cfg)) :
    (blockAll sections).children keyword =
      (sections.filter fun section_ => section_.1 = keyword).map Prod.snd := by
  induction sections with
  | nil => rfl
  | cons section_ sections ih =>
      simp only [blockAll, List.foldr_cons] at ih ⊢
      rw [BlockTree.children, ih]
      by_cases here : section_.1 = keyword <;> simp [here]

end Chains

namespace Plan

variable (plan : Plan)

/-- The sections of each kind, if nothing but access lists is nested in a device section. -/
theorem cfg_sections (keyword : CString) (notAcl : keyword ≠ text "acl") :
    plan.cfg.sections keyword =
      (plan.sections.filter fun section_ => section_.1 = keyword).map Prod.snd := by
  apply sections_blockAll
  intro section_ member _
  simp only [Plan.sections, List.mem_append, List.mem_map] at member
  rcases member with (⟨interface, _, rfl⟩ | ⟨acl, _, rfl⟩) | ⟨device, _, rfl⟩
  · exact sections_assignAll _ _
  · exact sections_assignAll _ _
  · dsimp only
    rw [DevicePlan.body, sections_assignAll, BlockTree.sections, if_neg (Ne.symm notAcl),
      sections_assignAll]
    rfl

theorem filter_sections (keyword : CString) :
    (plan.sections.filter fun section_ => section_.1 = keyword).map Prod.snd =
      (if text "interface" = keyword then plan.interfaces.map InterfacePlan.body else []) ++
        (if text "access-list" = keyword then plan.acls.map AclPlan.body else []) ++
        if text "device" = keyword then plan.devices.map DevicePlan.body else [] := by
  have pick {α : Type} (list : List α) (name : CString) (body : α → Cfg) :
      ((list.map fun item => (name, body item)).filter fun section_ => section_.1 = keyword).map
        Prod.snd = if name = keyword then list.map body else [] := by
    by_cases here : name = keyword
    · simp [here, List.filter_map, Function.comp_def]
    · simp [here, List.filter_map, Function.comp_def]
  rw [Plan.sections, List.filter_append, List.filter_append, List.map_append, List.map_append,
    pick, pick, pick]

theorem cfg_access_lists : plan.cfg.sections (text "access-list") = plan.acls.map AclPlan.body := by
  rw [cfg_sections plan _ (by decide), filter_sections, if_neg (by decide), if_pos rfl,
    if_neg (by decide), List.nil_append, List.append_nil]

theorem cfg_devices : plan.cfg.sections (text "device") = plan.devices.map DevicePlan.body := by
  rw [cfg_sections plan _ (by decide), filter_sections, if_neg (by decide), if_neg (by decide),
    if_pos rfl, List.nil_append, List.nil_append]

theorem cfg_none {keyword : CString} (other : keyword ∈ [text "logging", text "default"]) :
    plan.cfg.sections keyword = [] := by
  have apart : ∀ keyword ∈ [text "logging", text "default"], keyword ≠ text "acl" ∧
      text "interface" ≠ keyword ∧ text "access-list" ≠ keyword ∧ text "device" ≠ keyword := by decide
  obtain ⟨notAcl, notInterface, notList, notDevice⟩ := apart keyword other
  rw [cfg_sections plan _ notAcl, filter_sections, if_neg notInterface, if_neg notList,
    if_neg notDevice]
  rfl

theorem cfg_interfaces : plan.cfg.children (text "interface") =
    plan.interfaces.map InterfacePlan.body := by
  rw [Plan.cfg, children_blockAll, filter_sections, if_pos rfl, if_neg (by decide),
    if_neg (by decide), List.append_nil, List.append_nil]

end Plan

end Qaoed.Config
