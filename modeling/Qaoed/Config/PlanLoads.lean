import Qaoed.Config.Plan

/-!
# Plans are loaded

Each walk of `qaoed_loadconfig` over the sections of a plan finds what the plan has of its
kind, so that loading the sections is loading the plan.
-/

namespace Qaoed.Config

open Qaoed.Device
open Qaoed.Frame
open Qaoed.Library

/-- The logging targets of a plan. -/
abbrev plannedLogs : List Logconf := [createdefaultlog]

theorem referencelog_planned : referencelog (text "default") plannedLogs = .ok (some plannedLog) := rfl

/-! ## Interfaces -/

section Interfaces

theorem InterfacePlan.parsed {interface : InterfacePlan}
    (readable : ∀ mtu ∈ interface.mtu, mtu ≠ text "auto" ∧ (scanInt mtu).isSome) :
    ifStatements plannedLogs ⟨none, 1500, 0, some plannedLog⟩ interface.body =
      .ok (interface.entry, true) := by
  have name : ifStatement plannedLogs ⟨none, 1500, 0, some plannedLog⟩ (text "interface")
      interface.ifname = .ok (some ⟨some interface.ifname, 1500, 0, some plannedLog⟩) := rfl
  have mtu : ifStatement plannedLogs ⟨some interface.ifname, 1500, 0, some plannedLog⟩ (text "mtu")
      (interface.mtu.getD (text "auto")) = .ok (some interface.entry) := by
    rw [ifStatement, if_pos rfl]
    cases given : interface.mtu with
    | none =>
        rw [Option.getD_none, if_pos rfl, InterfacePlan.entry, given]
        rfl
    | some mtu =>
        obtain ⟨other, number⟩ := readable mtu given
        obtain ⟨value, scanned⟩ := Option.isSome_iff_exists.mp number
        rw [Option.getD_some, if_neg other, scanned, InterfacePlan.entry, given, Option.map_some,
          Option.getD_some, atoi, scanned]
        rfl
  exact bind_eq_ok.mpr ⟨_, name, bind_eq_ok.mpr ⟨_, mtu, rfl⟩⟩

theorem InterfacePlan.parses {interface : InterfacePlan}
    (readable : ∀ mtu ∈ interface.mtu, mtu ≠ text "auto" ∧ (scanInt mtu).isSome) (memory : Chains) :
    parseINT plannedLogs memory interface.body = .ok (match memory.iflist with
      | none => memory.start interface.entry
      | some chain => memory.append chain interface.entry) := by
  unfold parseINT
  rw [referencelog_planned]
  exact bind_eq_ok.mpr ⟨_, rfl, bind_eq_ok.mpr ⟨_, InterfacePlan.parsed readable, rfl⟩⟩

/-- The sections put their entries behind each other. -/
theorem foldlM_parseINT_bodies {interfaces : List InterfacePlan}
    (readable : ∀ interface ∈ interfaces, ∀ mtu ∈ interface.mtu,
      mtu ≠ text "auto" ∧ (scanInt mtu).isSome) (entries : List Ifconf) :
    (interfaces.map InterfacePlan.body).foldlM (parseINT plannedLogs) ⟨[entries], some 0⟩ =
      .ok ⟨[entries ++ interfaces.map InterfacePlan.entry], some 0⟩ := by
  induction interfaces generalizing entries with
  | nil => simp [pure, Except.pure]
  | cons interface interfaces ih =>
      rw [List.forall_mem_cons] at readable
      have later := ih readable.2 (entries ++ [interface.entry])
      rw [List.map_cons, List.foldlM_cons, InterfacePlan.parses readable.1]
      rw [List.append_assoc, List.singleton_append] at later
      exact later

/-- No block has an interface section in it. -/
def NoneNested : Cfg → Prop
  | .null => True
  | .assignment _ _ next => NoneNested next
  | .block _ body next => body.children (text "interface") = [] ∧ NoneNested body ∧ NoneNested next

/-- References to interfaces on the list leave it as it is. -/
theorem intReferences_known {entries : List Ifconf} {names : List CString}
    (listed : entries.map Ifconf.ifname = names.map some) {c : Cfg} (flat : NoneNested c)
    (known : ∀ name ∈ namedInterfaces c, name ∈ names) :
    intReferences plannedLogs ⟨[entries], some 0⟩ (some (0, 0)) c = .ok ⟨[entries], some 0⟩ := by
  induction c with
  | null => rfl
  | assignment lvalue rvalue next ih =>
      by_cases here : lvalue = text "interface"
      · have member : rvalue ∈ names := known rvalue (by simp [namedInterfaces, here])
        have found := refersTo_eq rvalue listed
        rw [decide_eq_true member] at found
        rw [intReferences, if_pos here]
        refine bind_eq_ok.mpr ⟨_, referencelog_planned, ?_⟩
        exact bind_eq_ok.mpr ⟨true, found, rfl⟩
      · rw [intReferences, if_neg here]
        exact ih flat fun name member => known name (by simp [namedInterfaces, here, member])
  | block lvalue body next ihBody ihNext =>
      obtain ⟨none, inside, later⟩ := flat
      rw [intReferences, intSections, none]
      refine bind_eq_ok.mpr ⟨_, rfl, bind_eq_ok.mpr ⟨_, ihBody inside ?_, ihNext later ?_⟩⟩
      · exact fun name member => known name (List.mem_append_left _ member)
      · exact fun name member => known name (List.mem_append_right _ member)

end Interfaces

section Nested

theorem noneNested_assignAll {statements : List (CString × CString)} {next : Cfg} :
    NoneNested (assignAll statements next) ↔ NoneNested next := by
  induction statements with
  | nil => exact Iff.rfl
  | cons statement statements ih => exact ih

theorem namedInterfaces_assignAll (statements : List (CString × CString)) (next : Cfg) :
    namedInterfaces (assignAll statements next) =
      (statements.filter fun statement => statement.1 = text "interface").map Prod.snd ++
        namedInterfaces next := by
  induction statements with
  | nil => rfl
  | cons statement statements ih =>
      simp only [assignAll, List.foldr_cons] at ih ⊢
      rw [namedInterfaces, ih]
      by_cases here : statement.1 = text "interface" <;> simp [here]

theorem noneNested_blockAll {sections : List (CString × Cfg)} :
    NoneNested (blockAll sections) ↔ ∀ section_ ∈ sections,
      section_.2.children (text "interface") = [] ∧ NoneNested section_.2 := by
  induction sections with
  | nil => simp [blockAll, NoneNested]
  | cons section_ sections ih =>
      simp only [blockAll, List.foldr_cons] at ih ⊢
      rw [NoneNested, ih, List.forall_mem_cons, and_assoc]

theorem namedInterfaces_blockAll (sections : List (CString × Cfg)) :
    namedInterfaces (blockAll sections) =
      sections.flatMap fun section_ => namedInterfaces section_.2 := by
  induction sections with
  | nil => rfl
  | cons section_ sections ih =>
      simp only [blockAll, List.foldr_cons] at ih ⊢
      rw [namedInterfaces, ih, List.flatMap_cons]

/-- A device section refers to its interface alone. -/
theorem DevicePlan.namedInterfaces_body (device : DevicePlan) :
    namedInterfaces device.body = [device.interface] := by
  have keywords : ∀ op : AclOp, op.keyword ≠ text "interface" := by
    intro op
    cases op <;> decide
  have nothing : ((device.acl.map fun entry => (entry.1.keyword, entry.2)).filter
      fun statement => statement.1 = text "interface") = [] := by
    rw [List.filter_eq_nil_iff]
    intro statement member
    obtain ⟨entry, _, rfl⟩ := List.mem_map.mp member
    simpa using keywords entry.1
  have others : text "target" ≠ text "interface" ∧ text "shelf" ≠ text "interface" ∧
      text "slot" ≠ text "interface" ∧ text "writecache" ≠ text "interface" ∧
      text "broadcast" ≠ text "interface" := by decide
  obtain ⟨target, shelf, slot, writecache, broadcast⟩ := others
  have given : (device.given.filter fun statement => statement.1 = text "interface") =
      [(text "interface", device.interface)] := by
    rw [DevicePlan.given]
    cases device.writecache <;> cases device.broadcast <;>
      simp [target, shelf, slot, writecache, broadcast]
  rw [DevicePlan.body, namedInterfaces_assignAll, given, namedInterfaces, namedInterfaces_assignAll,
    nothing]
  rfl

theorem AclPlan.namedInterfaces_body (acl : AclPlan) : namedInterfaces acl.body = [] := by
  have keywords : ∀ accepts : Bool, ruleKeyword accepts ≠ text "interface" := by decide
  have others : text "name" ≠ text "interface" ∧ text "policy" ≠ text "interface" := by decide
  have nothing : (([(text "name", acl.name), (text "policy", ruleKeyword acl.accepts)] ++
      acl.rules.map fun rule => (ruleKeyword rule.1, rule.2)).filter
        fun statement => statement.1 = text "interface") = [] := by
    rw [List.filter_eq_nil_iff]
    intro statement member
    rcases List.mem_append.mp member with first | later
    · rcases List.mem_pair.mp first with rfl | rfl
      · simpa using others.1
      · simpa using others.2
    · obtain ⟨rule, _, rfl⟩ := List.mem_map.mp later
      simpa using keywords rule.1
  rw [AclPlan.body, namedInterfaces_assignAll, nothing]
  rfl

end Nested

/-! ## Access lists -/

section Lists

variable {loglist : List Logconf}

theorem aclStatements_rules {rules : List (Bool × CString)}
    (written : ∀ rule ∈ rules, (aclmac rule.2).isSome) (acl : Aclconf) :
    aclStatements loglist acl
        (assignAll (rules.map fun rule => (ruleKeyword rule.1, rule.2)) .null) =
      .ok (some { acl with acl := acl.acl ++ rules.map plannedRow }) := by
  induction rules generalizing acl with
  | nil => simp [assignAll, aclStatements]
  | cons rule rules ih =>
      rw [List.forall_mem_cons] at written
      obtain ⟨address, read⟩ := Option.isSome_iff_exists.mp written.1
      have row : aclStatement loglist acl (ruleKeyword rule.1) (some rule.2) =
          .ok (some { acl with acl := acl.acl ++ [rowOf (rule.1, address)] }) := by
        have added : aclStatement loglist acl (ruleKeyword rule.1) (some rule.2) =
            .ok (aclRow acl (ruleKeyword rule.1) rule.2) := by
          cases rule.1 <;> rfl
        rw [added, aclRow, read]
        rfl
      have later := ih written.2 { acl with acl := acl.acl ++ [rowOf (rule.1, address)] }
      rw [List.append_assoc, List.singleton_append] at later
      rw [List.map_cons, List.map_cons, plannedRow, read, Option.getD_some]
      exact bind_eq_ok.mpr ⟨_, row, later⟩

theorem AclPlan.parsed {acl : AclPlan} (written : ∀ rule ∈ acl.rules, (aclmac rule.2).isSome)
    (aclnum : Nat) :
    aclStatements loglist (blankACL aclnum) acl.body = .ok (some (acl.entry aclnum)) := by
  have rules := @aclStatements_rules loglist _ written
    { blankACL aclnum with
      name := some acl.name
      defaultpolicy := aclpolicy (ruleKeyword acl.accepts) }
  exact bind_eq_ok.mpr ⟨_, rfl, bind_eq_ok.mpr ⟨_, rfl, rules⟩⟩

theorem foldlM_parseACL_bodies {acls : List AclPlan}
    (written : ∀ acl ∈ acls, ∀ rule ∈ acl.rules, (aclmac rule.2).isSome) (before : List Aclconf)
    (aclnum : Nat) :
    (acls.map AclPlan.body).foldlM (parseACL loglist) (before, aclnum) =
      .ok (before ++ (acls.zipIdx aclnum).map (fun acl => acl.1.entry acl.2),
        aclnum + acls.length) := by
  induction acls generalizing before aclnum with
  | nil => simp [pure, Except.pure]
  | cons acl acls ih =>
      rw [List.forall_mem_cons] at written
      have later := ih written.2 (before ++ [acl.entry aclnum]) (aclnum + 1)
      have parsed : parseACL loglist (before, aclnum) acl.body =
          .ok (before ++ [acl.entry aclnum], aclnum + 1) :=
        bind_eq_ok.mpr ⟨_, AclPlan.parsed written.1 aclnum, rfl⟩
      rw [List.append_assoc, List.singleton_append, Nat.add_right_comm, Nat.add_assoc] at later
      rw [List.map_cons, List.foldlM_cons, parsed]
      exact later

/-- In a list whose entries have names, looking a name up comes to an end. -/
theorem reference_named {α : Type} {nameOf : α → Option CString} {entries : List α}
    (named : ∀ entry ∈ entries, (nameOf entry).isSome) (name : CString) :
    reference nameOf name entries =
      .ok (entries.findIdx? fun entry => nameOf entry = some name) := by
  have returns : ∃ position, reference nameOf name entries = .ok position := by
    induction entries with
    | nil => exact ⟨none, rfl⟩
    | cons entry next ih =>
        rw [List.forall_mem_cons] at named
        obtain ⟨known, here⟩ := Option.isSome_iff_exists.mp named.1
        obtain ⟨position, later⟩ := ih named.2
        rw [reference, here, follow]
        split
        · exact ⟨_, rfl⟩
        · exact ⟨_, map_eq_ok.mpr ⟨position, later, rfl⟩⟩
  obtain ⟨position, found⟩ := returns
  rw [found, reference_eq found]

end Lists

/-! ## Devices -/

section Devices

variable {loglist : List Logconf} {intlist : List Ifconf} {acllist : List Aclconf}

theorem aclKeyword_keyword (op : AclOp) : aclKeyword op.keyword = some op := by
  cases op <;> rfl

theorem SameLists.named {acllist acllist' : List Aclconf} (same : SameLists acllist acllist')
    (named : ∀ acl ∈ acllist, acl.name.isSome) : ∀ acl ∈ acllist', acl.name.isSome := by
  intro acl member
  have mapped : acl.uncounted ∈ acllist.map Aclconf.uncounted := same ▸ List.mem_map_of_mem member
  obtain ⟨other, known, equal⟩ := List.mem_map.mp mapped
  have name : other.uncounted.name = acl.uncounted.name := congrArg Aclconf.name equal
  exact name ▸ named other known

/-- The statements of an `acl` block set the pointers and count the references. -/
theorem parsedevacl_entries (named : ∀ acl ∈ acllist, acl.name.isSome)
    (entries : List (AclOp × CString)) (dev : Devconf) :
    parsedevacl acllist dev (assignAll (entries.map fun entry => (entry.1.keyword, entry.2)) .null) =
      .ok (some (entries.foldl (fun dev entry => entry.1.set dev (resolve acllist entry.2)) dev),
        counted (pointers acllist entries) acllist) := by
  induction entries generalizing acllist dev with
  | nil => rfl
  | cons entry entries ih =>
      have found : referenceacl entry.2 acllist = .ok (resolve acllist entry.2) :=
        reference_named named entry.2
      have same : SameLists acllist (aclrefup (resolve acllist entry.2) acllist) :=
        aclref_sameLists 1 _ _
      have later := ih (same.named named) (entry.1.set dev (resolve acllist entry.2))
      rw [same.pointers] at later
      simp only [same.resolve] at later
      simp only [assignAll, List.map_cons, List.foldr_cons] at later ⊢
      rw [parsedevacl, aclKeyword_keyword]
      exact bind_eq_ok.mpr ⟨_, found, later⟩

theorem devStatements_assignment {dev dev' : Devconf} {lvalue rvalue : CString} {next : Cfg}
    (taken : devStatement loglist intlist dev lvalue rvalue = .ok (some dev')) :
    devStatements loglist intlist acllist dev (.assignment lvalue rvalue next) =
      devStatements loglist intlist acllist dev' next := by
  rw [devStatements, taken]
  rfl

/-- A switch that is not mentioned stays as it is. -/
theorem devStatements_switches (dev : Devconf) (writecache broadcast : Option Bool) (next : Cfg)
    (fresh : dev.writecache = -1 ∧ dev.broadcast = -1) :
    devStatements loglist intlist acllist dev
        (assignAll ((writecache.map fun on => (text "writecache", switchText on)).toList ++
          (broadcast.map fun on => (text "broadcast", switchText on)).toList) next) =
      devStatements loglist intlist acllist
        { dev with
          writecache := (writecache.map fun on => if on then 1 else 0).getD (-1)
          broadcast := (broadcast.map fun on => if on then 1 else 0).getD (-1) } next := by
  have first (dev : Devconf) (on : Bool) : devStatement loglist intlist dev (text "writecache")
      (switchText on) = .ok (some { dev with writecache := if on then 1 else 0 }) := by
    cases on <;> rfl
  have second (dev : Devconf) (on : Bool) : devStatement loglist intlist dev (text "broadcast")
      (switchText on) = .ok (some { dev with broadcast := if on then 1 else 0 }) := by
    cases on <;> rfl
  obtain ⟨noCache, noBroadcast⟩ := fresh
  obtain ⟨_, _, _, _⟩ := dev
  dsimp only at noCache noBroadcast
  subst noCache noBroadcast
  cases writecache with
  | none =>
      cases broadcast with
      | none => rfl
      | some on => exact devStatements_assignment (second _ on)
  | some on =>
      cases broadcast with
      | none => exact devStatements_assignment (first _ on)
      | some on' =>
          exact (devStatements_assignment (first _ on)).trans (devStatements_assignment (second _ on'))

end Devices

namespace Plan

variable {plan : Plan}

theorem Proper.findINT (proper : plan.Proper) :
    Config.findINT plannedLogs plan.cfg = .ok plan.ifconfs := by
  have names : plan.ifconfs.map Ifconf.ifname =
      (plan.interfaces.map InterfacePlan.ifname).map some := by
    rw [ifconfs, List.map_map, List.map_map]
    rfl
  have flat : NoneNested plan.cfg := by
    rw [Plan.cfg, noneNested_blockAll]
    intro section_ member
    simp only [Plan.sections, List.mem_append, List.mem_map] at member
    rcases member with (⟨interface, _, rfl⟩ | ⟨acl, _, rfl⟩) | ⟨device, _, rfl⟩
    · exact ⟨children_assignAll _ _, noneNested_assignAll.mpr trivial⟩
    · exact ⟨children_assignAll _ _, noneNested_assignAll.mpr trivial⟩
    · refine ⟨children_assignAll _ _, noneNested_assignAll.mpr ⟨children_assignAll _ _, ?_⟩⟩
      exact ⟨noneNested_assignAll.mpr trivial, trivial⟩
  have known : ∀ name ∈ namedInterfaces plan.cfg, name ∈ plan.interfaces.map InterfacePlan.ifname := by
    intro name member
    rw [Plan.cfg, namedInterfaces_blockAll, List.mem_flatMap] at member
    obtain ⟨section_, inPlan, here⟩ := member
    simp only [Plan.sections, List.mem_append, List.mem_map] at inPlan
    rcases inPlan with (⟨interface, inPlan, rfl⟩ | ⟨acl, _, rfl⟩) | ⟨device, inPlan, rfl⟩
    · have mtu : text "mtu" ≠ text "interface" := by decide
      rw [InterfacePlan.body, namedInterfaces_assignAll] at here
      simp [mtu, namedInterfaces] at here
      exact here ▸ List.mem_map_of_mem inPlan
    · rw [AclPlan.namedInterfaces_body] at here
      cases here
    · rw [DevicePlan.namedInterfaces_body, List.mem_singleton] at here
      obtain ⟨interface, inInterfaces, same⟩ := proper.placed device inPlan
      rw [here, ← same]
      exact List.mem_map_of_mem inInterfaces
  have sections : intSections plannedLogs ⟨[], none⟩ plan.cfg = .ok ⟨[plan.ifconfs], some 0⟩ := by
    obtain ⟨first, rest, split⟩ := List.exists_cons_of_ne_nil proper.interfaces
    have readable := proper.mtu
    rw [split, List.forall_mem_cons] at readable
    rw [intSections, cfg_interfaces, ifconfs, split, List.map_cons, List.foldlM_cons,
      InterfacePlan.parses readable.1]
    exact foldlM_parseINT_bodies readable.2 [first.entry]
  exact bind_eq_ok.mpr ⟨_, sections, bind_eq_ok.mpr ⟨_, intReferences_known names flat known, rfl⟩⟩

theorem ifconfs_named : ∀ entry ∈ plan.ifconfs, entry.ifname.isSome := by
  intro entry member
  obtain ⟨interface, _, rfl⟩ := List.mem_map.mp member
  rfl

theorem acllist_named : ∀ acl ∈ plan.acllist, acl.name.isSome := by
  intro acl member
  obtain ⟨entry, _, rfl⟩ := List.mem_map.mp member
  rfl

/-- A device section, with the access lists as they are counted by then. -/
theorem devStatements_body (device : DevicePlan) {acllist : List Aclconf}
    (same : SameLists plan.acllist acllist) :
    devStatements plannedLogs plan.ifconfs acllist blankDEV device.body =
      .ok (some (plan.guardedDevice device),
        counted (pointers plan.acllist device.acl) acllist) := by
  have interface (dev : Devconf) : devStatement plannedLogs plan.ifconfs dev (text "interface")
      device.interface = .ok (some { dev with interface := plan.interfaceAt device.interface }) :=
    bind_eq_ok.mpr ⟨_, reference_named ifconfs_named device.interface, rfl⟩
  have given (next : Cfg) : devStatements plannedLogs plan.ifconfs acllist blankDEV
      (assignAll device.given next) =
        devStatements plannedLogs plan.ifconfs acllist (plan.bareDevice device) next := by
    rw [DevicePlan.given, List.append_assoc]
    refine (devStatements_assignment rfl).trans ((devStatements_assignment rfl).trans
      ((devStatements_assignment rfl).trans ((devStatements_assignment (interface _)).trans ?_)))
    exact devStatements_switches _ device.writecache device.broadcast next ⟨rfl, rfl⟩
  have lists := parsedevacl_entries (same.named acllist_named) device.acl (plan.bareDevice device)
  rw [same.pointers] at lists
  simp only [same.resolve] at lists
  rw [DevicePlan.body, given, devStatements, if_pos rfl]
  exact bind_eq_ok.mpr ⟨_, lists, rfl⟩

theorem foldlM_parseDEV_bodies (devices : List DevicePlan) (before : List Devconf)
    {acllist : List Aclconf} (same : SameLists plan.acllist acllist) :
    (devices.map DevicePlan.body).foldlM (parseDEV plannedLogs plan.ifconfs) (before, acllist) =
      .ok (before ++ devices.map plan.guardedDevice,
        counted (devices.flatMap fun device => pointers plan.acllist device.acl) acllist) := by
  induction devices generalizing before acllist with
  | nil => simp [pure, Except.pure, counted]
  | cons device devices ih =>
      have parsed : parseDEV plannedLogs plan.ifconfs (before, acllist) device.body =
          .ok (before ++ [plan.guardedDevice device],
            counted (pointers plan.acllist device.acl) acllist) :=
        bind_eq_ok.mpr ⟨_, devStatements_body device same, rfl⟩
      have later := ih (before ++ [plan.guardedDevice device])
        ((counted_sameLists (pointers plan.acllist device.acl) acllist).trans same)
      rw [List.append_assoc, List.singleton_append, ← counted_append] at later
      rw [List.map_cons, List.foldlM_cons, parsed]
      exact later

/-- What the access lists are no part of stays as it is assigned. -/
theorem guardedDevice_kept {α : Type} (field : Devconf → α)
    (free : ∀ (op : AclOp) (dev : Devconf) (acl : Option Nat), field (op.set dev acl) = field dev)
    (device : DevicePlan) : field (plan.guardedDevice device) = field (plan.bareDevice device) := by
  have kept (entries : List (AclOp × CString)) (dev : Devconf) : field (entries.foldl
      (fun dev entry => entry.1.set dev (resolve plan.acllist entry.2)) dev) = field dev := by
    induction entries generalizing dev with
    | nil => rfl
    | cons entry entries ih => rw [List.foldl_cons, ih, free]
  exact kept device.acl (plan.bareDevice device)

theorem guardedDevice_log (device : DevicePlan) : (plan.guardedDevice device).log = none :=
  guardedDevice_kept Devconf.log (fun op dev acl => by cases op <;> rfl) device

theorem qaoedDefaultconfig_planned {devlist : List Devconf} (silent : ∀ dev ∈ devlist, dev.log = none) :
    qaoedDefaultconfig plannedLogs none devlist =
      .ok (devlist.map (completed (some plannedLog)), none) := by
  induction devlist with
  | nil => rfl
  | cons device next ih =>
      rw [List.forall_mem_cons] at silent
      have first : qaoedDevdefaults plannedLogs none device =
          .ok (completed (some plannedLog) device, none) := by
        have merged : ((none : Option Devconf).map fun dflt => inherited dflt device).getD device =
            device := rfl
        rw [qaoedDevdefaults, merged, silent.1]
        rfl
      exact bind_eq_ok.mpr ⟨_, first, bind_eq_ok.mpr ⟨_, ih silent.2, rfl⟩⟩

/-! ## The whole configuration -/

theorem openAll_length {env : Nat → OpenEnv} {intlist opened : List Ifst}
    (opens : openAll env intlist = some opened) : opened.length = intlist.length := by
  induction intlist generalizing env opened with
  | nil =>
      cases opens
      rfl
  | cons ifent next ih =>
      obtain ⟨head, _, opens⟩ := Option.bind_eq_some_iff.mp opens
      obtain ⟨tail, opensNext, rfl⟩ := Option.map_eq_some_iff.mp opens
      rw [List.length_cons, List.length_cons, ih opensNext]

theorem openConfigured_planned (env : LoadEnv) : openConfigured env plan.ifconfs =
    match openAll env.interfaces (plan.interfaces.map fun interface =>
        interface.entry.toIfst interface.ifname) with
    | none => .error .null
    | some intlist => .ok (intlist.map fun ifst => ⟨ifst, 0⟩) := by
  have named (interfaces : List InterfacePlan) : namedPart (interfaces.map InterfacePlan.entry) =
      interfaces.map fun interface => interface.entry.toIfst interface.ifname := by
    induction interfaces with
    | nil => rfl
    | cons interface interfaces ih =>
        rw [List.map_cons, List.map_cons, ← ih]
        rfl
  rw [openConfigured, ifconfs, named]
  cases opens : openAll env.interfaces (plan.interfaces.map fun interface =>
      interface.entry.toIfst interface.ifname) with
  | none => rfl
  | some intlist =>
      have length := openAll_length opens
      rw [List.length_map] at length
      dsimp only
      rw [if_neg (by rw [List.length_map]; omega)]

theorem Proper.cfg_ne_null (proper : plan.Proper) : plan.cfg ≠ .null := by
  have sections : plan.sections ≠ [] := by
    simp [Plan.sections, proper.devices]
  obtain ⟨section_, sections', whole⟩ := List.exists_cons_of_ne_nil sections
  rw [Plan.cfg, whole]
  rintro ⟨⟩

theorem assignments_blockAll (sections : List (CString × Cfg)) :
    (blockAll sections).assignments = [] := by
  induction sections with
  | nil => rfl
  | cons section_ sections ih => exact ih

/-- The walks of `qaoed_loadconfig` find what the plan has. -/
theorem Proper.loads (proper : plan.Proper) (env : LoadEnv) :
    qaoedLoadconfig env plan.cfg = plan.load env := by
  have logging : createLOG plan.cfg = .ok (plannedLogs, false) := by
    have nothing : findLOG [] plan.cfg = .ok [] :=
      BlockTree.find_nothing (cfg_none plan (by decide)) rfl
    rw [createLOG, nothing]
    rfl
  have acls : findACL plannedLogs plan.cfg = .ok plan.acllist := by
    rw [findACL, BlockTree.find_eq_foldlM, cfg_access_lists, foldlM_parseACL_bodies proper.mac]
    have numbered : (plan.acls.zipIdx 1).map (fun acl => acl.1.entry acl.2) = plan.acllist := by
      rw [acllist, List.zipIdx_succ]
      simp
    rw [numbered]
    rfl
  have dflts : findDFLT plannedLogs plan.ifconfs plan.acllist plan.cfg = .ok ([], plan.acllist) :=
    BlockTree.find_nothing (cfg_none plan (by decide)) rfl
  have devices : findDEV plannedLogs plan.ifconfs plan.acllist plan.cfg =
      .ok (plan.devices.map plan.guardedDevice, counted plan.references plan.acllist) := by
    rw [findDEV, BlockTree.find_eq_foldlM, cfg_devices, foldlM_parseDEV_bodies plan.devices [] rfl]
    rfl
  have some : plan.devices.map plan.guardedDevice ≠ [] := by
    simpa using proper.devices
  have someInterface : plan.ifconfs ≠ [] := by
    simpa [ifconfs] using proper.interfaces
  have completes := @qaoedDefaultconfig_planned (plan.devices.map plan.guardedDevice) (by
    intro dev member
    obtain ⟨device, _, rfl⟩ := List.mem_map.mp member
    exact guardedDevice_log device)
  rw [List.map_map] at completes
  have passes {condition : Prop} [Decidable condition] (holds : condition) :
      require condition = .ok () := if_pos holds
  have global : readglobal plan.cfg = true := by
    rw [readglobal, Plan.cfg, assignments_blockAll, List.all_nil]
  rw [qaoedLoadconfig, passes proper.cfg_ne_null, passes global, logging]
  dsimp only [bind, Except.bind]
  rw [show openlogs env plannedLogs false = .ok () from rfl, proper.findINT]
  dsimp only
  rw [passes someInterface, acls]
  dsimp only
  rw [dflts]
  dsimp only
  rw [devices]
  dsimp only
  rw [passes some, List.head?_nil, completes, openConfigured_planned, load]
  dsimp only
  cases openAll env.interfaces (plan.interfaces.map fun interface =>
      interface.entry.toIfst interface.ifname) with
  | none => rfl
  | some intlist =>
      change (require (qaoedValidateconfig env.stat (plan.conf intlist).toQconfig = 0) >>=
        fun _ => .ok (plan.conf intlist)) = _
      dsimp only
      by_cases valid : qaoedValidateconfig env.stat (plan.conf intlist).toQconfig = 0
      · rw [if_pos valid, passes valid]
        rfl
      · rw [if_neg valid, require, if_neg valid]
        rfl

end Plan

end Qaoed.Config
