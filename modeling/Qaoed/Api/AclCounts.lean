import Qaoed.Api.AccessLists
import Qaoed.Config.Binding

/-!
# Counting the references to access lists

Every statement that names a list counts a reference when it is read, and requests
move references together with the pointers. A statement that a later one overwrites
or whose section is not kept leaves a reference without a pointer, and a device that
inherits a list has a pointer without a reference. What is wrong after loading stays
wrong by the same amount.
-/

namespace Qaoed.Api

open Qaoed.Device
open Qaoed.Library
open Qaoed.Config

/-- Every list counts the pointers of the devices and of the default device to it. -/
def RefcntsExact (conf : Conf) : Prop :=
  ∀ (position : Nat) acl, conf.acllist[position]? = some acl →
    acl.refcnt = total (pointersTo position) (conf.devdefault.toList ++ conf.devices)

/-! ## Requests -/

section Requests

variable {conf : Conf}

theorem refcntsExact_iff : RefcntsExact conf ↔ ∀ position < conf.acllist.length,
    surplus conf.acllist conf.devices position =
      total (pointersTo position) conf.devdefault.toList := by
  constructor
  · intro exact_ position inside
    have count := exact_ position _ (List.getElem?_eq_getElem inside)
    rw [total_append] at count
    unfold surplus refcntAt
    rw [List.getElem?_eq_getElem inside, Option.map_some, Option.getD_some, count]
    omega
  · intro exact_ position acl found
    obtain ⟨inside, rfl⟩ := List.getElem?_eq_some_iff.mp found
    have count := exact_ position inside
    unfold surplus refcntAt at count
    rw [found, Option.map_some, Option.getD_some] at count
    rw [total_append]
    omega

/-- A request for access lists leaves the surplus of every list. -/
theorem refcntsExact_setacl (target : TargetInfoDetailed) (exact_ : RefcntsExact conf) :
    RefcntsExact (processTargetSetacl conf target).conf := by
  have kept := refcntsExact_iff.mp exact_
  unfold processTargetSetacl
  cases result : setAcls target conf.intlist conf.devices conf.acllist .allok with
  | error stop => exact exact_
  | ok triple =>
      obtain ⟨devices, acllist, error⟩ := triple
      have sets := setAcls_spec result
      apply refcntsExact_iff.mpr
      intro position inside
      have inside' : position < conf.acllist.length := by rwa [← sets.same.length]
      exact (sets.kept position inside').trans (kept position inside')

/-- A call that asks for access lists. -/
def IsSetacl (call : Call) : Prop := ∃ target, call.request = .targetSetacl target

theorem refcntsExact_next {daemon : Daemon} {call : Call} (setacl : IsSetacl call)
    (exact_ : RefcntsExact daemon.conf) : RefcntsExact (apiThread.next daemon call).conf := by
  obtain ⟨target, request⟩ := setacl
  show RefcntsExact (handle daemon call).conf
  unfold handle
  cases daemon.stopped with
  | some stop => exact exact_
  | none =>
      rw [request]
      exact refcntsExact_setacl target exact_

/-- Counts that are exact at the start stay exact in all runs, and only those. -/
theorem refcntsExact_run_iff : (∀ calls : List Call, (∀ call ∈ calls, IsSetacl call) →
    RefcntsExact (apiThread.run ⟨conf, none⟩ calls).conf) ↔ RefcntsExact conf := by
  constructor
  · intro always
    exact always [] fun _ member => nomatch member
  · intro start calls setacl
    exact apiThread.run_invariant (fun daemon => RefcntsExact daemon.conf) start
      fun _ call member exact_ => refcntsExact_next (setacl call member) exact_

end Requests

/-! ## References in a file -/

/-- The kept access-list section of a name. -/
def listOf (c : Cfg) (name : CString) : Option Nat :=
  (keptACL c).findIdx? fun section_ => aclName section_ = some name

/-- The access-list statements of a section that are read, with the lists they stand for. -/
def namedLists (c section_ : Cfg) : List (AclOp × Option Nat) :=
  (namedAcls section_).map fun statement => (statement.1, listOf c statement.2)

/-- The number of statements for a list. -/
def naming (position : Nat) (statements : List (AclOp × Option Nat)) : Nat :=
  statements.countP fun statement => leads position statement.2

/-- Of the statements for a list, those in front of another one for the same operation. -/
def overwritten (position : Nat) : List (AclOp × Option Nat) → Nat
  | [] => 0
  | (op, acl) :: rest =>
      (if leads position acl && rest.any (fun later => later.1 = op) then 1 else 0) +
        overwritten position rest

/-- The device sections in front of a rejected one, and all default sections but the
first one behind the last that is rejected. -/
def ignoredSections (c : Cfg) : List Cfg :=
  (c.sections (text "default")).rdropWhile acceptsDEV ++ (keptDFLT c).tail ++
    (c.sections (text "device")).rdropWhile acceptsDEV

/-- The references to a list that are counted and that no pointer goes with. -/
def lost (c : Cfg) (position : Nat) : Nat :=
  total (fun section_ => overwritten position (namedLists c section_))
      ((keptDFLT c).head?.toList ++ keptDEV c) +
    total (fun section_ => naming position (namedLists c section_)) (ignoredSections c)

/-- The list that the default section has for an operation. -/
def defaultList (c : Cfg) (op : AclOp) : Option Nat :=
  (keptDFLT c).head?.bind fun section_ => assigned (namedLists c section_) op none

/-- The pointers to a list that devices take over from the default section. -/
def inherited (c : Cfg) (position : Nat) : Nat :=
  total (fun section_ => AclOp.all.countP fun op =>
    (assigned (namedLists c section_) op none).isNone && leads position (defaultList c op)) (keptDEV c)

/-! ## Statements and pointers -/

section Statements

variable {position : Nat}

/-- A statement replaces the pointer for its operation, unless a later one does. -/
theorem countP_replace (position : Nat) (op : AclOp) (acl : Option Nat)
    (before : AclOp → Option Nat) (later : AclOp → Bool) :
    (AclOp.all.countP fun other =>
        leads position (if op = other then acl else before other) && !later other) +
      (if leads position acl && later op then 1 else 0) =
    (if leads position acl then 1 else 0) +
      AclOp.all.countP fun other =>
        leads position (before other) && !(decide (op = other) || later other) := by
  unfold AclOp.all
  simp only [List.countP_cons, List.countP_nil]
  cases op with
  | write => cases later .write <;> simp <;> omega
  | read => cases later .read <;> simp <;> omega
  | cfgset => cases later .cfgset <;> simp <;> omega
  | cfgread => cases later .cfgread <;> simp <;> omega

/-- Every statement for a list is overwritten or leaves a pointer. -/
theorem naming_eq (statements : List (AclOp × Option Nat)) (before : AclOp → Option Nat) :
    (AclOp.all.countP fun op => leads position (assigned statements op (before op))) +
        overwritten position statements =
      naming position statements +
        AclOp.all.countP fun op =>
          leads position (before op) && !(statements.any fun later => later.1 = op) := by
  induction statements generalizing before with
  | nil =>
      simp only [overwritten, naming, List.countP_nil, Nat.add_zero, Nat.zero_add, List.any_nil,
        Bool.not_false, Bool.and_true]
      rfl
  | cons statement rest ih =>
      obtain ⟨op, acl⟩ := statement
      have step := ih fun other => if op = other then acl else before other
      have replace := countP_replace position op acl before fun other =>
        rest.any fun later => later.1 = other
      have counted : naming position ((op, acl) :: rest) =
          naming position rest + if leads position acl then 1 else 0 := List.countP_cons
      rw [overwritten, counted]
      simp only [List.any_cons]
      change (AclOp.all.countP fun other =>
        leads position (assigned rest other (if op = other then acl else before other))) + _ = _
      omega

@[simp]
theorem leads_none (position : Nat) : leads position none = false := rfl

theorem naming_eq_none (position : Nat) (statements : List (AclOp × Option Nat)) :
    (AclOp.all.countP fun op => leads position (assigned statements op none)) +
      overwritten position statements = naming position statements := by
  have whole : _ = naming position statements + _ := naming_eq statements fun _ => none
  simpa using whole

theorem naming_flatMap (position : Nat) (sections : List Cfg)
    (statements : Cfg → List (AclOp × Option Nat)) :
    naming position (sections.flatMap statements) =
      total (fun section_ => naming position (statements section_)) sections := by
  induction sections with
  | nil => rfl
  | cons section_ rest ih =>
      rw [List.flatMap_cons, naming, List.countP_append, ← naming, ← naming, ih, total_cons]

/-- A pointer is set by the section or taken from the default section. -/
theorem countP_or (position : Nat) (own dflt : AclOp → Option Nat) :
    (AclOp.all.countP fun op => leads position ((own op).or (dflt op))) =
      (AclOp.all.countP fun op => leads position (own op)) +
        AclOp.all.countP fun op => (own op).isNone && leads position (dflt op) := by
  rw [List.countP_eq_countP_filter_add _ _ fun op => (own op).isSome, List.countP_filter,
    List.countP_filter]
  congr 1
  · apply List.countP_congr
    intro op _
    cases own op <;> simp
  · apply List.countP_congr
    intro op _
    cases own op <;> simp

end Statements

/-! ## Loading -/

section Load

variable {c : Cfg} {conf : Conf} {ifconfs : List Ifconf} {acllist : List Aclconf}
  {devlist : List Devconf} (loaded : Loaded c conf ifconfs acllist devlist)

include loaded

theorem resolve_eq_listOf (name : CString) : resolve acllist name = listOf c name := by
  have byName {α : Type} (nameOf : α → Option CString) (list : List α) :
      (list.findIdx? fun entry => nameOf entry = some name) =
        (list.map nameOf).findIdx? fun known => known = some name := by
    rw [List.findIdx?_map]
    rfl
  rw [← loaded.sameLists.resolve, resolve, listOf, byName Aclconf.name, byName aclName, loaded.names]

theorem pointers_eq_namedLists (section_ : Cfg) :
    pointers acllist (namedAcls section_) = namedLists c section_ := by
  unfold pointers namedLists
  simp only [resolve_eq_listOf loaded]

/-- A list counts the statements for it in all sections. -/
theorem refcntAt_loaded {position : Nat} (inside : position < acllist.length) :
    refcntAt conf.acllist position =
      total (fun section_ => naming position (namedLists c section_))
        (c.sections (text "default") ++ c.sections (text "device")) := by
  have blank : refcntAt acllist position = 0 := by
    have found := List.getElem?_eq_getElem inside
    obtain ⟨section_, _, read⟩ := forall₂_getElem? loaded.lists.flip found
    rw [refcntAt, found, Option.map_some, Option.getD_some, ReadACL.refcnt read]
  have statements : references acllist (c.sections (text "default") ++ c.sections (text "device")) =
      (c.sections (text "default") ++ c.sections (text "device")).flatMap (namedLists c) :=
    congrArg (List.flatMap · _) (funext (pointers_eq_namedLists loaded))
  rw [loaded.counts, refcntAt_counted _ inside, blank, statements, ← naming_flatMap, Int.zero_add]
  rfl

theorem dfltAcl_loaded (op : AclOp) : dfltAcl conf.devdefault op = defaultList c op := by
  rw [loaded.devdefault op, defaultList]
  simp only [pointers_eq_namedLists loaded]

/-- The pointers of a device, and the statements of its section. -/
theorem pointersTo_described (position : Nat) {section_ : Cfg} {device : Devconf}
    (described : DescribesDEV conf section_ device) :
    pointersTo position device + overwritten position (namedLists c section_) =
      naming position (namedLists c section_) +
        AclOp.all.countP fun op =>
          (assigned (namedLists c section_) op none).isNone && leads position (defaultList c op) := by
  obtain ⟨ifconfs, read, reads, completes⟩ := described
  have own (op : AclOp) : op.get read = assigned (namedLists c section_) op none := by
    rw [reads.hasAcls op, loaded.sameLists.pointers, pointers_eq_namedLists loaded]
  have pointers : pointersTo position device = AclOp.all.countP fun op =>
      leads position ((assigned (namedLists c section_) op none).or (defaultList c op)) := by
    unfold pointersTo
    simp only [completes.acls, own, dfltAcl_loaded loaded]
  rw [pointers, countP_or, ← naming_eq_none]
  omega

theorem total_devices (position : Nat) :
    total (pointersTo position) conf.devices +
        total (fun section_ => overwritten position (namedLists c section_)) (keptDEV c) =
      total (fun section_ => naming position (namedLists c section_)) (keptDEV c) +
        inherited c position := by
  have described := loaded.describesDEV
  unfold inherited
  generalize keptDEV c = sections at described ⊢
  generalize conf.devices = devices at described ⊢
  induction described with
  | nil => rfl
  | cons first _ ih =>
      have here := pointersTo_described loaded position first
      simp only [total_cons]
      omega

theorem total_devdefault (position : Nat) :
    total (pointersTo position) conf.devdefault.toList +
        total (fun section_ => overwritten position (namedLists c section_))
          (keptDFLT c).head?.toList =
      total (fun section_ => naming position (namedLists c section_)) (keptDFLT c).head?.toList := by
  have pointers : total (pointersTo position) conf.devdefault.toList =
      AclOp.all.countP fun op => leads position (defaultList c op) := by
    simp only [← dfltAcl_loaded loaded]
    cases conf.devdefault with
    | none => simp [dfltAcl]
    | some dflt => simp [dfltAcl, pointersTo]
  rw [pointers]
  unfold defaultList
  cases (keptDFLT c).head? with
  | none => simp
  | some section_ =>
      have counted := naming_eq_none position (namedLists c section_)
      simpa using counted

/-- What a list counts too much are the lost references, and what it counts too little
the inherited pointers. -/
theorem surplus_loaded {position : Nat} (inside : position < acllist.length) :
    surplus conf.acllist conf.devices position + inherited c position =
      total (pointersTo position) conf.devdefault.toList + lost c position := by
  have devices := total_devices loaded position
  have devdefault := total_devdefault loaded position
  have dfltSections : c.sections (text "default") = (c.sections (text "default")).rdropWhile acceptsDEV ++
      ((keptDFLT c).head?.toList ++ (keptDFLT c).tail) := by
    have whole : (keptDFLT c).head?.toList ++ (keptDFLT c).tail = keptDFLT c := by
      cases keptDFLT c <;> rfl
    rw [whole]
    exact List.rdropWhile_append_rtakeWhile.symm
  have devSections : c.sections (text "device") =
      (c.sections (text "device")).rdropWhile acceptsDEV ++ keptDEV c :=
    List.rdropWhile_append_rtakeWhile.symm
  have counted := refcntAt_loaded loaded inside
  rw [dfltSections, devSections] at counted
  unfold surplus lost ignoredSections
  rw [counted]
  simp only [total_append] at counted ⊢
  omega

end Load

/-- After loading a file and any requests for access lists the counts are exact, just if
of each list as many references are lost as pointers are inherited. -/
theorem refcnts_exact_iff (env : LoadEnv) (c : Cfg) (conf : Conf)
    (loads : qaoedLoadconfig env c = .ok conf) :
    (∀ calls : List Call, (∀ call ∈ calls, IsSetacl call) →
        RefcntsExact (apiThread.run ⟨conf, none⟩ calls).conf) ↔
      ∀ position < (keptACL c).length, lost c position = inherited c position := by
  obtain ⟨⟨ifconfs, acllist, devlist, loaded⟩, _⟩ := loaded_of_loads loads
  rw [refcntsExact_run_iff, refcntsExact_iff, loaded.sameLists.length, loaded.lists.length_eq]
  refine forall₂_congr fun position inside => ?_
  have surplus := surplus_loaded loaded inside
  omega

/-! ## An inherited list -/

/-- An access list `good` for the writers of devices without one, and two such devices. -/
def inheritingDevices : Cfg :=
  .block (text "access-list") (.assignment (text "name") (text "good")
    (.assignment (text "policy") (text "accept") .null))
    (.block (text "default") (.block (text "acl")
      (.assignment (text "write") (text "good") .null) .null) (twoDevices .null))

theorem refcnts_exact_iff_good :
    ∃ conf, qaoedLoadconfig willing (guardedDevice "good") = .ok conf ∧
      ∀ calls : List Call, (∀ call ∈ calls, IsSetacl call) →
        RefcntsExact (apiThread.run ⟨conf, none⟩ calls).conf := by
  refine ⟨_, rfl, (refcnts_exact_iff willing (guardedDevice "good") _ rfl).mpr ?_⟩
  intro position inside
  have one : (keptACL (guardedDevice "good")).length = 1 := by decide
  rw [one] at inside
  obtain rfl := Nat.lt_one_iff.mp inside
  decide

/-- Three pointers lead to the list, and it counts one reference; when the devices have
given theirs up, it counts -1. -/
theorem inheritedList_undercounts :
    ∃ conf, qaoedLoadconfig willing inheritingDevices = .ok conf ∧
      (¬ ∀ calls : List Call, (∀ call ∈ calls, IsSetacl call) →
        RefcntsExact (apiThread.run ⟨conf, none⟩ calls).conf) ∧
      (apiThread.run ⟨conf, none⟩ [⟨grantingEnv, .targetSetacl ⟨⟨[], 1, 1, [], -1, -1⟩, [], [], [], []⟩⟩,
        ⟨grantingEnv, .targetSetacl ⟨⟨[], 1, 2, [], -1, -1⟩, [], [], [], []⟩⟩]).conf.acllist.map
          Aclconf.refcnt = [-1] := by
  refine ⟨_, rfl, ?_, rfl⟩
  intro always
  cases always [] (fun _ member => nomatch member) 0 _ rfl

end Qaoed.Api
