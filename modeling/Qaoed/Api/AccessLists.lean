import Qaoed.Api.Handlers
import Qaoed.Config.LoadSpec
import Qaoed.Library.RefCount

/-!
# Replacing the access lists of a target

`processTARGET_SETACL` drops the list of a device before it looks the new one up,
one operation and one device after the other. An unknown name is an error of the
reply, and by then the old list is gone. What a list counts beyond the pointers to
it stays the same whatever a request does.
-/

namespace Qaoed.Api

open Qaoed.Device
open Qaoed.Library
open Qaoed.Config

/-! ## Pointers to a list -/

def leads (position : Nat) (acl : Option Nat) : Bool := acl = some position

/-- How many of the four pointers of a device lead to the list at a position. -/
def pointersTo (position : Nat) (device : Devconf) : Nat :=
  AclOp.all.countP fun op => leads position (op.get device)

/-- What a list counts beyond the pointers of the devices that lead to it. -/
def surplus (acllist : List Aclconf) (devices : List Devconf) (position : Nat) : Int :=
  refcntAt acllist position - total (pointersTo position) devices

/-- The device with other access lists. -/
def withAcls (device : Devconf) (acl : AclOp → Option Nat) : Devconf :=
  { device with
    wacl := acl .write
    racl := acl .read
    cfgsetacl := acl .cfgset
    cfgracl := acl .cfgread }

@[simp]
theorem get_withAcls (op : AclOp) (device : Devconf) (acl : AclOp → Option Nat) :
    op.get (withAcls device acl) = acl op := by
  cases op <;> rfl

theorem withAcls_get (device : Devconf) : (withAcls device fun op => op.get device) = device := rfl

/-- A pointer that is replaced moves from one list to another. -/
theorem pointersTo_set (position : Nat) (op : AclOp) (device : Devconf) (acl : Option Nat) :
    pointersTo position (op.set device acl) + (if op.get device = some position then 1 else 0) =
      pointersTo position device + if acl = some position then 1 else 0 := by
  unfold pointersTo AclOp.all leads
  simp only [List.countP_cons, List.countP_nil, AclOp.get_set, decide_eq_true_eq]
  cases op with
  | write => simp; omega
  | read => simp; omega
  | cfgset => simp; omega
  | cfgread => simp; omega

/-! ## What a request asks for -/

/-- The list that a name in a request stands for; the empty name stands for none. -/
def granted (acllist : List Aclconf) (name : CString) : Option Nat :=
  if name = [] then none else resolve acllist name

/-- A name that no list has. -/
def Unknown (acllist : List Aclconf) (name : CString) : Prop :=
  name ≠ [] ∧ resolve acllist name = none

instance (acllist : List Aclconf) (name : CString) : Decidable (Unknown acllist name) :=
  inferInstanceAs (Decidable (_ ∧ _))

/-- The search for a name ends. -/
def Searchable (acllist : List Aclconf) (name : CString) : Prop :=
  name = [] ∨ ∃ acl, referenceacl name acllist = .ok acl

theorem granted_congr {acllist acllist' : List Aclconf} (same : SameLists acllist acllist')
    (name : CString) : granted acllist' name = granted acllist name := by
  rw [granted, granted, same.resolve]

/-! ## The parts of the handler -/

section Parts

variable {target : TargetInfoDetailed} {setting setting' final : Setting}

/-- What the parts for some operations do: the pointers are set, the lists stay the
same but for their counts, and these follow the pointers. -/
structure Sets (target : TargetInfoDetailed) (ops : List AclOp) (setting setting' : Setting) :
    Prop where
  device : setting'.device = ops.foldl
    (fun device op => op.set device (granted setting.acllist (target.acl op))) setting.device
  same : SameLists setting.acllist setting'.acllist
  searched : ∀ op ∈ ops, Searchable setting.acllist (target.acl op)
  kept : ∀ position < setting.acllist.length,
    surplus setting'.acllist [setting'.device] position =
      surplus setting.acllist [setting.device] position
  error : setting'.error =
    if ∃ op ∈ ops, Unknown setting.acllist (target.acl op) then .failure else setting.error

/-- A pointer that is replaced takes its reference along. -/
theorem surplus_set {acllist : List Aclconf} (op : AclOp) (device : Devconf) (acl : Option Nat)
    {position : Nat} (inside : position < acllist.length) :
    surplus (aclrefup acl (aclrefdown (op.get device) acllist)) [op.set device acl] position =
      surplus acllist [device] position := by
  have moved := pointersTo_set position op device acl
  unfold surplus aclrefup aclrefdown
  rw [refcntAt_aclref 1 acl (by rwa [aclref_length]), refcntAt_aclref (-1) _ inside]
  simp only [total_cons, total_nil]
  split_ifs at moved ⊢ <;> omega

theorem setAcl_spec {op : AclOp} (returns : setAcl target setting op = .ok setting') :
    Sets target [op] setting setting' := by
  have dropped := aclref_sameLists (-1) (op.get setting.device) setting.acllist
  unfold setAcl at returns
  split_ifs at returns with empty
  · cases returns
    have nothing : granted setting.acllist (target.acl op) = none := if_pos empty
    refine ⟨?_, dropped, ?_, ?_, ?_⟩
    · rw [List.foldl_cons, nothing]
      rfl
    · intro op' member
      rw [List.mem_singleton.mp member]
      exact Or.inl empty
    · intro position inside
      exact surplus_set op setting.device none inside
    · rw [if_neg]
      rintro ⟨op', member, unknown⟩
      rw [List.mem_singleton.mp member] at unknown
      exact unknown.1 empty
  · obtain ⟨acl, found, returned⟩ := bind_eq_ok.mp returns
    cases returned
    have search : referenceacl (target.acl op) setting.acllist = .ok acl :=
      (dropped.referenceacl (target.acl op)).symm.trans found
    have position : acl = granted setting.acllist (target.acl op) := by
      rw [granted, if_neg empty]
      exact reference_eq search
    refine ⟨?_, (aclref_sameLists 1 acl _).trans dropped, ?_, ?_, ?_⟩
    · rw [List.foldl_cons, ← position]
      rfl
    · intro op' member
      rw [List.mem_singleton.mp member]
      exact Or.inr ⟨acl, search⟩
    · intro position inside
      exact surplus_set op setting.device acl inside
    · simp only [List.mem_singleton, exists_eq_left, Unknown, empty, not_false_eq_true, ne_eq,
        true_and, Option.isNone_iff_eq_none]
      rw [position, granted, if_neg empty]

theorem Sets.cons {op : AclOp} {ops : List AclOp} (first : Sets target [op] setting setting')
    (rest : Sets target ops setting' final) : Sets target (op :: ops) setting final where
  device := by
    rw [List.foldl_cons, rest.device, first.device]
    simp only [granted_congr first.same]
    rfl
  same := rest.same.trans first.same
  searched := by
    intro op' member
    rcases List.mem_cons.mp member with rfl | later
    · exact first.searched op' List.mem_cons_self
    · have searched := rest.searched op' later
      unfold Searchable at searched ⊢
      rwa [first.same.referenceacl] at searched
  kept := by
    intro position inside
    have inside' : position < setting'.acllist.length := by rwa [first.same.length]
    exact (rest.kept position inside').trans (first.kept position inside)
  error := by
    have laterSame : (∃ op' ∈ ops, Unknown setting'.acllist (target.acl op')) ↔
        ∃ op' ∈ ops, Unknown setting.acllist (target.acl op') := by
      simp only [Unknown, first.same.resolve]
    rw [rest.error, first.error]
    simp only [laterSame, List.mem_cons, List.not_mem_nil, or_false, exists_eq_left,
      exists_eq_or_imp]
    by_cases later : ∃ op' ∈ ops, Unknown setting.acllist (target.acl op')
    · rw [if_pos later, if_pos (Or.inr later)]
    · rw [if_neg later]
      simp only [later, or_false]

theorem setOps_spec {ops : List AclOp} (returns : ops.foldlM (setAcl target) setting = .ok setting') :
    Sets target ops setting setting' := by
  induction ops generalizing setting with
  | nil =>
      cases returns
      refine ⟨rfl, rfl, ?_, fun _ _ => rfl, ?_⟩
      · intro op member
        cases member
      · rw [if_neg]
        rintro ⟨op, member, _⟩
        cases member
  | cons op ops ih =>
      rw [List.foldlM_cons] at returns
      obtain ⟨middle, first, rest⟩ := bind_eq_ok.mp returns
      exact (setAcl_spec first).cons (ih rest)

end Parts

/-! ## All devices -/

/-- The device as the request leaves it. -/
def replaced (target : TargetInfoDetailed) (intlist : List Interface) (acllist : List Aclconf)
    (device : Devconf) : Devconf :=
  if target.info.selects intlist device then
    withAcls device fun op => granted acllist (target.acl op)
  else device

/-- What the loop does to the devices and the access lists. -/
structure SetsAll (target : TargetInfoDetailed) (intlist : List Interface)
    (devices : List Devconf) (acllist : List Aclconf) (error : ApiError)
    (devices' : List Devconf) (acllist' : List Aclconf) (error' : ApiError) : Prop where
  result : devices' = devices.map (replaced target intlist acllist)
  same : SameLists acllist acllist'
  searched : ∀ device ∈ devices, target.info.selects intlist device = true →
    ∀ op, Searchable acllist (target.acl op)
  kept : ∀ position < acllist.length,
    surplus acllist' devices' position = surplus acllist devices position
  error : error' =
    if (∃ device ∈ devices, target.info.selects intlist device = true) ∧
      ∃ op ∈ AclOp.all, Unknown acllist (target.acl op) then .failure else error

section Devices

variable {target : TargetInfoDetailed} {intlist : List Interface} {device : Devconf}
  {devices devices' : List Devconf} {acllist acllist' : List Aclconf} {error error' : ApiError}
  {setting : Setting}

/-- A device the request selects, in front of others. -/
theorem SetsAll.selected (selects : target.info.selects intlist device = true)
    (first : Sets target AclOp.all ⟨device, acllist, error⟩ setting)
    (rest : SetsAll target intlist devices setting.acllist setting.error devices' acllist' error') :
    SetsAll target intlist (device :: devices) acllist error (setting.device :: devices')
      acllist' error' where
  result := by
    have same : replaced target intlist setting.acllist = replaced target intlist acllist := by
      funext device
      unfold replaced
      simp only [granted_congr first.same]
    rw [List.map_cons, rest.result, same, replaced, if_pos selects, first.device]
    rfl
  same := rest.same.trans first.same
  searched _ _ _ op := first.searched op (AclOp.mem_all op)
  kept := by
    intro position inside
    have inside' : position < setting.acllist.length := by rwa [first.same.length]
    have here := first.kept position inside
    have later := rest.kept position inside'
    unfold surplus at here later ⊢
    simp only [total_cons, total_nil] at here ⊢
    omega
  error := by
    have unknownSame : (∃ op ∈ AclOp.all, Unknown setting.acllist (target.acl op)) ↔
        ∃ op ∈ AclOp.all, Unknown acllist (target.acl op) := by
      simp only [Unknown, first.same.resolve]
    rw [rest.error, first.error]
    simp only [unknownSame]
    by_cases unknown : ∃ op ∈ AclOp.all, Unknown acllist (target.acl op)
    · rw [if_pos unknown, ite_self, if_pos ⟨⟨device, List.mem_cons_self, selects⟩, unknown⟩]
    · simp only [unknown, and_false, if_false]

/-- A device the request does not select, in front of others. -/
theorem SetsAll.skipped (skips : target.info.selects intlist device = false)
    (rest : SetsAll target intlist devices acllist error devices' acllist' error') :
    SetsAll target intlist (device :: devices) acllist error (device :: devices')
      acllist' error' where
  result := by
    rw [List.map_cons, rest.result, replaced, skips, if_neg Bool.false_ne_true]
  same := rest.same
  searched := by
    intro device' member selects
    rcases List.mem_cons.mp member with rfl | later
    · rw [skips] at selects
      cases selects
    · exact rest.searched device' later selects
  kept := by
    intro position inside
    have later := rest.kept position inside
    unfold surplus at later ⊢
    simp only [total_cons]
    omega
  error := by
    rw [rest.error]
    simp only [List.mem_cons, exists_eq_or_imp, skips, Bool.false_eq_true, false_or]

theorem setAcls_spec
    (returns : setAcls target intlist devices acllist error = .ok (devices', acllist', error')) :
    SetsAll target intlist devices acllist error devices' acllist' error' := by
  induction devices generalizing acllist error devices' with
  | nil =>
      cases returns
      refine ⟨rfl, rfl, ?_, fun _ _ => rfl, ?_⟩
      · intro device member
        cases member
      · rw [if_neg]
        rintro ⟨⟨device, member, _⟩, _⟩
        cases member
  | cons device devices ih =>
      rw [setAcls] at returns
      obtain ⟨setting, first, returns⟩ := bind_eq_ok.mp returns
      obtain ⟨⟨others, acllist'', error''⟩, rest, returned⟩ := bind_eq_ok.mp returns
      cases returned
      unfold setDevice at first
      cases selects : target.info.selects intlist device with
      | true =>
          rw [if_pos selects] at first
          exact SetsAll.selected selects (setOps_spec first) (ih rest)
      | false =>
          rw [if_neg (by rw [selects]; exact Bool.false_ne_true)] at first
          cases first
          exact SetsAll.skipped selects (ih rest)

/-- The searches of a request that selects a device all end, or the handler does not return. -/
theorem setAcl_returns {op : AclOp} (searchable : Searchable setting.acllist (target.acl op)) :
    ∃ setting', setAcl target setting op = .ok setting' := by
  have dropped := aclref_sameLists (-1) (op.get setting.device) setting.acllist
  unfold setAcl
  by_cases empty : target.acl op = []
  · rw [if_pos empty]
    exact ⟨_, rfl⟩
  · rw [if_neg empty]
    obtain ⟨acl, found⟩ := searchable.resolve_left empty
    rw [← dropped.referenceacl] at found
    exact ⟨_, bind_eq_ok.mpr ⟨acl, found, rfl⟩⟩

theorem setOps_returns {ops : List AclOp}
    (searchable : ∀ op, Searchable setting.acllist (target.acl op)) :
    ∃ setting', ops.foldlM (setAcl target) setting = .ok setting' := by
  induction ops generalizing setting with
  | nil => exact ⟨setting, rfl⟩
  | cons op ops ih =>
      obtain ⟨middle, first⟩ := setAcl_returns (searchable op)
      have same := (setAcl_spec first).same
      have searchable' (op' : AclOp) : Searchable middle.acllist (target.acl op') := by
        unfold Searchable
        rw [same.referenceacl]
        exact searchable op'
      obtain ⟨final, rest⟩ := ih searchable'
      rw [List.foldlM_cons]
      exact ⟨final, bind_eq_ok.mpr ⟨middle, first, rest⟩⟩

theorem setAcls_returns (searchable : ∀ op, Searchable acllist (target.acl op)) :
    ∃ result, setAcls target intlist devices acllist error = .ok result := by
  induction devices generalizing acllist error with
  | nil => exact ⟨_, rfl⟩
  | cons device devices ih =>
      have first : ∃ setting, SameLists acllist setting.acllist ∧
          setDevice target intlist ⟨device, acllist, error⟩ = .ok setting := by
        unfold setDevice
        split
        · have searchable' (op : AclOp) :
              Searchable (Setting.mk device acllist error).acllist (target.acl op) := searchable op
          obtain ⟨setting, set⟩ := setOps_returns searchable'
          exact ⟨setting, (setOps_spec set).same, set⟩
        · exact ⟨⟨device, acllist, error⟩, rfl, rfl⟩
      obtain ⟨setting, same, set⟩ := first
      have searchable' (op : AclOp) : Searchable setting.acllist (target.acl op) := by
        unfold Searchable
        rw [same.referenceacl]
        exact searchable op
      obtain ⟨result, rest⟩ := ih searchable'
      rw [setAcls]
      exact ⟨_, bind_eq_ok.mpr ⟨setting, set, bind_eq_ok.mpr ⟨result, rest, rfl⟩⟩⟩

end Devices

/-! ## All or nothing -/

section Atomic

variable {conf : Conf} {target : TargetInfoDetailed}

/-- The pointer leads to the list of this name, or nowhere if the name is empty. -/
def LeadsTo (acllist : List Aclconf) (name : CString) (acl : Option Nat) : Prop :=
  if name = [] then acl = none
  else ∃ position list, acl = some position ∧ acllist[position]? = some list ∧ list.name = some name

/-- A request that fails leaves the pointers of the devices and the counts of the lists;
one that succeeds gives the selected devices the lists it names, and no other device changes. -/
structure Atomic (conf : Conf) (target : TargetInfoDetailed) (after : Conf) (error : ApiError) :
    Prop where
  failure : error = .failure →
    List.Forall₂ (fun before after => ∀ op : AclOp, op.get after = op.get before)
      conf.devices after.devices ∧
    after.acllist.map Aclconf.refcnt = conf.acllist.map Aclconf.refcnt
  allok : error = .allok →
    List.Forall₂ (fun before after =>
      if target.info.selects conf.intlist before then
        ∀ op : AclOp, LeadsTo conf.acllist (target.acl op) (op.get after)
      else after = before) conf.devices after.devices

def SetaclAtomic (conf : Conf) (target : TargetInfoDetailed) : Prop :=
  ∀ reply ∈ (processTargetSetacl conf target).sent,
    Atomic conf target (processTargetSetacl conf target).conf reply.error

/-- The search for a name runs into a list without one. -/
def SearchFails (conf : Conf) (target : TargetInfoDetailed) : Prop :=
  ∃ op stop, target.acl op ≠ [] ∧ referenceacl (target.acl op) conf.acllist = .error stop

/-- Every name is empty or that of a list. -/
def NamesKnown (conf : Conf) (target : TargetInfoDetailed) : Prop :=
  ∀ op, target.acl op = [] ∨ ∃ list ∈ conf.acllist, list.name = some (target.acl op)

/-- The selected devices have what the request would leave. -/
def AlreadySet (conf : Conf) (target : TargetInfoDetailed) : Prop :=
  ∀ device ∈ conf.devices, target.info.selects conf.intlist device = true →
    ∀ op : AclOp, op.get device = granted conf.acllist (target.acl op)

/-- The handler stops at a search, or replies after the loop. -/
theorem processTargetSetacl_cases (conf : Conf) (target : TargetInfoDetailed) :
    (SearchFails conf target ∧ (processTargetSetacl conf target).sent = []) ∨
      ∃ devices acllist error,
        SetsAll target conf.intlist conf.devices conf.acllist .allok devices acllist error ∧
        processTargetSetacl conf target = ⟨{ conf with devices := devices, acllist := acllist }, [],
          [⟨error, sizeofTargetInfoDetailed, sizeofTargetInfoDetailed, .detailed target⟩], none⟩ := by
  unfold processTargetSetacl
  cases result : setAcls target conf.intlist conf.devices conf.acllist .allok with
  | ok triple =>
      obtain ⟨devices, acllist, error⟩ := triple
      exact Or.inr ⟨devices, acllist, error, setAcls_spec result, rfl⟩
  | error stop =>
      refine Or.inl ⟨?_, rfl⟩
      by_contra searches
      have searchable (op : AclOp) : Searchable conf.acllist (target.acl op) := by
        by_cases empty : target.acl op = []
        · exact Or.inl empty
        · cases search : referenceacl (target.acl op) conf.acllist with
          | ok acl => exact Or.inr ⟨acl, search⟩
          | error stop => exact absurd ⟨op, stop, empty, search⟩ searches
      obtain ⟨result', returned⟩ := setAcls_returns searchable
      rw [result] at returned
      cases returned

theorem refcnts_eq {acllist acllist' : List Aclconf} (same : SameLists acllist acllist')
    (counts : ∀ position < acllist.length,
      refcntAt acllist' position = refcntAt acllist position) :
    acllist'.map Aclconf.refcnt = acllist.map Aclconf.refcnt := by
  apply List.ext_getElem
  · rw [List.length_map, List.length_map, same.length]
  · intro position inside' inside
    rw [List.length_map] at inside inside'
    have count := counts position inside
    rw [List.getElem_map, List.getElem_map]
    rwa [refcntAt, refcntAt, List.getElem?_eq_getElem inside, List.getElem?_eq_getElem inside'] at count

theorem namesKnown_iff :
    NamesKnown conf target ↔ ∀ op, ¬ Unknown conf.acllist (target.acl op) := by
  refine forall_congr' fun op => ?_
  rw [← resolve_isSome_iff, Unknown, not_and_or, not_not, ← ne_eq, Option.ne_none_iff_isSome]

theorem leadsTo_granted {name : CString} (known : ¬ Unknown conf.acllist name) :
    LeadsTo conf.acllist name (granted conf.acllist name) := by
  unfold LeadsTo granted
  by_cases empty : name = []
  · rw [if_pos empty, if_pos empty]
  · rw [if_neg empty, if_neg empty]
    cases found : resolve conf.acllist name with
    | none => exact absurd ⟨empty, found⟩ known
    | some position =>
        obtain ⟨list, there, named⟩ := resolve_some found
        exact ⟨position, list, rfl, there, named⟩

theorem get_replaced {device : Devconf} (op : AclOp)
    (selects : target.info.selects conf.intlist device = true) :
    op.get (replaced target conf.intlist conf.acllist device) =
      granted conf.acllist (target.acl op) := by
  rw [replaced, if_pos selects, get_withAcls]

/-- Devices that have what the request would leave stay as they are. -/
theorem AlreadySet.replaced (already : AlreadySet conf target) :
    conf.devices.map (Api.replaced target conf.intlist conf.acllist) = conf.devices := by
  rw [List.map_congr_left, List.map_id']
  intro device member
  unfold Api.replaced
  split
  · next selects =>
      have lists : (fun op => granted conf.acllist (target.acl op)) = fun op => op.get device := by
        funext op
        exact (already device member selects op).symm
      rw [lists, withAcls_get]
  · rfl

section Sets

variable {devices : List Devconf} {acllist : List Aclconf} {error : ApiError}
  (sets : SetsAll target conf.intlist conf.devices conf.acllist .allok devices acllist error)

include sets

/-- A reply with an error has a selected device and an unknown name behind it. -/
theorem SetsAll.failure_iff : error = .failure ↔
    (∃ device ∈ conf.devices, target.info.selects conf.intlist device = true) ∧
      ∃ op ∈ AclOp.all, Unknown conf.acllist (target.acl op) := by
  rw [sets.error]
  split
  · next refused => exact iff_of_true rfl refused
  · next granted => exact iff_of_false (fun same => nomatch same) granted

/-- Pointers that a failing request leaves are those it would leave. -/
theorem SetsAll.alreadySet (kept : List.Forall₂
    (fun before after => ∀ op : AclOp, op.get after = op.get before) conf.devices devices) :
    AlreadySet conf target := by
  rw [sets.result, List.forall₂_map_right_iff, List.forall₂_same] at kept
  intro device member selects op
  rw [← kept device member op, get_replaced op selects]

theorem SetsAll.nothing (already : AlreadySet conf target) :
    List.Forall₂ (fun before after => ∀ op : AclOp, op.get after = op.get before)
      conf.devices devices ∧
    acllist.map Aclconf.refcnt = conf.acllist.map Aclconf.refcnt := by
  have same : devices = conf.devices := sets.result.trans already.replaced
  constructor
  · rw [same]
    exact List.forall₂_same.mpr fun _ _ _ => rfl
  · apply refcnts_eq sets.same
    intro position inside
    have kept := sets.kept position inside
    unfold surplus at kept
    rw [same] at kept
    omega

theorem SetsAll.all (granted : error = .allok) :
    List.Forall₂ (fun before after =>
      if target.info.selects conf.intlist before then
        ∀ op : AclOp, LeadsTo conf.acllist (target.acl op) (op.get after)
      else after = before) conf.devices devices := by
  rw [sets.result, List.forall₂_map_right_iff, List.forall₂_same]
  intro device member
  cases selects : target.info.selects conf.intlist device with
  | false =>
      rw [if_neg Bool.false_ne_true]
      unfold replaced
      rw [selects, if_neg Bool.false_ne_true]
  | true =>
      rw [if_pos rfl]
      intro op
      rw [get_replaced op selects]
      apply leadsTo_granted
      intro unknown
      have refused := sets.failure_iff.mpr ⟨⟨device, member, selects⟩, op, AclOp.mem_all op, unknown⟩
      rw [granted] at refused
      cases refused

end Sets

/-- A request for access lists is all or nothing exactly if a search never ends, every
name is known, or the selected devices have what the request would leave. -/
theorem processTargetSetacl_atomic_iff (conf : Conf) (target : TargetInfoDetailed) :
    SetaclAtomic conf target ↔
      SearchFails conf target ∨ NamesKnown conf target ∨ AlreadySet conf target := by
  unfold SetaclAtomic
  rcases processTargetSetacl_cases conf target with
    ⟨fails, silent⟩ | ⟨devices, acllist, error, sets, returned⟩
  · rw [silent]
    exact iff_of_true (fun _ member => nomatch member) (Or.inl fails)
  · rw [returned, List.forall_mem_singleton]
    constructor
    · intro atomic
      cases error with
      | failure => exact Or.inr (Or.inr (sets.alreadySet (atomic.failure rfl).1))
      | allok =>
          have accepted := mt sets.failure_iff.mpr (fun same => nomatch same)
          by_cases known : NamesKnown conf target
          · exact Or.inr (Or.inl known)
          · refine Or.inr (Or.inr ?_)
            rw [namesKnown_iff, not_forall] at known
            obtain ⟨op, unknown⟩ := known
            intro device member selects
            exact absurd ⟨⟨device, member, selects⟩, op, AclOp.mem_all op, not_not.mp unknown⟩ accepted
    · intro allowed
      refine ⟨?_, sets.all⟩
      intro refused
      obtain ⟨⟨device, member, selects⟩, op, _, unknown⟩ := sets.failure_iff.mp refused
      rcases allowed with ⟨op', stop, empty, fails⟩ | known | already
      · rcases sets.searched device member selects op' with empty' | ⟨acl, found⟩
        · exact absurd empty' empty
        · rw [fails] at found
          cases found
      · exact absurd unknown (namesKnown_iff.mp known op)
      · exact sets.nothing already

end Atomic

/-! ## A name that is not known -/

/-- A device whose writers the access list `good` guards. -/
def guardedConf : Conf where
  loglist := []
  intlist := [⟨⟨text "eth0", none, 1500, 1518, none⟩, 1⟩]
  devdefault := none
  devices := [{ blankDEV with shelf := 1, slot := 1, interface := some 0, wacl := some 0 }]
  acllist := [⟨some (text "good"), 1, 1, aclReject, [], none⟩]

/-- A request for the writers of that device. -/
def writersRequest (name : String) : TargetInfoDetailed :=
  ⟨⟨[], 1, 1, [], -1, -1⟩, text name, [], [], []⟩

/-- The request is refused, and the device is open to all writers. -/
theorem unknownName_dropsList :
    ((processTargetSetacl guardedConf (writersRequest "goood")).sent.map Reply.error,
      (processTargetSetacl guardedConf (writersRequest "goood")).conf.devices.map AclOp.write.get) =
        ([.failure], [none]) ∧
    ¬ SetaclAtomic guardedConf (writersRequest "goood") := by
  refine ⟨rfl, ?_⟩
  intro atomic
  have kept := (atomic _ List.mem_cons_self).failure rfl
  cases kept.2

end Qaoed.Api
