import Qaoed.Config.Interfaces
import Qaoed.Config.Text

/-!
# Records under construction

The lists of a configuration while it is read. A section may leave the name of
its record out, so names are pointers that may be NULL here, and a record refers
to an access list or an interface by its position in the list.
-/

namespace Qaoed.Config

open Qaoed.Device
open Qaoed.Frame
open Qaoed.Library

/-- Why a function does not return: it follows a NULL pointer, or a loop has no end.
`null` is `qaoed_loadconfig` returning NULL. -/
inductive Stop where
  | null
  | crash
  | hang
  deriving DecidableEq, Repr

/-- Use what a pointer leads to. -/
def follow {α β : Type} (pointer : Option α) (use : α → Except Stop β) : Except Stop β :=
  match pointer with
  | none => .error .crash
  | some target => use target

theorem follow_eq_ok {α β : Type} {pointer : Option α} {use : α → Except Stop β} {result : β} :
    follow pointer use = .ok result ↔ ∃ target, pointer = some target ∧ use target = .ok result := by
  cases pointer with
  | none => simp [follow]
  | some target => simp [follow]

structure Logconf where
  name : Option CString
  logtype : Logtype
  deriving DecidableEq, Repr

structure Aclconf where
  name : Option CString
  aclnum : Nat
  refcnt : Int
  defaultpolicy : UInt8
  acl : List Aclentry
  log : Option Logging
  deriving DecidableEq, Repr

structure Ifconf where
  ifname : Option CString
  mtu : Int
  buffsize : Int
  log : Option Logging
  deriving DecidableEq, Repr

/-- A device with what only the configuration and the API look at. -/
structure Devconf extends Aoedev Nat Nat where
  writecache : Int
  broadcast : Int
  log : Option Logging

/-! ## Names -/

section Reference

variable {α : Type}

/-- The loop that looks a name up: the position of the first entry that has it. A
name that is missing is handed to `strcmp`. -/
def reference (nameOf : α → Option CString) (name : CString) : List α → Except Stop (Option Nat)
  | [] => .ok none
  | entry :: next =>
      follow (nameOf entry) fun known =>
        if name = known then .ok (some 0)
        else (reference nameOf name next).map (Option.map (· + 1))

def referenceacl (name : CString) (acllist : List Aclconf) : Except Stop (Option Nat) :=
  reference Aclconf.name name acllist

def referenceifconf (name : CString) (intlist : List Ifconf) : Except Stop (Option Nat) :=
  reference Ifconf.ifname name intlist

/-- Logging targets do not change any more, so one stands for the pointer to it. -/
def referencelog (name : CString) (loglist : List Logconf) : Except Stop (Option Logging) :=
  (reference Logconf.name name loglist).map fun position =>
    (position.bind (loglist[·]?)).map fun log => ⟨name, log.logtype⟩

/-- The target for a name, or an invalid one in its place. -/
def referencelogOrErr (name : CString) (loglist : List Logconf) : Except Stop (Option Logging) :=
  (referencelog name loglist).map fun log => log.or (some ⟨name, .err⟩)

variable {nameOf : α → Option CString} {name : CString} {entries : List α}

/-- A search that comes to an end has found the first entry with the name. -/
theorem reference_eq {position : Option Nat}
    (returns : reference nameOf name entries = .ok position) :
    position = entries.findIdx? fun entry => nameOf entry = some name := by
  induction entries generalizing position with
  | nil =>
      cases returns
      rfl
  | cons entry next ih =>
      rw [reference] at returns
      obtain ⟨known, named, returns⟩ := follow_eq_ok.mp returns
      rw [List.findIdx?_cons, named]
      by_cases same : name = known
      · rw [if_pos same] at returns
        cases returns
        rw [if_pos (by rw [same]; exact decide_eq_true rfl)]
      · rw [if_neg same] at returns
        obtain ⟨position', later, rfl⟩ := map_eq_ok.mp returns
        rw [if_neg (by simpa using fun equal => same equal.symm), ih later]

end Reference

/-! ## The operations an access list can guard -/

inductive AclOp where
  | write
  | read
  | cfgset
  | cfgread
  deriving DecidableEq, Repr

namespace AclOp

/-- The pointer of a device for the operation. -/
def get (op : AclOp) (dev : Devconf) : Option Nat :=
  match op with
  | .write => dev.wacl
  | .read => dev.racl
  | .cfgset => dev.cfgsetacl
  | .cfgread => dev.cfgracl

def set (op : AclOp) (dev : Devconf) (acl : Option Nat) : Devconf :=
  match op with
  | .write => { dev with wacl := acl }
  | .read => { dev with racl := acl }
  | .cfgset => { dev with cfgsetacl := acl }
  | .cfgread => { dev with cfgracl := acl }

def all : List AclOp := [.write, .read, .cfgset, .cfgread]

theorem mem_all (op : AclOp) : op ∈ all := by
  cases op <;> decide

@[simp]
theorem get_set (op op' : AclOp) (dev : Devconf) (acl : Option Nat) :
    op'.get (op.set dev acl) = if op = op' then acl else op'.get dev := by
  cases op <;> cases op' <;> rfl

end AclOp

/-! ## Reference counts -/

/-- Move the count of the list that a pointer leads to, if it leads to one. -/
def aclref (step : Int) (acl : Option Nat) (acllist : List Aclconf) : List Aclconf :=
  match acl with
  | none => acllist
  | some position => acllist.modify position fun acl => { acl with refcnt := acl.refcnt + step }

def aclrefup (acl : Option Nat) (acllist : List Aclconf) : List Aclconf := aclref 1 acl acllist

def aclrefdown (acl : Option Nat) (acllist : List Aclconf) : List Aclconf := aclref (-1) acl acllist

@[simp]
theorem aclref_length (step : Int) (acl : Option Nat) (acllist : List Aclconf) :
    (aclref step acl acllist).length = acllist.length := by
  cases acl with
  | none => rfl
  | some position => exact List.length_modify _ _ _

/-- The record of an access list apart from its count. -/
def Aclconf.uncounted (acl : Aclconf) : Aclconf := { acl with refcnt := 0 }

/-- The lists agree in everything but the counts. -/
def SameLists (first second : List Aclconf) : Prop :=
  second.map Aclconf.uncounted = first.map Aclconf.uncounted

theorem aclref_sameLists (step : Int) (acl : Option Nat) (acllist : List Aclconf) :
    SameLists acllist (aclref step acl acllist) := by
  cases acl with
  | none => rfl
  | some position =>
      apply List.ext_getElem?
      intro index
      rw [List.getElem?_map, List.getElem?_map, aclref, List.getElem?_modify]
      cases acllist[index]? with
      | none => rfl
      | some acl =>
          simp only [Option.map_some]
          split <;> rfl

/-- The position a name stands for. -/
def resolve (acllist : List Aclconf) (name : CString) : Option Nat :=
  acllist.findIdx? fun acl => acl.name = some name

theorem SameLists.resolve {first second : List Aclconf} (same : SameLists first second)
    (name : CString) : Config.resolve second name = Config.resolve first name := by
  have byName (acllist : List Aclconf) : Config.resolve acllist name =
      (acllist.map Aclconf.uncounted).findIdx? fun acl => acl.name = some name := by
    rw [List.findIdx?_map]
    rfl
  rw [byName, byName, same]

theorem SameLists.referenceacl {first second : List Aclconf} (same : SameLists first second)
    (name : CString) : Config.referenceacl name second = Config.referenceacl name first := by
  have byName (acllist : List Aclconf) : Config.referenceacl name acllist =
      Config.referenceacl name (acllist.map Aclconf.uncounted) := by
    unfold Config.referenceacl
    induction acllist with
    | nil => rfl
    | cons acl next ih =>
        rw [List.map_cons, reference, reference, ih]
        rfl
  rw [byName, byName first, same]

/-- A name that stands for a position is the name of the list there. -/
theorem resolve_some {acllist : List Aclconf} {name : CString} {position : Nat}
    (found : resolve acllist name = some position) :
    ∃ acl, acllist[position]? = some acl ∧ acl.name = some name := by
  obtain ⟨inside, named, _⟩ := List.findIdx?_eq_some_iff_getElem.mp found
  exact ⟨acllist[position], List.getElem?_eq_getElem inside, of_decide_eq_true named⟩

theorem resolve_isSome_iff {acllist : List Aclconf} {name : CString} :
    (resolve acllist name).isSome = true ↔ ∃ acl ∈ acllist, acl.name = some name := by
  rw [resolve, List.findIdx?_isSome, List.any_eq_true]
  simp only [decide_eq_true_eq]

/-- The count of the list at a position; 0 where there is none. -/
def refcntAt (acllist : List Aclconf) (position : Nat) : Int :=
  ((acllist[position]?).map Aclconf.refcnt).getD 0

theorem refcntAt_aclref (step : Int) (acl : Option Nat) {acllist : List Aclconf} {position : Nat}
    (inside : position < acllist.length) :
    refcntAt (aclref step acl acllist) position =
      refcntAt acllist position + if acl = some position then step else 0 := by
  cases acl with
  | none => simp [aclref]
  | some place =>
      unfold refcntAt aclref
      dsimp only
      rw [List.getElem?_modify, List.getElem?_eq_getElem inside]
      by_cases here : place = position
      · simp [here]
      · simp [here]

end Qaoed.Config
