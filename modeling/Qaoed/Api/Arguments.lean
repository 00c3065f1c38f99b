import Qaoed.Api.Replies
import Qaoed.Api.Requests

/-!
# How far arguments are read

An argument has as many bytes as its header announces, and `recvAPIrequest` checks only
that these are not too many. The handlers read it as the structure that belongs to the
command, and its strings up to a zero byte. Here are the offsets that a handler reads and
writes, and what an argument must have for all of them to lie inside.
-/

namespace Qaoed.Api

open Qaoed.Device
open Qaoed.Library
open Qaoed.Config

/-! ## Strings -/

/-- How many bytes of its second argument `strcmp` reads: up to the first that differs, or
to a zero byte that both have. Behind the end it goes on to the next byte at least. -/
def compared : CString → List UInt8 → Nat
  | _, [] => 1
  | [], _ :: _ => 1
  | char :: name, byte :: bytes => if char = byte then compared name bytes + 1 else 1

def strcmpOffsets (arg : List UInt8) (offset : Nat) (name : CString) : List Nat :=
  List.range' offset (compared name (arg.drop offset))

/-- What `strlen` and `strdup` read: the string and the byte behind it. -/
def strlenOffsets (arg : List UInt8) (offset : Nat) : List Nat :=
  List.range' offset ((cstringAt arg offset).length + 1)

/-- The names that a string is compared with until it is found. A search ends at an entry
without a name. -/
def examined (asked : CString) : List (Option CString) → List CString
  | [] => []
  | none :: _ => []
  | some name :: names => if asked = name then [name] else name :: examined asked names

def searchOffsets (arg : List UInt8) (offset : Nat) (names : List (Option CString)) : List Nat :=
  (examined (cstringAt arg offset) names).flatMap (strcmpOffsets arg offset)

def ifnames (conf : Conf) : List (Option CString) :=
  conf.intlist.map fun interface => some interface.ifname

def aclnames (conf : Conf) : List (Option CString) := conf.acllist.map fun acl => acl.name

/-! ## Handlers -/

/-- `referenceint`, and what is read and written if it finds the interface; the structure
is sent back in any case. -/
def setmtuOffsets (conf : Conf) (arg : List UInt8) (ifcmd : InterfaceCmd) : List Nat :=
  searchOffsets arg 0 (ifnames conf) ++
    (if (referenceint ifcmd.ifname conf.intlist).isSome then
      List.range' 20 4 ++ List.range' 0 (ifcmd.ifname.length + 1)
    else []) ++
    List.range' 0 sizeofInterfaceCmd

/-- The fields of a new device that have another type than a string. -/
def valueOffsets : List Nat := List.range' 120 2 ++ [122] ++ List.range' 148 4 ++ List.range' 144 4

/-- What is written over the request before it is sent back. -/
def writtenBack (reply : Reply) : List Nat :=
  match reply.error, reply.arg with
  | .allok, .target info =>
      valueOffsets ++ List.range' 0 (info.devicename.length + 1) ++
        List.range' 123 (info.ifname.length + 1)
  | _, _ => []

def targetAddOffsets (env : ApiEnv) (conf : Conf) (arg : List UInt8) (target : TargetInfo) :
    List Nat :=
  if !env.malloc then []
  else
    strlenOffsets arg 0 ++ valueOffsets ++ strlenOffsets arg 123 ++
      (if target.ifname = [] then [] else searchOffsets arg 123 (ifnames conf)) ++
      (processTargetAdd env conf target).sent.flatMap fun reply =>
        writtenBack reply ++ List.range' 0 reply.sent

/-- The test of both loops for one device: the shelf is read if the slot is the same, and
the interface if the shelf is, too. -/
def selectOffsets (conf : Conf) (arg : List UInt8) (target : TargetInfo) (device : Devconf) :
    List Nat :=
  122 :: if device.slot = target.slot then
    List.range' 120 2 ++ if device.shelf = target.shelf then
      123 :: if target.ifname = [] then [] else searchOffsets arg 123 (ifnames conf)
    else []
  else []

def targetDelOffsets (conf : Conf) (arg : List UInt8) (target : TargetInfo) : List Nat :=
  let loop := conf.devices.flatMap (selectOffsets conf arg target)
  if conf.devices.countP (target.selects conf.intlist) = 1 then loop ++ loop else loop

/-- A search that follows the NULL pointer of a list without a name. -/
def searchFails (conf : Conf) (target : TargetInfoDetailed) (op : AclOp) : Bool :=
  target.acl op ≠ [] &&
    match referenceacl (target.acl op) conf.acllist with
    | .error _ => true
    | .ok _ => false

/-- A search that gets to the end of the list. -/
def searchMisses (conf : Conf) (target : TargetInfoDetailed) (op : AclOp) : Bool :=
  match referenceacl (target.acl op) conf.acllist with
  | .ok none => true
  | _ => false

/-- The part of the handler for one operation, and whether the daemon goes down in it. A
name that no list has is read once more, for the log. -/
def aclOffsets (conf : Conf) (arg : List UInt8) (target : TargetInfoDetailed) (op : AclOp) :
    List Nat × Bool :=
  (aclOffset op :: if target.acl op = [] then [] else
      searchOffsets arg (aclOffset op) (aclnames conf) ++
        if searchMisses conf target op then strlenOffsets arg (aclOffset op) else [],
    searchFails conf target op)

def deviceOffsets (conf : Conf) (arg : List UInt8) (target : TargetInfoDetailed)
    (device : Devconf) : List (List Nat × Bool) :=
  (selectOffsets conf arg target.info device, false) ::
    if target.info.selects conf.intlist device then AclOp.all.map (aclOffsets conf arg target)
    else []

/-- A list up to the first item of a kind, which is the last one. -/
def upTo {α : Type} (last : α → Bool) : List α → List α
  | [] => []
  | item :: items => item :: if last item then [] else upTo last items

def targetSetaclOffsets (conf : Conf) (arg : List UInt8) (target : TargetInfoDetailed) : List Nat :=
  let steps := conf.devices.flatMap (deviceOffsets conf arg target) ++
    [(List.range' 0 sizeofTargetInfoDetailed, false)]
  (upTo Prod.snd steps).flatMap Prod.fst

/-- The offsets of the argument that the handler of a command reads or writes. -/
def argOffsets (order : ByteOrder) (env : ApiEnv) (conf : Conf) (cmd : UInt8) (arg : List UInt8) :
    List Nat :=
  match Request.load order cmd arg with
  | .interfacesStatus _ => searchOffsets arg 0 (ifnames conf)
  | .interfacesSetmtu ifcmd => setmtuOffsets conf arg ifcmd
  | .targetAdd target => targetAddOffsets env conf arg target
  | .targetDel target => targetDelOffsets conf arg target
  | .targetSetacl target => targetSetaclOffsets conf arg target
  | _ => []

/-- An argument of no bytes is a NULL pointer, which has no offset inside. -/
def Inside (arg : List UInt8) (offsets : List Nat) : Prop := ∀ offset ∈ offsets, offset < arg.length

/-! ## What an argument must have -/

/-- The bytes from the offset on differ from every name they are compared with, or end
with it: none of the names goes on where the argument ends. -/
def Tells (arg : List UInt8) (offset : Nat) (names : List (Option CString)) : Prop :=
  ∀ name ∈ examined (cstringAt arg offset) names, ¬ arg.drop offset <+: name

/-- The device of the request is added, on this interface. -/
def AddsOn (env : ApiEnv) (conf : Conf) (target : TargetInfo) (interface : Interface) : Prop :=
  ∃ newdevice devdefault position, Checked env conf target newdevice devdefault ∧
    newdevice.interface = some position ∧ conf.intlist[position]? = some interface ∧
    (env.start.reachesWorker && env.start.threadCreated) = true

/-- The device has the address of the request, so that its interface is looked at. -/
def Addressed (target : TargetInfo) (device : Devconf) : Prop :=
  device.slot = target.slot ∧ device.shelf = target.shelf

/-- What a device of the list has its handler read. -/
def Selectable (conf : Conf) (arg : List UInt8) (target : TargetInfo) (device : Devconf) : Prop :=
  122 < arg.length ∧ (Addressed target device → 123 < arg.length ∧
    (target.ifname ≠ [] → Tells arg 123 (ifnames conf)))

/-- The devices that the handler gets to: the first one that is selected is the last if a
list without a name is in the way of a search. -/
def reached (conf : Conf) (target : TargetInfoDetailed) (devices : List Devconf) : List Devconf :=
  upTo (fun device => AclOp.all.any (searchFails conf target) &&
    target.info.selects conf.intlist device) devices

def GoesDown (conf : Conf) (target : TargetInfoDetailed) (devices : List Devconf) : Prop :=
  ∃ device ∈ devices, (AclOp.all.any (searchFails conf target) &&
    target.info.selects conf.intlist device) = true

/-- What a device that the handler gets to has it read. -/
def Settable (conf : Conf) (arg : List UInt8) (target : TargetInfoDetailed) (device : Devconf) :
    Prop :=
  Selectable conf arg target.info device ∧ (target.info.selects conf.intlist device = true →
    ∀ op ∈ upTo (searchFails conf target) AclOp.all, aclOffset op < arg.length ∧
      (target.acl op ≠ [] → Tells arg (aclOffset op) (aclnames conf) ∧
        (searchMisses conf target op = true → 0 ∈ arg.drop (aclOffset op))))

/-- The argument has all that its handler needs: the structure of the command as far as it
is read, with strings that end, and room for the name that is written back. -/
def Suffices (order : ByteOrder) (env : ApiEnv) (conf : Conf) (cmd : UInt8) (arg : List UInt8) :
    Prop :=
  match Request.load order cmd arg with
  | .interfacesStatus _ => Tells arg 0 (ifnames conf)
  | .interfacesSetmtu _ => sizeofInterfaceCmd ≤ arg.length ∧ Tells arg 0 (ifnames conf)
  | .targetAdd target => env.malloc = true →
      sizeofTargetInfo ≤ arg.length ∧ 0 ∈ arg.drop 123 ∧
      (target.ifname ≠ [] → Tells arg 123 (ifnames conf)) ∧
      ∀ interface, AddsOn env conf target interface → 123 + interface.ifname.length < arg.length
  | .targetDel target => ∀ device ∈ conf.devices, Selectable conf arg target device
  | .targetSetacl target => (∀ device ∈ reached conf target conf.devices,
        Settable conf arg target device) ∧
      (¬ GoesDown conf target conf.devices → sizeofTargetInfoDetailed ≤ arg.length)
  | _ => True

/-! ## Offsets inside -/

section Inside

variable {arg : List UInt8} {offset count : Nat}

theorem inside_append {first second : List Nat} :
    Inside arg (first ++ second) ↔ Inside arg first ∧ Inside arg second := List.forall_mem_append

theorem inside_cons {first : Nat} {rest : List Nat} :
    Inside arg (first :: rest) ↔ first < arg.length ∧ Inside arg rest := List.forall_mem_cons

theorem inside_nil : Inside arg [] := List.forall_mem_nil _

theorem inside_flatMap {α : Type} {list : List α} {offsets : α → List Nat} :
    Inside arg (list.flatMap offsets) ↔ ∀ item ∈ list, Inside arg (offsets item) :=
  List.forall_mem_flatMap

theorem inside_ite {condition : Prop} [Decidable condition] {offsets : List Nat} :
    Inside arg (if condition then offsets else []) ↔ (condition → Inside arg offsets) := by
  split_ifs with holds
  · exact ⟨fun inside _ => inside, fun inside => inside holds⟩
  · exact iff_of_true inside_nil fun other => absurd other holds

theorem inside_range' (positive : 0 < count) :
    Inside arg (List.range' offset count) ↔ offset + count ≤ arg.length := by
  constructor
  · intro inside
    have last := inside (offset + count - 1) (List.mem_range'_1.mpr ⟨by omega, by omega⟩)
    omega
  · intro last place member
    obtain ⟨_, high⟩ := List.mem_range'_1.mp member
    omega

/-- A structure that is read as a whole. -/
theorem inside_structure (positive : 0 < count) :
    Inside arg (List.range' 0 count) ↔ count ≤ arg.length := by
  rw [inside_range' positive, Nat.zero_add]

theorem compared_pos (name : CString) (bytes : List UInt8) : 0 < compared name bytes := by
  fun_cases compared name bytes <;> simp_all

/-- The comparison stays inside unless the name goes on where the bytes end. -/
theorem compared_le_iff (name : CString) (bytes : List UInt8) :
    compared name bytes ≤ bytes.length ↔ ¬ bytes <+: name := by
  induction name, bytes using compared.induct with
  | case1 name => simp [compared]
  | case2 byte bytes => simp [compared]
  | case3 char name bytes ih => simp [compared, ih]
  | case4 char name byte bytes differs =>
      have differs' : byte ≠ char := fun same => differs same.symm
      simp [compared, differs, differs']

theorem inside_strcmp (name : CString) :
    Inside arg (strcmpOffsets arg offset name) ↔ ¬ arg.drop offset <+: name := by
  have positive := compared_pos name (arg.drop offset)
  rw [strcmpOffsets, inside_range' positive, ← compared_le_iff, List.length_drop]
  omega

theorem inside_search (names : List (Option CString)) :
    Inside arg (searchOffsets arg offset names) ↔ Tells arg offset names := by
  rw [searchOffsets, inside_flatMap]
  exact forall₂_congr fun name _ => inside_strcmp name

/-- A string is read inside exactly if there is a zero byte to end it. -/
theorem inside_strlen : Inside arg (strlenOffsets arg offset) ↔ 0 ∈ arg.drop offset := by
  have shorter : (cstringAt arg offset).length ≤ (arg.drop offset).length :=
    (List.takeWhile_prefix _).length_le
  have ends : 0 ∈ arg.drop offset ↔ cstringAt arg offset ≠ arg.drop offset := by
    rw [cstringAt, ne_eq, List.takeWhile_eq_self_iff]
    simp
  have whole : cstringAt arg offset = arg.drop offset ↔
      (cstringAt arg offset).length = (arg.drop offset).length :=
    ⟨congrArg List.length, (List.takeWhile_prefix _).eq_of_length⟩
  rw [strlenOffsets, inside_range' (Nat.succ_pos _), ends, ne_eq, whole]
  rw [List.length_drop] at shorter ⊢
  omega

theorem mem_examined {name : CString} {names : List CString} (member : name ∈ names) :
    name ∈ examined name (names.map some) := by
  induction names with
  | nil => cases member
  | cons first names ih =>
      rw [List.map_cons, examined]
      split_ifs with same
      · exact List.mem_singleton.mpr same
      · rcases List.mem_cons.mp member with here | later
        · exact absurd here same
        · exact List.mem_cons_of_mem first (ih later)

/-- A name that is found has ended inside. -/
theorem inside_strlen_of_found {conf : Conf} (tells : Tells arg offset (ifnames conf))
    (found : (referenceint (cstringAt arg offset) conf.intlist).isSome = true) :
    Inside arg (strlenOffsets arg offset) := by
  have named : cstringAt arg offset ∈ conf.intlist.map fun interface => interface.ifname := by
    rw [referenceint, Option.isSome_map, Config.referenceint, List.isSome_findFinIdx?,
      List.any_eq_true] at found
    obtain ⟨ifent, listed, same⟩ := found
    obtain ⟨interface, member, rfl⟩ := List.mem_map.mp listed
    exact List.mem_map.mpr ⟨interface, member, (of_decide_eq_true same).symm⟩
  have compared := mem_examined named
  rw [List.map_map] at compared
  have differs := tells (cstringAt arg offset) compared
  rw [inside_strlen]
  by_contra endless
  apply differs
  have whole : cstringAt arg offset = arg.drop offset := by
    rw [cstringAt, List.takeWhile_eq_self_iff]
    intro byte member
    rw [bne_iff_ne]
    rintro rfl
    exact endless member
  exact ⟨[], (List.append_nil _).trans whole.symm⟩

end Inside

/-! ## Handlers and what they need -/

section Handlers

variable {env : ApiEnv} {conf : Conf} {arg : List UInt8}

theorem inside_setmtu {mtu : Int} :
    Inside arg (setmtuOffsets conf arg ⟨cstringAt arg 0, mtu⟩) ↔
      sizeofInterfaceCmd ≤ arg.length ∧ Tells arg 0 (ifnames conf) := by
  rw [setmtuOffsets, inside_append, inside_append, inside_search, inside_ite, inside_append,
    inside_structure (by decide : 0 < sizeofInterfaceCmd)]
  constructor
  · rintro ⟨⟨tells, _⟩, whole⟩
    exact ⟨whole, tells⟩
  · rintro ⟨whole, tells⟩
    refine ⟨⟨tells, fun found => ⟨?_, inside_strlen_of_found tells found⟩⟩, whole⟩
    rw [inside_range' (by decide)]
    exact le_trans (by decide) whole

theorem inside_values : Inside arg valueOffsets ↔ sizeofTargetInfo ≤ arg.length := by
  rw [valueOffsets, inside_append, inside_append, inside_append, inside_cons,
    inside_range' (by decide), inside_range' (by decide), inside_range' (by decide), sizeofTargetInfo]
  have none := @inside_nil arg
  constructor
  · rintro ⟨⟨_, last⟩, _⟩
    exact last
  · intro last
    exact ⟨⟨⟨by omega, by omega, none⟩, by omega⟩, by omega⟩

theorem ifname_raised {position index : Nat} {intlist : List Interface} {interface : Interface}
    (found : (raised position intlist)[index]? = some interface) :
    ∃ before, intlist[index]? = some before ∧ before.ifname = interface.ifname := by
  rw [raised, List.getElem?_modify] at found
  obtain ⟨before, listed, rfl⟩ := Option.map_eq_some_iff.mp found
  refine ⟨before, listed, ?_⟩
  split_ifs
  · rfl
  · rfl

/-- A device that was started reports its own name, and that of its interface. -/
theorem targetInfo_raised {device : Devconf} {position : Nat} {intlist : List Interface}
    {info : TargetInfo} (attached : device.interface = some position)
    (reports : targetInfo (raised position intlist) device = .ok info) :
    ∃ interface, intlist[position]? = some interface ∧
      device.devicename = some info.devicename ∧ info.ifname = interface.ifname := by
  obtain ⟨name, named, later⟩ := follow_eq_ok.mp reports
  obtain ⟨interface, leads, returned⟩ := follow_eq_ok.mp later
  rw [attached, Option.bind_some] at leads
  obtain ⟨before, listed, same⟩ := ifname_raised leads
  cases returned
  exact ⟨before, listed, named, same.symm⟩

theorem AddsOn.unique {target : TargetInfo} {interface other : Interface}
    (adds : AddsOn env conf target interface) (adds' : AddsOn env conf target other) :
    other = interface := by
  obtain ⟨newdevice, _, position, checked, attached, listed, _⟩ := adds
  obtain ⟨newdevice', _, position', checked', attached', listed', _⟩ := adds'
  rw [checked.unique checked', attached, Option.some.injEq] at attached'
  rw [← attached', listed, Option.some.injEq] at listed'
  exact listed'.symm

/-- What the client is sent: the names of the device that is added, the request, or
nothing. -/
def AddReplies (env : ApiEnv) (conf : Conf) (target : TargetInfo) : Prop :=
  (∃ interface info, AddsOn env conf target interface ∧
    (processTargetAdd env conf target).sent =
      [⟨.allok, sizeofTargetInfo, sizeofTargetInfo, .target info⟩] ∧
    info.devicename = target.devicename ∧ info.ifname = interface.ifname) ∨
  (∀ interface, ¬ AddsOn env conf target interface) ∧
    ((processTargetAdd env conf target).sent = [] ∨
      (processTargetAdd env conf target).sent =
        [⟨.failure, sizeofTargetInfo, sizeofTargetInfo, .target target⟩])

section Checked

variable {target : TargetInfo} {newdevice : Devconf} {devdefault : Option Devconf}

theorem Checked.addsOn_iff (checked : Checked env conf target newdevice devdefault)
    {interface : Interface} : AddsOn env conf target interface ↔
      ∃ position, newdevice.interface = some position ∧ conf.intlist[position]? = some interface ∧
        (env.start.reachesWorker && env.start.threadCreated) = true := by
  constructor
  · rintro ⟨newdevice', _, position, checked', attached, adds⟩
    rw [checked.unique checked'] at attached
    exact ⟨position, attached, adds⟩
  · rintro ⟨position, attached, adds⟩
    exact ⟨newdevice, devdefault, position, checked, attached, adds⟩

/-- Behind the checks the reply depends on the start of the device. -/
theorem Checked.sent (checked : Checked env conf target newdevice devdefault) :
    (processTargetAdd env conf target).sent =
      match qaoedStartdevice env.start newdevice conf.intlist with
      | .error _ => []
      | .ok (none, _) => [⟨.failure, sizeofTargetInfo, sizeofTargetInfo, .target target⟩]
      | .ok (some newdevice, intlist) =>
          match targetInfo intlist newdevice with
          | .error _ => []
          | .ok info => [⟨.allok, sizeofTargetInfo, sizeofTargetInfo, .target info⟩] := by
  rw [checked.handled]
  dsimp only
  cases qaoedStartdevice env.start newdevice conf.intlist with
  | error stop => rfl
  | ok result =>
      obtain ⟨started, intlist⟩ := result
      cases started with
      | none => rfl
      | some started =>
          dsimp only
          cases targetInfo intlist started with
          | error stop => rfl
          | ok info => rfl

theorem Checked.unattached_replies (checked : Checked env conf target newdevice devdefault)
    (unattached : newdevice.interface = none) : AddReplies env conf target := by
  refine Or.inr ⟨?_, ?_⟩
  · intro interface adds
    obtain ⟨position, attached, _⟩ := checked.addsOn_iff.mp adds
    rw [unattached] at attached
    cases attached
  · rw [checked.sent, qaoedStartdevice_unattached checked.named unattached]
    cases env.start.reachesWorker with
    | true => exact Or.inl rfl
    | false => exact Or.inr rfl

theorem Checked.attached_replies (checked : Checked env conf target newdevice devdefault)
    {position : Nat} (attached : newdevice.interface = some position) :
    AddReplies env conf target := by
  have name := (qaoedDevdefaults_spec checked.defaults).1.devicename
  obtain ⟨intlist, starts⟩ : ∃ intlist, qaoedStartdevice env.start newdevice conf.intlist = _ :=
    qaoedStartdevice_attached checked.named attached
  unfold AddReplies
  rw [checked.sent, starts]
  cases started : env.start.reachesWorker && env.start.threadCreated with
  | false =>
      refine Or.inr ⟨fun interface adds => ?_, Or.inr rfl⟩
      obtain ⟨_, _, _, running⟩ := checked.addsOn_iff.mp adds
      rw [started] at running
      cases running
  | true =>
      rw [started, if_pos rfl] at starts
      have raises : intlist = raised position conf.intlist := by
        rcases qaoedStartdevice_spec starts with ⟨none, _⟩ | ⟨other, _, attached', _, raises⟩
        · cases none
        · rw [attached, Option.some.injEq] at attached'
          rw [raises, attached']
      rw [if_pos rfl, raises]
      dsimp only
      cases reports : targetInfo (raised position conf.intlist)
          { newdevice with size := env.start.exported } with
      | ok info =>
          obtain ⟨interface, listed, named, same⟩ := targetInfo_raised attached reports
          have devicename : some target.devicename = some info.devicename := name.symm.trans named
          exact Or.inl ⟨interface, info, checked.addsOn_iff.mpr ⟨position, attached, listed, started⟩,
            rfl, (Option.some.inj devicename).symm, same⟩
      | error stop =>
          refine Or.inr ⟨fun interface adds => ?_, Or.inl rfl⟩
          obtain ⟨other, attached', listed, _⟩ := checked.addsOn_iff.mp adds
          rw [attached, Option.some.injEq] at attached'
          have inside := (List.getElem?_eq_some_iff.mp listed).1
          rw [← attached', ← raised_length position conf.intlist] at inside
          obtain ⟨info, reported⟩ : ∃ info, targetInfo (raised position conf.intlist)
              { newdevice with size := env.start.exported } = .ok info :=
            targetInfo_returns checked.named attached inside
          rw [reports] at reported
          cases reported

end Checked

theorem processTargetAdd_replies {target : TargetInfo} (malloc : env.malloc = true) :
    AddReplies env conf target := by
  by_cases passes : ∃ newdevice devdefault, Checked env conf target newdevice devdefault
  · obtain ⟨newdevice, devdefault, checked⟩ := passes
    cases interface : newdevice.interface with
    | none => exact checked.unattached_replies interface
    | some position => exact checked.attached_replies interface
  · unfold AddReplies
    rw [processTargetAdd_unanswered malloc passes]
    refine Or.inr ⟨?_, Or.inl rfl⟩
    rintro interface ⟨newdevice, devdefault, _, checked, _⟩
    exact passes ⟨newdevice, devdefault, checked⟩

/-- What is written before the reply is sent, and sent, lies inside if the structure does
and the name of the interface ends in it. -/
theorem inside_replies {target : TargetInfo} (malloc : env.malloc = true)
    (whole : sizeofTargetInfo ≤ arg.length) (ends : target.devicename.length + 1 ≤ arg.length) :
    Inside arg ((processTargetAdd env conf target).sent.flatMap fun reply =>
        writtenBack reply ++ List.range' 0 reply.sent) ↔
      ∀ interface, AddsOn env conf target interface → 123 + interface.ifname.length < arg.length := by
  have sendable : Inside arg (List.range' 0 sizeofTargetInfo) :=
    (inside_structure (by decide)).mpr whole
  rcases processTargetAdd_replies malloc with
    ⟨interface, info, adds, sent, name, same⟩ | ⟨none, sent⟩
  · have only : (∀ other, AddsOn env conf target other → 123 + other.ifname.length < arg.length) ↔
        123 + interface.ifname.length < arg.length := by
      refine ⟨fun all => all interface adds, fun room other adds' => ?_⟩
      rw [adds.unique adds']
      exact room
    rw [only, sent, List.flatMap_singleton, writtenBack, inside_append, inside_append,
      inside_append, inside_values, inside_range' (Nat.succ_pos _), inside_range' (Nat.succ_pos _),
      name, same]
    constructor
    · rintro ⟨⟨_, room⟩, _⟩
      omega
    · intro room
      exact ⟨⟨⟨whole, by omega⟩, by omega⟩, sendable⟩
  · refine iff_of_true ?_ fun interface adds => absurd adds (none interface)
    rcases sent with sent | sent
    · rw [sent]
      exact inside_nil
    · rw [sent, List.flatMap_singleton, inside_append]
      exact ⟨inside_nil, sendable⟩

theorem inside_targetAdd {target : TargetInfo} (devicename : target.devicename = cstringAt arg 0) :
    Inside arg (targetAddOffsets env conf arg target) ↔ (env.malloc = true →
      sizeofTargetInfo ≤ arg.length ∧ 0 ∈ arg.drop 123 ∧
      (target.ifname ≠ [] → Tells arg 123 (ifnames conf)) ∧
      ∀ interface, AddsOn env conf target interface → 123 + interface.ifname.length < arg.length) := by
  unfold targetAddOffsets
  cases malloc : env.malloc with
  | false => exact iff_of_true inside_nil fun other => nomatch other
  | true =>
      rw [Bool.not_true, if_neg Bool.false_ne_true, inside_append, inside_append, inside_append,
        inside_append, inside_strlen, inside_values, inside_strlen]
      have search : Inside arg (if target.ifname = [] then [] else
          searchOffsets arg 123 (ifnames conf)) ↔
          (target.ifname ≠ [] → Tells arg 123 (ifnames conf)) := by
        rw [← ite_not, inside_ite, inside_search]
      rw [search]
      constructor
      · rintro ⟨⟨⟨⟨first, whole⟩, second⟩, tells⟩, replies⟩ _
        have ends := inside_strlen.mpr first
        rw [strlenOffsets, inside_range' (Nat.succ_pos _), ← devicename, Nat.zero_add] at ends
        exact ⟨whole, second, tells, (inside_replies malloc whole ends).mp replies⟩
      · intro needs
        obtain ⟨whole, second, tells, room⟩ := needs rfl
        have first : 0 ∈ arg.drop 0 := List.mem_of_mem_drop second
        have ends := inside_strlen.mpr first
        rw [strlenOffsets, inside_range' (Nat.succ_pos _), ← devicename, Nat.zero_add] at ends
        exact ⟨⟨⟨⟨first, whole⟩, second⟩, tells⟩, (inside_replies malloc whole ends).mpr room⟩

theorem inside_select {target : TargetInfo} {device : Devconf} :
    Inside arg (selectOffsets conf arg target device) ↔ Selectable conf arg target device := by
  have none := @inside_nil arg
  have pair (place : 122 < arg.length) : Inside arg (List.range' 120 2) := by
    rw [inside_range' (by decide)]
    omega
  rw [selectOffsets, inside_cons, Selectable, and_congr_right_iff]
  intro place
  rw [inside_ite, inside_append, inside_ite, inside_cons, ← ite_not, inside_ite, inside_search,
    Addressed, and_imp]
  constructor
  · intro all slot shelf
    exact (all slot).2 shelf
  · intro all slot
    exact ⟨pair place, all slot⟩

theorem inside_targetDel {target : TargetInfo} :
    Inside arg (targetDelOffsets conf arg target) ↔
      ∀ device ∈ conf.devices, Selectable conf arg target device := by
  have loop : Inside arg (conf.devices.flatMap (selectOffsets conf arg target)) ↔
      ∀ device ∈ conf.devices, Selectable conf arg target device := by
    rw [inside_flatMap]
    exact forall₂_congr fun device _ => inside_select
  unfold targetDelOffsets
  dsimp only
  split_ifs
  · rw [inside_append, and_self, loop]
  · exact loop

theorem upTo_append {α : Type} (last : α → Bool) (first second : List α) :
    upTo last (first ++ second) =
      upTo last first ++ if first.any last then [] else upTo last second := by
  induction first with
  | nil => rfl
  | cons item items ih =>
      rw [List.cons_append, upTo, upTo, ih, List.any_cons]
      cases last item with
      | true => rfl
      | false => rfl

theorem upTo_map {α β : Type} (last : β → Bool) (use : α → β) (list : List α) :
    upTo last (list.map use) = (upTo (fun item => last (use item)) list).map use := by
  induction list with
  | nil => rfl
  | cons item items ih =>
      rw [List.map_cons, upTo, upTo, ih, List.map_cons]
      cases last (use item) with
      | true => rfl
      | false => rfl

theorem inside_acl {target : TargetInfoDetailed} {op : AclOp} :
    Inside arg (aclOffsets conf arg target op).1 ↔ aclOffset op < arg.length ∧
      (target.acl op ≠ [] → Tells arg (aclOffset op) (aclnames conf) ∧
        (searchMisses conf target op = true → 0 ∈ arg.drop (aclOffset op))) := by
  rw [aclOffsets, inside_cons, ← ite_not, inside_ite, inside_append, inside_search, inside_ite,
    inside_strlen]

theorem inside_device {target : TargetInfoDetailed} {device : Devconf} :
    Inside arg ((upTo Prod.snd (deviceOffsets conf arg target device)).flatMap Prod.fst) ↔
      Settable conf arg target device := by
  rw [deviceOffsets, upTo, if_neg Bool.false_ne_true, List.flatMap_cons, inside_append,
    inside_select, Settable, and_congr_right_iff]
  intro _
  cases target.info.selects conf.intlist device with
  | false => exact iff_of_true inside_nil fun other => nomatch other
  | true =>
      rw [if_pos rfl, upTo_map, List.flatMap_map, inside_flatMap]
      refine (forall₂_congr fun op _ => inside_acl).trans ?_
      exact ⟨fun all _ => all, fun all => all rfl⟩

theorem deviceOffsets_any (target : TargetInfoDetailed) (device : Devconf) :
    (deviceOffsets conf arg target device).any Prod.snd =
      (AclOp.all.any (searchFails conf target) && target.info.selects conf.intlist device) := by
  rw [deviceOffsets, List.any_cons, Bool.false_or]
  cases target.info.selects conf.intlist device with
  | false => exact (Bool.and_false _).symm
  | true =>
      rw [if_pos rfl, List.any_map, Bool.and_true]
      rfl

theorem inside_devices (target : TargetInfoDetailed) (devices : List Devconf) :
    Inside arg ((upTo Prod.snd (devices.flatMap (deviceOffsets conf arg target) ++
        [(List.range' 0 sizeofTargetInfoDetailed, false)])).flatMap Prod.fst) ↔
      (∀ device ∈ reached conf target devices, Settable conf arg target device) ∧
        (¬ GoesDown conf target devices → sizeofTargetInfoDetailed ≤ arg.length) := by
  induction devices with
  | nil =>
      have stays : ¬ GoesDown conf target [] := fun ⟨_, member, _⟩ => nomatch member
      rw [List.flatMap_nil, List.nil_append, upTo, if_neg Bool.false_ne_true, upTo,
        List.flatMap_singleton, inside_structure (by decide), reached, upTo]
      simp only [List.not_mem_nil, false_imp_iff, implies_true, stays, not_false_eq_true,
        forall_const, true_and]
  | cons device next ih =>
      have down : GoesDown conf target (device :: next) ↔
          (AclOp.all.any (searchFails conf target) && target.info.selects conf.intlist device) =
            true ∨ GoesDown conf target next := List.exists_mem_cons_iff _ _ _
      rw [List.flatMap_cons, List.append_assoc, upTo_append, deviceOffsets_any, List.flatMap_append,
        inside_append, inside_device, reached, upTo, List.forall_mem_cons, and_assoc, down,
        and_congr_right_iff]
      intro _
      cases AclOp.all.any (searchFails conf target) && target.info.selects conf.intlist device with
      | true =>
          rw [if_pos rfl, if_pos rfl]
          exact iff_of_true inside_nil
            ⟨List.forall_mem_nil _, fun stays => absurd (Or.inl rfl) stays⟩
      | false =>
          rw [if_neg Bool.false_ne_true, if_neg Bool.false_ne_true, ih, reached]
          simp only [Bool.false_eq_true, false_or]

end Handlers

/-- Whatever a client sends, every byte of the argument that its handler reads or writes
lies inside the argument if and only if this has what the handler needs. -/
theorem arguments_inside_iff (order : ByteOrder) (env : ApiEnv) (conf : Conf) (cmd : UInt8)
    (arg : List UInt8) :
    Inside arg (argOffsets order env conf cmd arg) ↔ Suffices order env conf cmd arg := by
  unfold argOffsets Suffices Request.load
  split_ifs
  · exact iff_of_true inside_nil trivial
  · exact iff_of_true inside_nil trivial
  · exact inside_search _
  · exact inside_setmtu
  · exact iff_of_true inside_nil trivial
  · exact inside_targetAdd rfl
  · exact inside_targetDel
  · exact inside_devices _ _
  · exact iff_of_true inside_nil trivial
  · exact iff_of_true inside_nil trivial

/-- A daemon with one interface and no devices. -/
def idleConf : Conf where
  loglist := []
  intlist := [⟨⟨text "eth0", none, 1500, 1518, none⟩, 0⟩]
  devdefault := none
  devices := []
  acllist := []

/-- A header alone is accepted as a request to set an MTU, and the handler looks for a
name behind the NULL pointer it is given. -/
theorem noArgument_read :
    recvAPIrequest .little (fun _ => true) [[5, 0, 0, 0, 0, 0, 0, 0]] = [⟨⟨5, 0, 0, 0, 0⟩, []⟩] ∧
    ¬ Inside [] (argOffsets .little grantingEnv idleConf 5 []) := by
  constructor
  · have header : (recv sizeofApihdr [[5, 0, 0, 0, 0, 0, 0, 0]]).1 =
        ApiHdr.store .little ⟨5, 0, 0, 0, 0⟩ := rfl
    rw [recvAPIrequest_short header rfl, recvAPIrequest_cut (by decide)]
  · intro inside
    exact absurd (inside 0 (by decide)) (Nat.not_lt_zero 0)

end Qaoed.Api
