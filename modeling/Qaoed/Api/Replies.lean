import Qaoed.Api.AccessLists
import Qaoed.Api.Validity
import Qaoed.Api.Wire

/-!
# Replies

A client sends a request and waits for the one reply to it: a header, and as many
bytes as it announces. Handlers that find nothing to report, or go down with the
daemon, leave the client waiting. One handler announces a larger structure than the
one it sends, and from there on the client takes one reply for another.
-/

namespace Qaoed.Api

open Qaoed.Device
open Qaoed.Library
open Qaoed.Config

/-! ## One reply -/

/-- Commands that `processAPIrequest` has a handler for. -/
def Request.implemented : Request → Bool
  | .unhandled _ => false
  | _ => true

/-- The headers that are sent for a request. -/
def headers (env : ApiEnv) (conf : Conf) (request : Request) (pad : UInt8) : List ApiHdr :=
  (processAPIrequest env conf request).sent.map (Reply.hdr request.cmd pad)

def AnsweredOnce (env : ApiEnv) (conf : Conf) (request : Request) : Prop :=
  ∀ pad, ∃ apiHdr, headers env conf request pad = [apiHdr] ∧ apiHdr.type = REPLY

/-- The configuration has what the handler needs to get to its reply. A new target must
not clash with another one, and the worker of a target an interface; a target that is
removed gets no reply. -/
def Answered (env : ApiEnv) (conf : Conf) : Request → Prop
  | .targetList => ∀ device ∈ conf.devices, device.devicename.isSome = true ∧
      ∃ position, device.interface = some position ∧ position < conf.intlist.length
  | .aclList => ∀ acl ∈ conf.acllist, acl.name.isSome = true
  | .targetAdd target => ∃ newdevice devdefault, Checked env conf target newdevice devdefault ∧
      (env.start.reachesWorker = true → ∃ position, newdevice.interface = some position ∧
        (env.start.threadCreated = true → position < conf.intlist.length))
  | .targetDel target => matching conf target ≠ 1 ∨ env.cancel = -1
  | .targetSetacl target => ∀ device ∈ conf.devices,
      target.info.selects conf.intlist device = true →
      ∀ op, Searchable conf.acllist (target.acl op)
  | _ => True

section Once

variable {env : ApiEnv} {conf : Conf} {target : TargetInfo}

theorem answeredOnce_iff_length {request : Request} : AnsweredOnce env conf request ↔
    (processAPIrequest env conf request).sent.length = 1 := by
  unfold AnsweredOnce headers
  constructor
  · intro once
    obtain ⟨apiHdr, same, _⟩ := once 0
    rw [← List.length_map (Reply.hdr request.cmd 0), same]
    rfl
  · intro one pad
    obtain ⟨reply, same⟩ := List.length_eq_one_iff.mp one
    rw [same]
    exact ⟨_, rfl, rfl⟩

theorem targetInfo_returns_iff {intlist : List Interface} {device : Devconf} :
    (∃ info, targetInfo intlist device = .ok info) ↔ device.devicename.isSome = true ∧
      ∃ position, device.interface = some position ∧ position < intlist.length := by
  constructor
  · rintro ⟨info, returns⟩
    obtain ⟨name, named, later⟩ := follow_eq_ok.mp returns
    obtain ⟨interface, leads, _⟩ := follow_eq_ok.mp later
    obtain ⟨position, attached, found⟩ := Option.bind_eq_some_iff.mp leads
    exact ⟨Option.isSome_iff_exists.mpr ⟨name, named⟩, position, attached,
      (List.getElem?_eq_some_iff.mp found).1⟩
  · rintro ⟨named, position, attached, inside⟩
    exact targetInfo_returns named attached inside

theorem processTargetList_length (malloc : env.malloc = true) :
    (processTargetList env conf).sent.length = 1 ↔ Answered env conf .targetList := by
  have returns : (∃ tglist, conf.devices.mapM (targetInfo conf.intlist) = .ok tglist) ↔
      Answered env conf .targetList := by
    rw [mapM_returns_iff]
    exact forall₂_congr fun device _ => targetInfo_returns_iff
  rw [← returns]
  unfold processTargetList
  rw [malloc, Bool.not_true, if_neg Bool.false_ne_true]
  cases conf.devices.mapM (targetInfo conf.intlist) with
  | error stop => exact iff_of_false (Nat.zero_ne_one) (fun ⟨_, returned⟩ => nomatch returned)
  | ok tglist => exact iff_of_true rfl ⟨tglist, rfl⟩

theorem aclInfo_returns_iff {acl : Aclconf} :
    (∃ info, aclInfo acl = .ok info) ↔ acl.name.isSome = true := by
  unfold aclInfo
  cases acl.name with
  | none => exact iff_of_false (fun ⟨_, returned⟩ => nomatch returned) Bool.false_ne_true
  | some name => exact iff_of_true ⟨_, rfl⟩ rfl

theorem processAclList_length (malloc : env.malloc = true) :
    (processAclList env conf).sent.length = 1 ↔ Answered env conf .aclList := by
  have returns : (∃ aclinfo, conf.acllist.mapM aclInfo = .ok aclinfo) ↔
      Answered env conf .aclList := by
    rw [mapM_returns_iff]
    exact forall₂_congr fun acl _ => aclInfo_returns_iff
  rw [← returns]
  unfold processAclList
  rw [malloc, Bool.not_true, if_neg Bool.false_ne_true]
  cases conf.acllist.mapM aclInfo with
  | error stop => exact iff_of_false (Nat.zero_ne_one) (fun ⟨_, returned⟩ => nomatch returned)
  | ok aclinfo => exact iff_of_true rfl ⟨aclinfo, rfl⟩

/-! ## Adding, removing and access lists -/

/-- A target that does not pass the checks gets no reply. -/
theorem processTargetAdd_unanswered (malloc : env.malloc = true)
    (unchecked : ¬ ∃ newdevice devdefault, Checked env conf target newdevice devdefault) :
    (processTargetAdd env conf target).sent = [] := by
  unfold processTargetAdd
  rw [malloc, Bool.not_true, if_neg Bool.false_ne_true]
  cases defaults : qaoedDevdefaults conf.loglist conf.devdefault (newDevice conf.intlist target) with
  | error stop => rfl
  | ok result =>
      obtain ⟨newdevice, devdefault⟩ := result
      dsimp only
      cases search : slotTaken newdevice conf.devices with
      | error stop => rfl
      | ok taken =>
          cases taken with
          | true => rfl
          | false => exact absurd ⟨newdevice, devdefault, malloc, defaults, search⟩ unchecked

/-- Behind the checks there is a reply unless the daemon goes down. -/
theorem Checked.sent_length {newdevice : Devconf} {devdefault : Option Devconf}
    (checked : Checked env conf target newdevice devdefault) :
    (processTargetAdd env conf target).sent.length = 1 ↔
      (processTargetAdd env conf target).stopped = none := by
  unfold processTargetAdd
  rw [checked.malloc, Bool.not_true, if_neg Bool.false_ne_true, checked.defaults]
  dsimp only
  rw [checked.free]
  dsimp only
  split
  · exact iff_of_false Nat.zero_ne_one (Option.some_ne_none _)
  · exact iff_of_true rfl rfl
  · split
    · exact iff_of_false Nat.zero_ne_one (Option.some_ne_none _)
    · exact iff_of_true rfl rfl

theorem Checked.stopped_iff {newdevice : Devconf} {devdefault : Option Devconf}
    (checked : Checked env conf target newdevice devdefault) :
    (processTargetAdd env conf target).stopped = none ↔
      (env.start.reachesWorker = true → ∃ position, newdevice.interface = some position ∧
        (env.start.threadCreated = true → position < conf.intlist.length)) := by
  rw [checked.stopped]
  cases interface : newdevice.interface with
  | none =>
      rw [qaoedStartdevice_unattached checked.named interface]
      cases env.start.reachesWorker with
      | true =>
          refine iff_of_false (Option.some_ne_none _) ?_
          intro attached
          obtain ⟨position, none, _⟩ := attached rfl
          cases none
      | false => exact iff_of_true rfl fun reaches => nomatch reaches
  | some position =>
      obtain ⟨intlist', starts⟩ : ∃ intlist',
          qaoedStartdevice env.start newdevice conf.intlist = _ :=
        qaoedStartdevice_attached checked.named interface
      have length : intlist'.length = conf.intlist.length := by
        rcases qaoedStartdevice_spec starts with ⟨_, rfl⟩ | ⟨_, _, _, _, rfl⟩
        · rfl
        · exact raised_length _ _
      rw [starts]
      cases reaches : env.start.reachesWorker with
      | false => exact iff_of_true rfl fun reaches => nomatch reaches
      | true =>
          cases created : env.start.threadCreated with
          | false => exact iff_of_true rfl fun _ => ⟨position, rfl, fun created => nomatch created⟩
          | true =>
              have reports : (∃ info, targetInfo intlist'
                  { newdevice with size := env.start.exported } = .ok info) ↔
                  position < intlist'.length := by
                rw [targetInfo_returns_iff]
                constructor
                · rintro ⟨_, other, attached, inside⟩
                  have same : some position = some other := interface.symm.trans attached
                  cases same
                  exact inside
                · intro inside
                  exact ⟨checked.named, position, interface, inside⟩
              rw [length] at reports
              simp only [Bool.and_self, ↓reduceIte, forall_const, Option.some.injEq,
                exists_eq_left', ← reports]
              cases targetInfo intlist' { newdevice with size := env.start.exported } with
              | error stop =>
                  exact iff_of_false (Option.some_ne_none _) fun ⟨_, returned⟩ => nomatch returned
              | ok info => exact iff_of_true rfl ⟨info, rfl⟩

theorem processTargetAdd_length (malloc : env.malloc = true) :
    (processTargetAdd env conf target).sent.length = 1 ↔
      Answered env conf (.targetAdd target) := by
  by_cases passes : ∃ newdevice devdefault, Checked env conf target newdevice devdefault
  · obtain ⟨newdevice, devdefault, checked⟩ := passes
    rw [checked.sent_length, checked.stopped_iff]
    constructor
    · intro attached
      exact ⟨newdevice, devdefault, checked, attached⟩
    · rintro ⟨other, _, checked', attached⟩
      rw [checked.unique checked'] at attached
      exact attached
  · rw [processTargetAdd_unanswered malloc passes]
    refine iff_of_false Nat.zero_ne_one ?_
    rintro ⟨newdevice, devdefault, checked, _⟩
    exact passes ⟨newdevice, devdefault, checked⟩

theorem processTargetDel_length :
    (processTargetDel env conf target).sent.length = 1 ↔
      Answered env conf (.targetDel target) := by
  by_cases one : matching conf target = 1
  · rw [processTargetDel_selected one]
    by_cases fails : env.cancel = -1
    · rw [if_pos fails]
      exact iff_of_true rfl (Or.inr fails)
    · rw [if_neg fails]
      exact iff_of_false Nat.zero_ne_one fun answered => answered.elim (fun other => other one) fails
  · rw [processTargetDel_refused one]
    exact iff_of_true rfl (Or.inl one)

/-- Without a device to set them for, access lists are not looked up. -/
theorem setAcls_unselected {target : TargetInfoDetailed} {intlist : List Interface}
    {devices : List Devconf} {acllist : List Aclconf} {error : ApiError}
    (none : ∀ device ∈ devices, target.info.selects intlist device = false) :
    setAcls target intlist devices acllist error = .ok (devices, acllist, error) := by
  induction devices with
  | nil => rfl
  | cons device devices ih =>
      have here : setDevice target intlist ⟨device, acllist, error⟩ = .ok ⟨device, acllist, error⟩ := by
        rw [setDevice, none device List.mem_cons_self, if_neg Bool.false_ne_true]
      rw [setAcls, here]
      dsimp only [bind, Except.bind]
      rw [ih fun other member => none other (List.mem_cons_of_mem _ member)]
      rfl

theorem processTargetSetacl_length (target : TargetInfoDetailed) :
    (processTargetSetacl conf target).sent.length = 1 ↔
      Answered env conf (.targetSetacl target) := by
  have returns : (∃ result,
      setAcls target conf.intlist conf.devices conf.acllist .allok = .ok result) ↔
      Answered env conf (.targetSetacl target) := by
    constructor
    · rintro ⟨⟨devices, acllist, error⟩, returned⟩
      exact (setAcls_spec returned).searched
    · intro searched
      by_cases some : ∃ device ∈ conf.devices, target.info.selects conf.intlist device = true
      · obtain ⟨device, member, selects⟩ := some
        exact setAcls_returns (searched device member selects)
      · refine ⟨_, setAcls_unselected ?_⟩
        intro device member
        exact Bool.eq_false_iff.mpr fun selects => some ⟨device, member, selects⟩
  rw [← returns]
  unfold processTargetSetacl
  cases setAcls target conf.intlist conf.devices conf.acllist .allok with
  | error stop => exact iff_of_false Nat.zero_ne_one (fun ⟨_, returned⟩ => nomatch returned)
  | ok result => exact iff_of_true rfl ⟨result, rfl⟩

theorem processIntList_length (malloc : env.malloc = true) :
    (processIntList env conf).sent.length = 1 := by
  unfold processIntList
  rw [malloc]
  rfl

/-- A handler that is given its memory sends one reply exactly if it gets that far. -/
theorem sent_length_iff {request : Request} (malloc : env.malloc = true)
    (implemented : request.implemented = true) :
    (processAPIrequest env conf request).sent.length = 1 ↔ Answered env conf request := by
  cases request with
  | status => exact iff_of_true rfl trivial
  | interfacesList => exact iff_of_true (processIntList_length malloc) trivial
  | interfacesStatus ifcmd => exact iff_of_true rfl trivial
  | interfacesSetmtu ifcmd => exact iff_of_true rfl trivial
  | targetList => exact processTargetList_length malloc
  | targetAdd target => exact processTargetAdd_length malloc
  | targetDel target => exact processTargetDel_length
  | targetSetacl target => exact processTargetSetacl_length target
  | aclList => exact processAclList_length malloc
  | unhandled cmd => cases implemented

end Once

/-- A request to a command that has a handler gets exactly one reply, provided that the
configuration lets the handler get to it. -/
theorem answeredOnce_iff (env : ApiEnv) (conf : Conf) (request : Request)
    (malloc : env.malloc = true) (implemented : request.implemented = true) :
    AnsweredOnce env conf request ↔ Answered env conf request := by
  rw [answeredOnce_iff_length]
  exact sent_length_iff malloc implemented

theorem answeredOnce_iff_oneTarget :
    AnsweredOnce grantingEnv oneTarget (.targetAdd (slotRequest 1 2 "eth0")) := by
  refine (answeredOnce_iff grantingEnv oneTarget (.targetAdd (slotRequest 1 2 "eth0")) rfl rfl).mpr ?_
  exact ⟨_, _, ⟨rfl, rfl, rfl⟩, fun _ => ⟨0, rfl, fun _ => Nat.one_pos⟩⟩

/-- Neither a target with the address of another one nor the removal of a target is answered. -/
theorem clashingTarget_unanswered :
    (¬ AnsweredOnce grantingEnv oneTarget (.targetAdd (slotRequest 1 1 "eth0"))) ∧
    ¬ AnsweredOnce grantingEnv oneTarget (.targetDel (slotRequest 1 1 "eth0")) := by
  rw [answeredOnce_iff_length, answeredOnce_iff_length]
  decide

/-! ## Framing -/

/-- As many bytes are sent behind the header as it announces. -/
def Framed (reply : Reply) : Prop := (UInt32.ofNat reply.argLen).toNat = reply.sent

inductive IsList : Request → Prop where
  | interfaces : IsList .interfacesList
  | targets : IsList .targetList
  | acls : IsList .aclList

/-- The size of the list that is reported. -/
def reportSize (conf : Conf) : Request → Nat
  | .interfacesList => conf.intlist.length * sizeofIfInfo
  | .targetList => conf.devices.length * sizeofTargetInfo
  | .aclList => conf.acllist.length * sizeofAclInfo
  | _ => 0

/-- The request is not for the state of an interface, and if it is answered with a list,
the size of that fits the field of the header. -/
structure AnswersFramed (env : ApiEnv) (conf : Conf) (request : Request) : Prop where
  other : ∀ ifcmd, request ≠ .interfacesStatus ifcmd
  size : env.malloc = true → Answered env conf request → reportSize conf request < 2 ^ 32

/-- The replies of a run, each with the command of its request. -/
def replies (daemon : Daemon) (calls : List Call) : List (UInt8 × Reply) :=
  (apiThread.visits daemon calls).flatMap fun visit =>
    (apiThread.out visit.state visit.input).sent.map fun reply => (visit.input.request.cmd, reply)

/-- What is on the connection for a reply, whatever the bytes behind the header are. -/
structure Carries (answer : UInt8 × Reply) (frame : Frame ApiHdr UInt8) : Prop where
  header : ∃ pad, frame.header = answer.2.hdr answer.1 pad
  body : frame.body.length = answer.2.sent

/-- A client that reads a header and the bytes it announces, again and again, gets each
reply as it was sent. -/
def InStep (order : ByteOrder) (answers : List (UInt8 × Reply)) : Prop :=
  ∀ frames, List.Forall₂ Carries answers frames →
    (apihdr order).readAll frames.length ((apihdr order).write frames) = some (frames, [])

section Framing

variable {env : ApiEnv} {conf : Conf}

theorem framed_of_small {reply : Reply} (same : reply.sent = reply.argLen)
    (small : reply.argLen < 2 ^ 32) : Framed reply := by
  rw [Framed, same, UInt32.toNat_ofNat']
  exact Nat.mod_eq_of_lt small

theorem framed_list_iff {reply : Reply} (same : reply.sent = reply.argLen) :
    Framed reply ↔ reply.argLen < 2 ^ 32 := by
  constructor
  · intro framed
    have bound := (UInt32.ofNat reply.argLen).toNat_lt
    rw [Framed, same] at framed
    rwa [framed] at bound
  · exact framed_of_small same

/-- The handlers that do not report a list send a structure, or nothing, behind the header. -/
theorem targetAdd_framed (target : TargetInfo) :
    ∀ reply ∈ (processTargetAdd env conf target).sent, Framed reply := by
  unfold processTargetAdd
  dsimp only
  split_ifs
  · simp [Framed, Reply.header]
  · split
    · simp
    · split
      · simp
      · simp
      · split
        · simp
        · simp [Framed, sizeofTargetInfo]
        · split
          · simp
          · simp [Framed, sizeofTargetInfo]

theorem targetDel_framed (target : TargetInfo) :
    ∀ reply ∈ (processTargetDel env conf target).sent, Framed reply := by
  by_cases one : matching conf target = 1
  · rw [processTargetDel_selected one]
    split_ifs
    · simp [Framed, Reply.header]
    · simp
  · rw [processTargetDel_refused one]
    simp [Framed, Reply.header]

theorem targetSetacl_framed (target : TargetInfoDetailed) :
    ∀ reply ∈ (processTargetSetacl conf target).sent, Framed reply := by
  rcases processTargetSetacl_cases conf target with ⟨_, none⟩ | ⟨_, _, _, _, replies⟩
  · rw [none]
    simp
  · rw [replies]
    simp [Framed, sizeofTargetInfoDetailed]

/-- A list is reported as a whole. -/
theorem list_sent {request : Request} (list : IsList request) :
    (processAPIrequest env conf request).sent = [] ∨ env.malloc = true ∧ ∃ arg,
      (processAPIrequest env conf request).sent =
        [⟨.allok, reportSize conf request, reportSize conf request, arg⟩] := by
  cases malloc : env.malloc with
  | false =>
      left
      cases list with
      | interfaces =>
          show (processIntList env conf).sent = []
          rw [processIntList, malloc]
          rfl
      | targets =>
          show (processTargetList env conf).sent = []
          rw [processTargetList, malloc]
          rfl
      | acls =>
          show (processAclList env conf).sent = []
          rw [processAclList, malloc]
          rfl
  | true =>
      cases list with
      | interfaces =>
          refine Or.inr ⟨rfl, .interfaces (conf.intlist.map ifInfo), ?_⟩
          show (processIntList env conf).sent = _
          rw [processIntList, malloc]
          rfl
      | targets =>
          show (processTargetList env conf).sent = [] ∨ _
          rw [processAPIrequest, processTargetList, malloc, Bool.not_true,
            if_neg Bool.false_ne_true]
          cases conf.devices.mapM (targetInfo conf.intlist) with
          | error stop => exact Or.inl rfl
          | ok tglist => exact Or.inr ⟨rfl, _, rfl⟩
      | acls =>
          show (processAclList env conf).sent = [] ∨ _
          rw [processAPIrequest, processAclList, malloc, Bool.not_true, if_neg Bool.false_ne_true]
          cases conf.acllist.mapM aclInfo with
          | error stop => exact Or.inl rfl
          | ok aclinfo => exact Or.inr ⟨rfl, _, rfl⟩

theorem list_framed_iff {request : Request} (list : IsList request) :
    (∀ reply ∈ (processAPIrequest env conf request).sent, Framed reply) ↔
      AnswersFramed env conf request := by
  have implemented : request.implemented = true := by cases list <;> rfl
  have other (ifcmd : InterfaceCmd) : request ≠ .interfacesStatus ifcmd := by
    rintro rfl
    cases list
  obtain none | ⟨malloc, arg, one⟩ : (processAPIrequest env conf request).sent = [] ∨ _ :=
    list_sent list
  · refine iff_of_true ?_ ⟨other, ?_⟩
    · rw [none]
      simp
    · intro malloc answered
      have length := (sent_length_iff malloc implemented).mpr answered
      rw [none] at length
      cases length
  · rw [one, List.forall_mem_singleton, framed_list_iff rfl]
    have answered : Answered env conf request := by
      rw [← sent_length_iff malloc implemented, one]
      rfl
    constructor
    · intro small
      exact ⟨other, fun _ _ => small⟩
    · intro framed
      exact framed.size malloc answered

theorem answersFramed_of_zero {request : Request} (none : reportSize conf request = 0)
    (other : ∀ ifcmd, request ≠ .interfacesStatus ifcmd) : AnswersFramed env conf request where
  other := other
  size _ _ := by
    rw [none]
    decide

/-- The state of an interface is sent in fewer bytes than are announced. -/
theorem interfaceStatus_unframed (ifcmd : InterfaceCmd) :
    ¬ ∀ reply ∈ (processInterfaceStatus conf ifcmd).sent, Framed reply := by
  intro framed
  have announced := framed _ List.mem_cons_self
  exact absurd announced (by unfold Framed; simp [sizeofIfInfo, sizeofInterfaceCmd])

theorem framed_iff (request : Request) :
    (∀ reply ∈ (processAPIrequest env conf request).sent, Framed reply) ↔
      AnswersFramed env conf request := by
  cases request with
  | status =>
      refine iff_of_true ?_ (answersFramed_of_zero rfl fun _ same => nomatch same)
      show ∀ reply ∈ (processStatusRequest conf).sent, Framed reply
      simp [processStatusRequest, Framed, sizeofQaoedStatus]
  | interfacesList => exact list_framed_iff .interfaces
  | interfacesStatus ifcmd =>
      exact iff_of_false (interfaceStatus_unframed ifcmd) fun framed => framed.other ifcmd rfl
  | interfacesSetmtu ifcmd =>
      refine iff_of_true ?_ (answersFramed_of_zero rfl fun _ same => nomatch same)
      show ∀ reply ∈ (processInterfaceSetmtu env conf ifcmd).sent, Framed reply
      simp [processInterfaceSetmtu, Framed, sizeofInterfaceCmd]
  | targetList => exact list_framed_iff .targets
  | targetAdd target =>
      exact iff_of_true (targetAdd_framed target)
        (answersFramed_of_zero rfl fun _ same => nomatch same)
  | targetDel target =>
      exact iff_of_true (targetDel_framed target)
        (answersFramed_of_zero rfl fun _ same => nomatch same)
  | targetSetacl target =>
      exact iff_of_true (targetSetacl_framed target)
        (answersFramed_of_zero rfl fun _ same => nomatch same)
  | aclList => exact list_framed_iff .acls
  | unhandled cmd =>
      refine iff_of_true ?_ (answersFramed_of_zero rfl fun _ same => nomatch same)
      intro reply member
      cases member

end Framing

/-! ## A connection -/

section Connection

variable {order : ByteOrder} {daemon : Daemon} {calls : List Call}

/-- There are bytes for every reply. -/
theorem carries_exists (answers : List (UInt8 × Reply)) :
    ∃ frames, List.Forall₂ Carries answers frames := by
  induction answers with
  | nil => exact ⟨[], .nil⟩
  | cons answer answers ih =>
      obtain ⟨frames, carried⟩ := ih
      exact ⟨⟨answer.2.hdr answer.1 0, List.replicate answer.2.sent 0⟩ :: frames,
        .cons ⟨⟨0, rfl⟩, List.length_replicate⟩ carried⟩

theorem Carries.sound_iff {answer : UInt8 × Reply} {frame : Frame ApiHdr UInt8}
    (carries : Carries answer frame) : (apihdr order).Sound frame ↔ Framed answer.2 := by
  obtain ⟨pad, header⟩ := carries.header
  rw [Framing.Sound, carries.body, header]
  exact eq_comm

theorem all_sound_iff {answers : List (UInt8 × Reply)} {frames : List (Frame ApiHdr UInt8)}
    (carried : List.Forall₂ Carries answers frames) :
    (∀ frame ∈ frames, (apihdr order).Sound frame) ↔ ∀ answer ∈ answers, Framed answer.2 := by
  induction carried with
  | nil => simp
  | cons first rest ih => rw [List.forall_mem_cons, List.forall_mem_cons, first.sound_iff, ih]

/-- The client stays in step exactly if every reply is framed. -/
theorem inStep_iff {answers : List (UInt8 × Reply)} :
    InStep order answers ↔ ∀ answer ∈ answers, Framed answer.2 := by
  constructor
  · intro inStep
    obtain ⟨frames, carried⟩ := carries_exists answers
    rw [← @all_sound_iff order _ _ carried, ← (apihdr order).readAll_write_iff]
    exact inStep frames carried
  · intro framed frames carried
    rw [(apihdr order).readAll_write_iff, all_sound_iff carried]
    exact framed

theorem forall_mem_replies {motive : Reply → Prop} :
    (∀ answer ∈ replies daemon calls, motive answer.2) ↔
      ∀ visit ∈ apiThread.visits daemon calls,
        ∀ reply ∈ (apiThread.out visit.state visit.input).sent, motive reply := by
  unfold replies
  constructor
  · intro all visit member reply sent
    exact all _ (List.mem_flatMap.mpr ⟨visit, member, List.mem_map_of_mem sent⟩)
  · intro all answer member
    obtain ⟨visit, visited, sent⟩ := List.mem_flatMap.mp member
    obtain ⟨reply, inSent, rfl⟩ := List.mem_map.mp sent
    exact all visit visited reply inSent

theorem visit_framed_iff (daemon : Daemon) (call : Call) :
    (∀ reply ∈ (apiThread.out daemon call).sent, Framed reply) ↔
      (daemon.stopped = none → AnswersFramed call.env daemon.conf call.request) := by
  obtain ⟨conf, stopped⟩ := daemon
  cases stopped with
  | some stop =>
      refine iff_of_true ?_ fun runs => nomatch runs
      intro reply member
      cases member
  | none => exact (framed_iff call.request).trans (imp_iff_right rfl).symm

end Connection

/-- Every reply of a connection is framed, and the client stays in step, exactly if no
request is for the state of an interface. -/
theorem replies_framed_iff (order : ByteOrder) (conf : Conf) (calls : List Call) :
    ((∀ visit ∈ apiThread.visits ⟨conf, none⟩ calls,
        ∀ reply ∈ (apiThread.out visit.state visit.input).sent, Framed reply) ∧
      InStep order (replies ⟨conf, none⟩ calls)) ↔
    ∀ visit ∈ apiThread.visits ⟨conf, none⟩ calls, visit.state.stopped = none →
      AnswersFramed visit.input.env visit.state.conf visit.input.request := by
  rw [inStep_iff, forall_mem_replies, and_self]
  exact forall₂_congr fun visit _ => visit_framed_iff visit.state visit.input

/-- The header of a reply to INTERFACES_STATUS announces 32 bytes, and 24 follow: with the
status reply behind it the client takes a part of that for the rest. -/
theorem interfaceStatus_outOfStep :
    (¬ ∀ reply ∈ (processAPIrequest grantingEnv oneTarget (.interfacesStatus ⟨text "eth0", 0⟩)).sent,
      Framed reply) ∧
    ¬ InStep .little (replies ⟨oneTarget, none⟩
      [⟨grantingEnv, .interfacesStatus ⟨text "eth0", 0⟩⟩, ⟨grantingEnv, .status⟩]) := by
  have unframed : ¬ ∀ reply ∈ (processAPIrequest grantingEnv oneTarget
      (.interfacesStatus ⟨text "eth0", 0⟩)).sent, Framed reply := interfaceStatus_unframed _
  refine ⟨unframed, ?_⟩
  rw [inStep_iff, forall_mem_replies]
  exact fun framed => unframed (framed _ List.mem_cons_self)

end Qaoed.Api
