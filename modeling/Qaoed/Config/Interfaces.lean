import Qaoed.Config.Validate
import Qaoed.Device.HandlerSpec
import Qaoed.Library.Mealy

/-!
# Opening and reconfiguring interfaces

What `qaoed_openinterfaces` does with the configured interfaces on Linux, and the
API request that changes an MTU afterwards. Opening an interface fixes the size
of its receive buffer; the API request moves the MTU and leaves the buffer as it is.
-/

namespace Qaoed.Config

open Qaoed.Device
open Qaoed.Frame
open Qaoed.Library
open Qaoed.Library.ByteOrder

/-! ## Start-up -/

/-- What the operating system answers while an interface is opened. -/
structure OpenEnv where
  /-- Whether `socket` and `bind` succeed. -/
  sockOk : Bool
  hwaddr : Option SixBytes
  /-- Two readings of the interface's MTU; `none` if `ioctl` fails. -/
  mtu : Option Int
  mtuAgain : Option Int

def getifmtu (ioctl : Option Int) : Int := ioctl.getD (-1)

def getifhwaddr (ioctl : Option SixBytes) (ifentry : Ifst) : Ifst :=
  match ioctl with
  | none => ifentry
  | some hwaddr => { ifentry with hwaddr := some hwaddr }

/-- `qaoed_opensock` on Linux; `none` if it returns -1. -/
def qaoedOpensock (sockOk : Bool) (ifentry : Ifst) : Option Ifst :=
  if sockOk then some { ifentry with buffsize := 1518 } else none

/-- The MTU 0 stands for the one the system reports. -/
def assignMtu (ioctl : Option Int) (ifent : Ifst) : Ifst :=
  if ifent.mtu = 0 then { ifent with mtu := getifmtu ioctl } else ifent

/-- A larger MTU than the buffer makes the buffer larger. -/
def recalibrate (ifent : Ifst) : Ifst :=
  if ifent.buffsize < ifent.mtu then { ifent with buffsize := ifent.mtu + 14 } else ifent

@[simp]
theorem getifhwaddr_buffsize (ioctl : Option SixBytes) (ifentry : Ifst) :
    (getifhwaddr ioctl ifentry).buffsize = ifentry.buffsize := by
  cases ioctl <;> rfl

@[simp]
theorem assignMtu_buffsize (ioctl : Option Int) (ifent : Ifst) :
    (assignMtu ioctl ifent).buffsize = ifent.buffsize := by
  unfold assignMtu
  split <;> rfl

theorem recalibrate_buffsize {ifent : Ifst} (initial : ifent.buffsize = 1518) :
    (recalibrate ifent).buffsize =
      if 1518 < (recalibrate ifent).mtu then (recalibrate ifent).mtu + 14 else 1518 := by
  unfold recalibrate
  rw [initial]
  split <;> simp [*]

/-- One round of the loop of `qaoed_openinterfaces`. -/
def openInterface (env : OpenEnv) (ifent : Ifst) : Option Ifst :=
  (qaoedOpensock env.sockOk ifent).bind fun ifent =>
    let ifent := recalibrate (assignMtu env.mtu (getifhwaddr env.hwaddr ifent))
    if ifent.mtu > getifmtu env.mtuAgain then none else some ifent

def openAll : (Nat → OpenEnv) → List Ifst → Option (List Ifst)
  | _, [] => some []
  | env, ifent :: next =>
      (openInterface (env 0) ifent).bind fun ifent =>
        (openAll (fun count => env (count + 1)) next).map fun next => ifent :: next

/-- The interfaces afterwards; `none` if the return value is -1. -/
def qaoedOpeninterfaces (env : Nat → OpenEnv) (intlist : List Ifst) : Option (List Ifst) :=
  if intlist.isEmpty then none else openAll env intlist

/-- Both start-up functions accept the configuration and leave these interfaces. -/
structure Started {Iface : Type} [DecidableEq Iface] (env : Nat → OpenEnv)
    (stat : CString → Option Mode) (conf : Qconfig Iface) (intlist : List Ifst) : Prop where
  opened : qaoedOpeninterfaces env conf.intlist = some intlist
  valid : qaoedValidateconfig stat { conf with intlist := intlist } = 0

/-- An open interface has a buffer of 1518 bytes, or of its MTU and a frame header. -/
theorem openInterface_buffsize {env : OpenEnv} {ifent opened : Ifst}
    (opens : openInterface env ifent = some opened) :
    opened.buffsize = if 1518 < opened.mtu then opened.mtu + 14 else 1518 := by
  obtain ⟨bound, sock, opens⟩ := Option.bind_eq_some_iff.mp opens
  unfold qaoedOpensock at sock
  split at sock
  · cases sock
    dsimp only at opens
    split at opens
    · cases opens
    · cases opens
      apply recalibrate_buffsize
      simp
  · cases sock

theorem openAll_buffsize {env : Nat → OpenEnv} {intlist opened : List Ifst}
    (opens : openAll env intlist = some opened) :
    ∀ ifent ∈ opened, ifent.buffsize = if 1518 < ifent.mtu then ifent.mtu + 14 else 1518 := by
  induction intlist generalizing env opened with
  | nil =>
      cases opens
      simp
  | cons first rest ih =>
      obtain ⟨head, opensHead, opens⟩ := Option.bind_eq_some_iff.mp opens
      obtain ⟨tail, opensTail, rfl⟩ := Option.map_eq_some_iff.mp opens
      intro ifent member
      rcases List.mem_cons.mp member with rfl | inTail
      · exact openInterface_buffsize opensHead
      · exact ih opensTail ifent inTail

theorem Started.buffsize {Iface : Type} [DecidableEq Iface] {env : Nat → OpenEnv}
    {stat : CString → Option Mode} {conf : Qconfig Iface} {intlist : List Ifst}
    (started : Started env stat conf intlist) {ifent : Ifst} (member : ifent ∈ intlist) :
    ifent.buffsize = if 1518 < ifent.mtu then ifent.mtu + 14 else 1518 := by
  have opens := started.opened
  unfold qaoedOpeninterfaces at opens
  split at opens
  · cases opens
  · exact openAll_buffsize opens ifent member

/-! ## Setting the MTU -/

structure InterfaceCmd where
  ifname : CString
  mtu : Int
  deriving DecidableEq, Repr

inductive ApiError where
  | allok
  | failure
  deriving DecidableEq, Repr

structure ApiReply where
  error : ApiError
  ifcmd : InterfaceCmd
  deriving DecidableEq, Repr

/-- A request of the API client, and two readings of the interface's MTU. -/
structure SetMtu where
  ifcmd : InterfaceCmd
  mtu : Option Int
  mtuAgain : Option Int

/-- The first interface of the name. -/
def referenceint (name : CString) (intlist : List Ifst) : Option (Fin intlist.length) :=
  intlist.findFinIdx? fun iface => decide (name = iface.ifname)

/-- The MTU a request stands for: -1 asks for the one the system reports. -/
def SetMtu.requested (request : SetMtu) : Int :=
  if request.ifcmd.mtu = -1 then getifmtu request.mtu else request.ifcmd.mtu

/-- `processINTERFACE_SETMTU`: the interfaces afterwards and the reply. -/
def processInterfaceSetmtu (intlist : List Ifst) (request : SetMtu) : List Ifst × ApiReply :=
  match referenceint request.ifcmd.ifname intlist with
  | none => (intlist, ⟨.failure, request.ifcmd⟩)
  | some position =>
      let interface := intlist[position]
      if request.requested > getifmtu request.mtuAgain then
        (intlist, ⟨.failure, ⟨interface.ifname, interface.mtu⟩⟩)
      else
        (intlist.set position { interface with mtu := request.requested },
          ⟨.allok, ⟨interface.ifname, request.requested⟩⟩)

def api : Mealy (List Ifst) SetMtu ApiReply where
  next intlist request := (processInterfaceSetmtu intlist request).1
  out intlist request := (processInterfaceSetmtu intlist request).2

/-- The interface at this position gets the MTU of the request. -/
def Accepts (intlist : List Ifst) (request : SetMtu) (position : Fin intlist.length) : Prop :=
  referenceint request.ifcmd.ifname intlist = some position ∧
    request.requested ≤ getifmtu request.mtuAgain

/-- A request is refused and changes nothing, or moves the MTU of one interface. -/
theorem processInterfaceSetmtu_cases (intlist : List Ifst) (request : SetMtu) :
    ((∀ position, ¬ Accepts intlist request position) ∧
      (processInterfaceSetmtu intlist request).1 = intlist ∧
      (processInterfaceSetmtu intlist request).2.error = .failure) ∨
    ∃ position, Accepts intlist request position ∧
      (processInterfaceSetmtu intlist request).1 =
        intlist.set position { intlist[position] with mtu := request.requested } ∧
      (processInterfaceSetmtu intlist request).2.error = .allok := by
  unfold processInterfaceSetmtu Accepts
  cases found : referenceint request.ifcmd.ifname intlist with
  | none => simp
  | some position =>
      by_cases higher : request.requested > getifmtu request.mtuAgain
      · left
        simp [higher]
      · right
        exact ⟨position, ⟨rfl, Int.not_lt.mp higher⟩, by simp [higher], by simp [higher]⟩

/-- What holds of every interface still holds after a request exactly if it holds of the
interface that the request is accepted for, with its new MTU. -/
theorem forall_interface_step_iff {P : Ifst → Prop} {intlist : List Ifst}
    (all : ∀ ifent ∈ intlist, P ifent) (request : SetMtu) :
    (∀ ifent ∈ api.next intlist request, P ifent) ↔
      ∀ position, Accepts intlist request position →
        P { intlist[position] with mtu := request.requested } := by
  rcases processInterfaceSetmtu_cases intlist request with
    ⟨refused, same, _⟩ | ⟨position, accepted, moved, _⟩
  · have unchanged : api.next intlist request = intlist := same
    rw [unchanged]
    exact ⟨fun _ position accepted => absurd accepted (refused position), fun _ => all⟩
  · have changed : api.next intlist request =
        intlist.set position { intlist[position] with mtu := request.requested } := moved
    rw [changed]
    constructor
    · intro after other accepted'
      have same : position = other := Option.some.inj (accepted.1.symm.trans accepted'.1)
      rw [← same]
      exact after _ (List.mem_set position.isLt _)
    · intro allowed ifent member
      rcases List.mem_or_eq_of_mem_set member with old | rfl
      · exact all ifent old
      · exact allowed position accepted

/-! ## What an interface invites -/

/-- The sector count in the CFG replies of an interface comes from its MTU. -/
theorem maxsect_of_sent {Iface : Type} {order : ByteOrder} {env : Env}
    {dev : Aoedev Aclhdr Iface} {store : List UInt8} {work : Workentry} {hdr : AoeCfghdr}
    {data : List UInt8} (member : .cfg hdr data ∈ (qaoedProcessCFG order env dev store work).sent) :
    hdr.maxsect = maxsectOf work.ifentry.mtu := by
  rcases qaoedProcessCFG_cases order env dev store work with
    exit | ⟨_, _, exit⟩ | ⟨_, _, _, _, exit⟩ | ⟨_, code, logged, exit⟩
  · rw [exit] at member
    cases member
  all_goals
    rw [exit] at member
    have same := List.mem_singleton.mp member
    unfold qaoedXmit at same
    cases same
    rfl

/-- The length of the largest write frame that the CFG replies of an interface invite. -/
def invited (ifent : Ifst) : Int := sizeofAoeAtahdr + (maxsectOf ifent.mtu).toNat * 512

/-- The listener reads the largest invited write frame as a whole. -/
def BufferFits (ifent : Ifst) : Prop := invited ifent ≤ ifent.buffsize

/-- The MTU has room for no more sectors, counted in a byte, than the buffer. -/
def SectorsFit (mtu buffsize : Int) : Prop := (mtu - 36) / 512 % 256 ≤ (buffsize - 36) / 512

theorem maxsectOf_toNat (mtu : Int) : ((maxsectOf mtu).toNat : Int) = (mtu - 36) / 512 % 256 := by
  rw [maxsectOf, UInt8.toNat_ofNat', sizeT]
  unfold sizeofAoeAtahdr
  omega

theorem bufferFits_iff (ifent : Ifst) :
    BufferFits ifent ↔ SectorsFit ifent.mtu ifent.buffsize := by
  unfold BufferFits SectorsFit invited
  rw [maxsectOf_toNat]
  unfold sizeofAoeAtahdr
  omega

/-- An MTU that holds the header of a frame, or one so far below that the sector
count wraps around to at most two. -/
def StartFits (ifent : Ifst) : Prop := 36 ≤ ifent.mtu ∨ (ifent.mtu - 36) / 512 % 256 ≤ 2

theorem bufferFits_start_iff {ifent : Ifst}
    (opened : ifent.buffsize = if 1518 < ifent.mtu then ifent.mtu + 14 else 1518) :
    BufferFits ifent ↔ StartFits ifent := by
  rw [bufferFits_iff, opened]
  unfold SectorsFit StartFits
  split <;> omega

/-- A request that is accepted asks for no more sectors than the buffer of its interface holds. -/
def RequestFits (intlist : List Ifst) (request : SetMtu) : Prop :=
  ∀ position, Accepts intlist request position →
    SectorsFit request.requested intlist[position].buffsize

/-- One request keeps the buffers large enough exactly if it fits. -/
theorem bufferFits_step_iff {intlist : List Ifst} (fits : ∀ ifent ∈ intlist, BufferFits ifent)
    (request : SetMtu) :
    (∀ ifent ∈ api.next intlist request, BufferFits ifent) ↔ RequestFits intlist request := by
  rw [forall_interface_step_iff fits]
  exact forall₂_congr fun position _ => bufferFits_iff _

/-- From an accepted configuration, the buffers fit in every state that the
requests lead to exactly if every interface starts with a fitting MTU and every
accepted request fits. -/
theorem bufferFits_reachable_iff {Iface : Type} [DecidableEq Iface] (env : Nat → OpenEnv)
    (stat : CString → Option Mode) (conf : Qconfig Iface) (intlist : List Ifst)
    (requests : List SetMtu) (started : Started env stat conf intlist) :
    (∀ earlier, earlier <+: requests →
        ∀ ifent ∈ api.run intlist earlier, BufferFits ifent) ↔
      (∀ ifent ∈ intlist, StartFits ifent) ∧
        ∀ visit ∈ api.visits intlist requests, RequestFits visit.state visit.input := by
  have begin_iff : (∀ ifent ∈ intlist, BufferFits ifent) ↔ ∀ ifent ∈ intlist, StartFits ifent :=
    forall₂_congr fun ifent member => bufferFits_start_iff (started.buffsize member)
  have along (fits : ∀ ifent ∈ intlist, BufferFits ifent) :=
    api.prefixes_invariant_iff (fun intlist => ∀ ifent ∈ intlist, BufferFits ifent) RequestFits
      requests fits (fun _ request fits => bufferFits_step_iff fits request)
  constructor
  · intro holds
    have fits := holds [] List.nil_prefix
    exact ⟨begin_iff.mp fits, (along fits).mp holds⟩
  · intro ⟨starts, allowed⟩
    exact (along (begin_iff.mpr starts)).mpr allowed

/-! ## An MTU raised at run time -/

/-- An interface with the default MTU on a network that carries jumbo frames. -/
def jumboConf : Qconfig Unit where
  devices := []
  intlist := [⟨[101], none, 1500, 0, some ⟨[], .syslog⟩⟩]
  acllist := []

def jumboEnv : Nat → OpenEnv := fun _ => ⟨true, some .zero, some 9000, some 9000⟩

def jumboOpened : Ifst := ⟨[101], some .zero, 1500, 1518, some ⟨[], .syslog⟩⟩

theorem jumbo_started : Started jumboEnv (fun _ => none) jumboConf [jumboOpened] := ⟨rfl, rfl⟩

/-- A request for an MTU on that network. -/
def jumboRequest (mtu : Int) : SetMtu := ⟨⟨[101], mtu⟩, some 9000, some 9000⟩

theorem bufferFits_reachable_iff_smaller : BufferFits { jumboOpened with mtu := 1400 } := by
  have condition := bufferFits_reachable_iff jumboEnv (fun _ => none) jumboConf [jumboOpened]
    [jumboRequest 1400] jumbo_started
  refine condition.mpr ⟨?_, ?_⟩ _ List.prefix_rfl _ List.mem_cons_self
  · intro ifent member
    rw [List.mem_singleton.mp member]
    exact Or.inl (by decide)
  · intro visit member
    rw [List.mem_singleton.mp member]
    rintro ⟨index, inside⟩ _
    obtain rfl := Nat.lt_one_iff.mp inside
    show SectorsFit 1400 1518
    unfold SectorsFit
    decide

/-- After a request for an MTU of 9000 the interface invites frames with 17 sectors
and still reads 1518 bytes. -/
theorem raisedMtu_overruns :
    Started jumboEnv (fun _ => none) jumboConf [jumboOpened] ∧
      ¬ ∀ ifent ∈ api.run [jumboOpened] [jumboRequest 9000], BufferFits ifent := by
  refine ⟨jumbo_started, ?_⟩
  intro fits
  have overrun := fits { jumboOpened with mtu := 9000 } List.mem_cons_self
  unfold BufferFits at overrun
  exact absurd overrun (by decide)

end Qaoed.Config
