import Mathlib.Data.List.Chain
import Qaoed.Network.Dispatch

/-!
# Frames between servers

Every frame a server sends, be it a reply or an advertisement, has the response
bit set. The dispatcher means to drop such frames, but on a little-endian host
it looks for the bit in the wrong byte. What stops an exchange of frames between
servers is then only that nobody is addressed.
-/

namespace Qaoed.Network

open Qaoed.Library
open Qaoed.Library.ByteOrder
open Qaoed.Frame
open Qaoed.Device

variable {Iface : Type}

/-! ## Advertisements -/

/-- Memory that starts with the given bytes. -/
def memOf (content : List UInt8) : Mem := fun index => (content[index]?).getD 0

theorem holds_memOf (content : List UInt8) : Holds (memOf content) content := by
  intro index inside
  rw [memOf, List.getElem?_eq_getElem inside, Option.getD_some]

/-- The frame that `qaoed_dobcast` makes up: a configuration read from `h_source`. -/
def bcastFrame (order : ByteOrder) (hSource : SixBytes) : AoeCfghdr where
  aoehdr :=
    { hDest := SixBytes.zero
      hSource := hSource
      hProto := htons order ethPAoe
      verFlags := 0x10 ||| aoeFlagRsp
      error := 0
      shelf := 0
      slot := 0
      cmd := aoeCmdCfg
      tag := 0 }
  queuelen := 0
  firmware := 0
  maxsect := 0
  aoeverCmd := aoeCfgRead ||| 0x10
  cfgLen := 0

/-- `qaoed_dobcast`, where `interface` is what `device->interface` leads to. -/
def qaoedDobcast (order : ByteOrder) (env : Env) (interface : Ifst)
    (device : Aoedev Aclhdr Iface) (store : List UInt8) (hSource : SixBytes) : Outcome Iface :=
  qaoedProcesswork order env device store
    ⟨memOf ((bcastFrame order hSource).toBytes order), sizeofAoeCfghdr, interface⟩

def hBcast : SixBytes := ⟨0xff, 0xff, 0xff, 0xff, 0xff, 0xff⟩

/-- The addresses a device is advertised to: everybody, or who is accepted by name. -/
def bcastTargets (device : Aoedev Aclhdr Iface) : List SixBytes :=
  match device.cfgracl with
  | none => [hBcast]
  | some acl => (acl.acl.filter fun aclrow => aclrow.rule == aclAccept).map Aclentry.hDest

/-- `qaoed_bcastdevice`: the frames sent. -/
def qaoedBcastdevice (order : ByteOrder) (env : Env) (interface : Ifst)
    (device : Aoedev Aclhdr Iface) (store : List UInt8) : List Sent :=
  (bcastTargets device).flatMap fun hDest =>
    (qaoedDobcast order env interface device store hDest).sent

/-! ## What a server sends -/

/-- A frame that a server sends as a reply or to advertise a device. -/
inductive SentByServer (order : ByteOrder) : Sent → Prop where
  | reply {Iface : Type} (env : Env) (device : Aoedev Aclhdr Iface) (store : List UInt8)
      (work : Workentry) {sent : Sent} :
      sent ∈ (qaoedProcesswork order env device store work).sent → SentByServer order sent
  | advertisement {Iface : Type} (env : Env) (interface : Ifst) (device : Aoedev Aclhdr Iface)
      (store : List UInt8) {sent : Sent} :
      sent ∈ qaoedBcastdevice order env interface device store → SentByServer order sent

/-- Every frame a server sends has the response bit set. -/
theorem SentByServer.response {order : ByteOrder} {sent : Sent} (server : SentByServer order sent) :
    HasFlag sent.aoehdr.verFlags aoeFlagRsp := by
  cases server with
  | reply env device store work member => exact (isReply_processwork member).response
  | advertisement env interface device store member =>
      obtain ⟨hDest, _, member⟩ := List.mem_flatMap.mp member
      exact (isReply_processwork member).response

/-! ## Who is addressed -/

/-- Nobody is to handle the frame: it is too short or of another type, or it
names no device and is not a broadcast to anybody. -/
def Unaddressed (order : ByteOrder) (devices : List (Aoedev Aclhdr Iface)) (aoepkt : Mem)
    (len : Int) : Prop :=
  sizeT len < sizeofAoeHdr ∨ ntohs order (AoeHdr.ofMem order aoepkt).hProto ≠ ethPAoe ∨
    ((∀ device ∈ devices, ¬ Named order aoepkt device) ∧
      (isBroadcast (ntohs order (AoeHdr.ofMem order aoepkt).shelf)
        (AoeHdr.ofMem order aoepkt).slot = true → devices = []))

theorem recipients_eq_nil_iff {order : ByteOrder} {devices : List (Aoedev Aclhdr Iface)}
    {aoepkt : Mem} :
    recipients devices (ntohs order (AoeHdr.ofMem order aoepkt).shelf)
        (AoeHdr.ofMem order aoepkt).slot = [] ↔
      (∀ device ∈ devices, ¬ Named order aoepkt device) ∧
        (isBroadcast (ntohs order (AoeHdr.ofMem order aoepkt).shelf)
          (AoeHdr.ofMem order aoepkt).slot = true → devices = []) := by
  rw [recipients, List.append_eq_nil_iff]
  refine and_congr ?_ ?_
  · rw [List.eq_nil_iff_forall_not_mem]
    simp only [mem_addressed, not_and]
  · exact ite_eq_right_iff

/-- On a little-endian host a frame is queued to nobody exactly if nobody is addressed. -/
theorem queued_eq_nil_iff (devices : List (Aoedev Aclhdr Iface)) (ifentry : Ifst) (aoepkt : Mem)
    (len : Int) :
    (processpacket .little devices ifentry aoepkt len).queued = [] ↔
      Unaddressed .little devices aoepkt len := by
  unfold processpacket arrival Unaddressed
  dsimp only
  rw [if_neg (rsp_little _)]
  by_cases short : sizeT len < sizeofAoeHdr
  · simp [short]
  · by_cases proto : ntohs .little (AoeHdr.ofMem .little aoepkt).hProto ≠ ethPAoe
    · simp [short, proto]
    · rw [if_neg short, if_neg proto]
      simp only [short, proto, false_or]
      exact recipients_eq_nil_iff

/-! ## Exchanges -/

/-- A server with the given devices receives the first frame and sends the second one for it. -/
def Triggers (order : ByteOrder) (devices : List (Aoedev Aclhdr Iface)) (first second : Sent) :
    Prop :=
  ∃ ifentry aoepkt, Holds aoepkt (first.bytes order) ∧
    ∃ device ∈ (processpacket order devices ifentry aoepkt first.length).queued,
      ∃ env store, second ∈ (qaoedProcesswork order env device store
        (workOf ifentry aoepkt first.length)).sent

/-- Each frame triggers the next one at some server of the network. -/
def Exchange (order : ByteOrder) (network : List (List (Aoedev Aclhdr Iface)))
    (frames : List Sent) : Prop :=
  frames.IsChain fun first second => ∃ devices ∈ network, Triggers order devices first second

/-- On a little-endian host a response is queued to nobody exactly if nobody is
addressed; so it is with every frame a server sends, and an exchange in which
nobody is addressed ends with its first frame. -/
theorem responses_ignored_iff :
    (∀ (devices : List (Aoedev Aclhdr Iface)) ifentry aoepkt len,
      HasFlag (AoeHdr.ofMem .little aoepkt).verFlags aoeFlagRsp →
        ((processpacket .little devices ifentry aoepkt len).queued = [] ↔
          Unaddressed .little devices aoepkt len)) ∧
    (∀ sent, SentByServer .little sent → ∀ aoepkt, Holds aoepkt (sent.bytes .little) →
      HasFlag (AoeHdr.ofMem .little aoepkt).verFlags aoeFlagRsp ∧
        ∀ (devices : List (Aoedev Aclhdr Iface)) ifentry,
          ((processpacket .little devices ifentry aoepkt sent.length).queued = [] ↔
            Unaddressed .little devices aoepkt sent.length)) ∧
    (∀ (network : List (List (Aoedev Aclhdr Iface))) frames, Exchange .little network frames →
      (∀ sent ∈ frames, ∀ devices ∈ network, ∀ aoepkt, Holds aoepkt (sent.bytes .little) →
        Unaddressed .little devices aoepkt sent.length) →
      frames.length ≤ 1) := by
  refine ⟨?_, ?_, ?_⟩
  · intro devices ifentry aoepkt len _
    exact queued_eq_nil_iff devices ifentry aoepkt len
  · intro sent server aoepkt holds
    refine ⟨?_, fun devices ifentry => queued_eq_nil_iff devices ifentry aoepkt sent.length⟩
    rw [Sent.ofMem_bytes holds]
    exact server.response
  · intro network frames exchange ignored
    cases exchange with
    | nil => exact Nat.zero_le 1
    | singleton sent => exact Nat.le_refl 1
    | cons_cons triggered later =>
        obtain ⟨devices, inNetwork, ifentry, aoepkt, holds, device, queued, _⟩ := triggered
        have unaddressed := ignored _ List.mem_cons_self devices inNetwork aoepkt holds
        rw [(queued_eq_nil_iff devices ifentry aoepkt _).mpr unaddressed] at queued
        cases queued

/-! ## An endless exchange -/

/-- The answer to a configuration read, from one server to another one with the
same shelf and slot. -/
def pong (hDest hSource : SixBytes) : Sent :=
  .cfg
    { aoehdr :=
        { hDest := hDest
          hSource := hSource
          hProto := htons .little ethPAoe
          verFlags := 0x10 ||| aoeFlagRsp
          error := 0
          shelf := htons .little 1
          slot := 1
          cmd := aoeCmdCfg
          tag := 0 }
      queuelen := htons .little 20
      firmware := htons .little 0x400a
      maxsect := 2
      aoeverCmd := aoeCfgRead ||| 0x10
      cfgLen := 0 } []

def hostA : SixBytes := ⟨2, 0, 0, 0, 0, 10⟩

def hostB : SixBytes := ⟨2, 0, 0, 0, 0, 11⟩

/-- The frames of two servers in turn. -/
def alternate (count : Nat) (first second : Sent) : List Sent :=
  match count with
  | 0 => []
  | count + 1 => first :: alternate count second first

theorem alternate_length (count : Nat) (first second : Sent) :
    (alternate count first second).length = count := by
  induction count generalizing first second with
  | zero => rfl
  | succ count ih => rw [alternate, List.length_cons, ih]

theorem alternate_isChain {related : Sent → Sent → Prop} {first second : Sent}
    (forth : related first second) (back : related second first) (count : Nat) :
    (alternate count first second).IsChain related := by
  induction count generalizing first second with
  | zero => exact .nil
  | succ count ih =>
      cases count with
      | zero => exact .singleton first
      | succ count => exact .cons_cons forth (ih back forth)

theorem pong_triggers_pong {hDest hSource : SixBytes}
    (hosts : (hDest = hostA ∧ hSource = hostB) ∨ (hDest = hostB ∧ hSource = hostA)) :
    Triggers .little [oneSector.dev] (pong hDest hSource) (pong hSource hDest) := by
  refine ⟨⟨[], some hDest, 1500, 1518, none⟩, memOf ((pong hDest hSource).bytes .little),
    holds_memOf _, oneSector.dev, ?_, ⟨true, none, fun _ => 0, fun _ => 0⟩, [], ?_⟩
  · have request : arrival .little (memOf ((pong hDest hSource).bytes .little))
        (pong hDest hSource).length = .request 1 1 := by
      rcases hosts with ⟨rfl, rfl⟩ | ⟨rfl, rfl⟩ <;> decide
    rw [processpacket_request request]
    exact List.mem_cons_self
  · rcases hosts with ⟨rfl, rfl⟩ | ⟨rfl, rfl⟩ <;> decide

/-- Device 1.2, which no answer of device 1.1 names. -/
def slotTwo : Aoedev Aclhdr Unit := { oneSector.dev with slot := 2 }

theorem pong_unaddressed {hDest hSource : SixBytes} {aoepkt : Mem}
    (holds : Holds aoepkt ((pong hDest hSource).bytes .little)) :
    Unaddressed .little [slotTwo] aoepkt (pong hDest hSource).length := by
  have header : AoeHdr.ofMem .little aoepkt = (pong hDest hSource).aoehdr := Sent.ofMem_bytes holds
  refine .inr (.inr ⟨?_, ?_⟩)
  · intro device member named
    rw [List.mem_singleton.mp member] at named
    have slot : slotTwo.slot = (AoeHdr.ofMem .little aoepkt).slot := named.2
    rw [header] at slot
    exact absurd slot (by decide : (2 : UInt8) ≠ 1)
  · intro broadcast
    rw [header] at broadcast
    exact absurd broadcast (by decide : ¬ isBroadcast (ntohs .little (htons .little 1)) 1 = true)

/-- The answer of a server with device 1.1 is queued to nobody where the device is 1.2, and no
second frame follows it there. -/
theorem responses_ignored_iff_slotTwo :
    (processpacket .little [slotTwo] ⟨[], some hostB, 1500, 1518, none⟩
        (memOf ((pong hostB hostA).bytes .little)) (pong hostB hostA).length).queued = [] ∧
      ¬ Exchange .little [[slotTwo]] [pong hostB hostA, pong hostA hostB] := by
  obtain ⟨_, sent, exchanges⟩ := @responses_ignored_iff Unit
  constructor
  · obtain ⟨_, _, _, device, _, env, store, member⟩ := pong_triggers_pong (Or.inl ⟨rfl, rfl⟩)
    have answers := (sent (pong hostB hostA) (.reply env device store _ member) _ (holds_memOf _)).2
    exact (answers [slotTwo] _).mpr (pong_unaddressed (holds_memOf _))
  · intro exchange
    refine absurd (exchanges _ _ exchange ?_) (by decide)
    intro frame member devices inNetwork aoepkt holds
    rw [List.mem_singleton.mp inNetwork]
    rcases List.mem_cons.mp member with rfl | second
    · exact pong_unaddressed holds
    · rw [List.mem_singleton.mp second] at holds ⊢
      exact pong_unaddressed holds

/-- A response is queued, and two servers with the same shelf and slot answer each
other's responses without end. -/
theorem pong_answeredForever :
    HasFlag (AoeHdr.ofMem .little (memOf ((pong hostA hostB).bytes .little))).verFlags
        aoeFlagRsp ∧
      (processpacket .little [oneSector.dev] ⟨[], some hostA, 1500, 1518, none⟩
        (memOf ((pong hostA hostB).bytes .little)) (pong hostA hostB).length).queued ≠ [] ∧
      ∀ count, ∃ frames, frames.length = count ∧
        Exchange .little [[oneSector.dev], [oneSector.dev]] frames := by
  refine ⟨by decide, ?_, ?_⟩
  · intro none
    have request : arrival .little (memOf ((pong hostA hostB).bytes .little))
        (pong hostA hostB).length = .request 1 1 := by
      decide
    rw [processpacket_request request] at none
    cases none
  · intro count
    have forth := pong_triggers_pong (Or.inl ⟨rfl, rfl⟩ : (hostA = hostA ∧ hostB = hostB) ∨ _)
    have back := pong_triggers_pong (Or.inr ⟨rfl, rfl⟩ : _ ∨ (hostB = hostB ∧ hostA = hostA))
    refine ⟨alternate count (pong hostA hostB) (pong hostB hostA), alternate_length _ _ _, ?_⟩
    exact alternate_isChain ⟨_, List.mem_cons_self, forth⟩ ⟨_, List.mem_cons_self, back⟩ count

end Qaoed.Network
