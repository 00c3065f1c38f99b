import Qaoed.Device.Server

/-!
# Replies and their requests

A handler builds its reply in one function and hands it to the socket in three
others. Whatever way a request takes through them, the frame that leaves is
addressed to the sender of the request and identifies it.
-/

namespace Qaoed.Device

open Qaoed.Library
open Qaoed.Library.ByteOrder
open Qaoed.Frame

variable {Iface : Type}

/-- An ATA request that is long enough for the dispatcher. -/
def IsAtaRequest (order : ByteOrder) (work : Workentry) : Prop :=
  (work.hdr order).cmd = aoeCmdAta ∧ (sizeofAoeAtahdr : Int) ≤ work.packetLen

/-- A CFG request that is long enough for the dispatcher. -/
def IsCfgRequest (order : ByteOrder) (work : Workentry) : Prop :=
  (work.hdr order).cmd = aoeCmdCfg ∧ (sizeofAoeCfghdr : Int) ≤ work.packetLen

/-- The header of an outgoing frame correlates it with a request for the device. -/
structure CorrelatedHdr (order : ByteOrder) (dev : Aoedev Aclhdr Iface) (work : Workentry)
    (hdr : AoeHdr) : Prop where
  hDest : hdr.hDest = (work.hdr order).hSource
  hSource : ∀ hwaddr, work.ifentry.hwaddr = some hwaddr → hdr.hSource = hwaddr
  hProto : hdr.hProto = (work.hdr order).hProto
  tag : hdr.tag = (work.hdr order).tag
  cmd : hdr.cmd = (work.hdr order).cmd
  shelf : ntohs order hdr.shelf = dev.shelf
  slot : hdr.slot = dev.slot
  response : HasFlag hdr.verFlags aoeFlagRsp

/-- What leaves the server for one request, and what becomes of the request. -/
structure Correlates (order : ByteOrder) (env : Env) (dev : Aoedev Aclhdr Iface)
    (store : List UInt8) (work : Workentry) : Prop where
  ata : IsAtaRequest order work →
    (qaoedProcesswork order env dev store work).sent.length = 1
  cfg : IsCfgRequest order work →
    (qaoedProcesswork order env dev store work).sent.length ≤ 1
  other : ¬ IsAtaRequest order work → ¬ IsCfgRequest order work →
    (qaoedProcesswork order env dev store work).sent = []
  replies : ∀ sent ∈ (qaoedProcesswork order env dev store work).sent,
    CorrelatedHdr order dev work sent.aoehdr
  released : (qaoedProcesswork order env dev store work).workdestroys = 1

section Request

variable {order : ByteOrder} {env : Env} {dev : Aoedev Aclhdr Iface} {store : List UInt8}
  {work : Workentry}

/-- A length that an `int` holds and that is not negative is compared as it is. -/
theorem le_sizeT_iff {size : Nat} {packetLen : Int} (frame : 0 ≤ packetLen)
    (int : packetLen < 2 ^ 31) : size ≤ sizeT packetLen ↔ (size : Int) ≤ packetLen := by
  rw [sizeT, Int.emod_eq_of_lt frame (by omega)]
  omega

theorem qaoedProcesswork_of_ataRequest (request : IsAtaRequest order work)
    (int : work.packetLen < 2 ^ 31) :
    qaoedProcesswork order env dev store work = qaoedProcessATA order env dev store work :=
  qaoedProcesswork_ata request.1
    ((le_sizeT_iff (le_trans (by decide) request.2) int).mpr request.2)

/-- A frame that is neither kind of request is not answered. -/
theorem qaoedProcesswork_sent_other (frame : 0 ≤ work.packetLen) (int : work.packetLen < 2 ^ 31)
    (notAta : ¬ IsAtaRequest order work) (notCfg : ¬ IsCfgRequest order work) :
    (qaoedProcesswork order env dev store work).sent = [] := by
  rcases qaoedProcesswork_cases order env dev store work with
    ⟨cmd, long, _⟩ | ⟨cmd, long, _⟩ | ⟨_, exit⟩
  · exact absurd ⟨cmd, (le_sizeT_iff frame int).mp long⟩ notAta
  · exact absurd ⟨cmd, (le_sizeT_iff frame int).mp long⟩ notCfg
  · rw [exit]

/-- An ATA request is answered on every path through its handler. -/
theorem qaoedProcessATA_sent_length (order : ByteOrder) (env : Env) (dev : Aoedev Aclhdr Iface)
    (store : List UInt8) (work : Workentry) :
    (qaoedProcessATA order env dev store work).sent.length = 1 := by
  rcases qaoedProcessATA_cases order env dev store work with
    ⟨_, exit⟩ | ⟨_, _, exit⟩ | ⟨_, _, exit⟩ | ⟨_, _, exit⟩ <;> rw [exit] <;> rfl

/-- No frame leaves a handler but through `qaoed_xmit`. -/
theorem sent_xmit {sent : Sent}
    (member : sent ∈ (qaoedProcesswork order env dev store work).sent) :
    ∃ reply len, sent = qaoedXmit work reply len := by
  rcases qaoedProcesswork_cases order env dev store work with
    ⟨_, _, exit⟩ | ⟨_, _, exit⟩ | ⟨_, exit⟩
  all_goals rw [exit] at member
  · obtain ⟨_, _, _, frame⟩ := xmit_of_processATA member
    exact ⟨_, _, frame⟩
  · obtain ⟨_, _, _, frame⟩ := xmit_of_processCFG member
    exact ⟨_, _, frame⟩
  · cases member

/-- `qaoed_xmit` fills in the hardware address of the interface. -/
theorem qaoedXmit_hSource {hwaddr : SixBytes} (known : work.ifentry.hwaddr = some hwaddr)
    (reply : Sent) (len : Nat) : (qaoedXmit work reply len).aoehdr.hSource = hwaddr := by
  cases reply <;> simp [qaoedXmit, Sent.aoehdr, setSource, known]

/-- Every frame that handling a request sends is correlated with it. -/
theorem correlatedHdr_sent {sent : Sent}
    (member : sent ∈ (qaoedProcesswork order env dev store work).sent) :
    CorrelatedHdr order dev work sent.aoehdr := by
  have reply := isReply_processwork member
  refine ⟨reply.hDest, ?_, reply.hProto, reply.tag, reply.cmd, ?_, reply.slot, reply.response⟩
  · intro hwaddr known
    obtain ⟨frame, len, rfl⟩ := sent_xmit member
    exact qaoedXmit_hSource known frame len
  · rw [reply.shelf, ntohs_htons]

end Request

/-- Whatever the command and the answers of the system, an ATA request is answered
with one frame, a CFG request with one at most and anything else with none, every
frame is correlated with its request, and the request is released once. -/
theorem request_correlated (order : ByteOrder) (env : Env) (dev : Aoedev Aclhdr Iface)
    (store : List UInt8) (work : Workentry) (frame : 0 ≤ work.packetLen)
    (int : work.packetLen < 2 ^ 31) : Correlates order env dev store work where
  ata request := by
    rw [qaoedProcesswork_of_ataRequest request int]
    exact qaoedProcessATA_sent_length order env dev store work
  cfg _ := qaoedProcesswork_sent_length order env dev store work
  other := qaoedProcesswork_sent_other frame int
  replies _ := correlatedHdr_sent
  released := qaoedProcesswork_workdestroys order env dev store work

/-- A read request for one sector that the system cannot serve. -/
def failingRead : Workentry where
  aoepkt := fun index => if index = 26 then 1 else if index = 27 then winRead else 0
  packetLen := 36
  ifentry := ⟨[], some ⟨2, 0, 0, 0, 0, 10⟩, 1500, 1518, none⟩

theorem request_correlated_failingRead :
    (qaoedProcesswork .little ⟨false, none, fun _ => 0, fun _ => 0⟩ oneSector.dev oneSector.store
      failingRead).sent.length = 1 :=
  (request_correlated .little ⟨false, none, fun _ => 0, fun _ => 0⟩ oneSector.dev oneSector.store
    failingRead (by decide) (by decide)).ata ⟨rfl, by decide⟩

end Qaoed.Device
