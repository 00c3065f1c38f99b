import Qaoed.Device.AccessControl
import Qaoed.Device.Correlation

/-!
# Replies and fresh memory

The reply to a read grows by the announced sectors before the file is read, and
the buffer of the listener is longer than the frame it received. Two runs that
differ in what such memory held before send the same exactly if the read fills
its buffer and no comparison reaches behind the frame.
-/

namespace Qaoed.Device

open Qaoed.Library
open Qaoed.Library.ByteOrder
open Qaoed.Frame

variable {Iface : Type}

/-- Two requests that differ only in what the memory held that the listener and
the handlers allocate for them. -/
structure SameButFresh (first second : Request) : Prop where
  ifentry : second.work.ifentry = first.work.ifentry
  packetLen : second.work.packetLen = first.work.packetLen
  received : second.work.received = first.work.received
  seekOk : second.env.seekOk = first.env.seekOk
  cap : second.env.cap = first.env.cap
  tail : second.env.tail = first.env.tail

/-- The bytes that `qaoed_file_read` takes from the store. -/
def delivered (env : Env) (store : List UInt8) (request : AoeAtahdr) : List UInt8 :=
  if env.seekOk then fetched env store request else []

section Congr

variable {order : ByteOrder} {dev : Aoedev Aclhdr Iface} {store : List UInt8}
  {first second : Request}

theorem SameButFresh.refl (request : Request) : SameButFresh request request :=
  ⟨rfl, rfl, rfl, rfl, rfl, rfl⟩

/-- A byte of the frame is the same in both buffers. -/
theorem SameButFresh.byte (same : SameButFresh first second) {index : Nat}
    (inside : (index : Int) < first.work.packetLen) :
    second.work.aoepkt index = first.work.aoepkt index := by
  have received := congrArg (fun bytes => bytes[index]?) same.received
  simp only [Workentry.received, same.packetLen, bytesAt_getElem?, Nat.zero_add] at received
  rw [if_pos (by omega), if_pos (by omega)] at received
  exact Option.some.inj received

theorem SameButFresh.hdr (same : SameButFresh first second)
    (long : (sizeofAoeHdr : Int) ≤ first.work.packetLen) :
    second.work.hdr order = first.work.hdr order :=
  AoeHdr.ofMem_congr fun _ inside => same.byte (by omega)

theorem SameButFresh.ata (same : SameButFresh first second)
    (long : (sizeofAoeAtahdr : Int) ≤ first.work.packetLen) :
    second.work.ata order = first.work.ata order :=
  AoeAtahdr.ofMem_congr fun _ inside => same.byte (by omega)

theorem SameButFresh.cfg (same : SameButFresh first second)
    (long : (sizeofAoeCfghdr : Int) ≤ first.work.packetLen) :
    second.work.cfg order = first.work.cfg order :=
  AoeCfghdr.ofMem_congr fun _ inside => same.byte (by omega)

theorem SameButFresh.xmit (same : SameButFresh first second) (reply : Sent) (len : Nat) :
    qaoedXmit second.work reply len = qaoedXmit first.work reply len :=
  qaoedXmit_congr same.ifentry reply len

theorem SameButFresh.createpkt (same : SameButFresh first second)
    (long : (sizeofAoeHdr : Int) ≤ first.work.packetLen) :
    qaoedCreatepkt order dev second.work = qaoedCreatepkt order dev first.work := by
  unfold qaoedCreatepkt
  rw [same.hdr long]

/-! ### ATA requests -/

theorem SameButFresh.ataReply (same : SameButFresh first second)
    (long : (sizeofAoeAtahdr : Int) ≤ first.work.packetLen) :
    Device.ataReply order dev second.work = Device.ataReply order dev first.work := by
  unfold Device.ataReply
  rw [same.ata long, same.createpkt (le_trans (by decide) long)]

theorem SameButFresh.ataErrorXmit (same : SameButFresh first second)
    (long : (sizeofAoeAtahdr : Int) ≤ first.work.packetLen) :
    Device.ataErrorXmit order dev store second.work =
      Device.ataErrorXmit order dev store first.work := by
  unfold Device.ataErrorXmit
  rw [same.ataReply long]
  simp only [same.xmit]

/-- The comparison that a request asks for, as the handler makes it. -/
def CfgMatches (order : ByteOrder) (env : Env) (dev : Aoedev Aclhdr Iface) (work : Workentry) :
    Prop :=
  let request := work.cfg order
  let stored := dev.cfg.mem env.tail
  let requested := request.stringLength order
  (request.command = aoeCfgMatch → (request.cfgLen.toNat : Int) = dev.cfgLen ∧
    bytesAt stored 0 dev.cfgLen.toNat = bytesAt work.aoepkt sizeofAoeCfghdr dev.cfgLen.toNat) ∧
  (request.command = aoeCfgMatchPartial →
    bytesAt stored 0 requested = bytesAt work.aoepkt sizeofAoeCfghdr requested)

instance (order : ByteOrder) (env : Env) (dev : Aoedev Aclhdr Iface) (work : Workentry) :
    Decidable (CfgMatches order env dev work) :=
  inferInstanceAs (Decidable ((_ → _) ∧ (_ → _)))

theorem cfgMatches_exactly {env : Env} {work : Workentry}
    (exactly : (work.cfg order).command = aoeCfgMatch) :
    CfgMatches order env dev work ↔ ((work.cfg order).cfgLen.toNat : Int) = dev.cfgLen ∧
      bytesAt (dev.cfg.mem env.tail) 0 dev.cfgLen.toNat =
        bytesAt work.aoepkt sizeofAoeCfghdr dev.cfgLen.toNat :=
  (and_iff_left fun partly => absurd (exactly.symm.trans partly) (by decide)).trans
    (forall_prop_of_true exactly)

theorem cfgMatches_partly {env : Env} {work : Workentry}
    (partly : (work.cfg order).command = aoeCfgMatchPartial) :
    CfgMatches order env dev work ↔
      bytesAt (dev.cfg.mem env.tail) 0 ((work.cfg order).stringLength order) =
        bytesAt work.aoepkt sizeofAoeCfghdr ((work.cfg order).stringLength order) :=
  (and_iff_right fun exactly => absurd (exactly.symm.trans partly) (by decide)).trans
    (forall_prop_of_true partly)

/-- A matching command is answered exactly if it matches. -/
theorem qaoedProcessCFG_matches {env : Env} {work : Workentry}
    (permitted : cfgRefused dev (work.cfg order) = false)
    (command : (work.cfg order).command = aoeCfgMatch ∨
      (work.cfg order).command = aoeCfgMatchPartial) :
    qaoedProcessCFG order env dev store work =
      if CfgMatches order env dev work then cfgWithString order env dev store work
      else cfgNoXmit dev store := by
  unfold qaoedProcessCFG
  dsimp only
  rw [permitted, if_neg Bool.false_ne_true]
  rcases command with exactly | partly
  · simp only [cfgMatches_exactly exactly]
    rw [exactly, if_neg (by decide), if_pos (by decide)]
  · simp only [cfgMatches_partly partly]
    rw [partly, if_neg (by decide), if_neg (by decide), if_pos (by decide)]

theorem SameButFresh.cfgReply (same : SameButFresh first second)
    (long : (sizeofAoeCfghdr : Int) ≤ first.work.packetLen) :
    Device.cfgReply order dev second.work = Device.cfgReply order dev first.work := by
  unfold Device.cfgReply
  rw [same.cfg long, same.createpkt (le_trans (by decide) long), same.ifentry]

theorem SameButFresh.cfgWithString (same : SameButFresh first second)
    (long : (sizeofAoeCfghdr : Int) ≤ first.work.packetLen) :
    Device.cfgWithString order second.env dev store second.work =
      Device.cfgWithString order first.env dev store first.work := by
  unfold Device.cfgWithString
  rw [same.cfgReply long, same.tail]
  simp only [same.xmit]

theorem SameButFresh.cfgAcknowledged (same : SameButFresh first second)
    (long : (sizeofAoeCfghdr : Int) ≤ first.work.packetLen) :
    (Device.cfgAcknowledged order dev store second.work).sent =
      (Device.cfgAcknowledged order dev store first.work).sent := by
  unfold Device.cfgAcknowledged
  rw [same.cfgReply long]
  simp only [same.xmit]

theorem SameButFresh.cfgFailed (same : SameButFresh first second)
    (long : (sizeofAoeCfghdr : Int) ≤ first.work.packetLen) (code : UInt8)
    (logged : List LogRecord) :
    Device.cfgFailed order dev store second.work code logged =
      Device.cfgFailed order dev store first.work code logged := by
  unfold Device.cfgFailed
  rw [same.cfgReply long]
  simp only [same.xmit]

end Congr

/-! ## Requests -/

section Request

variable {order : ByteOrder} {dev : Aoedev Aclhdr Iface} {store : List UInt8} {request : Request}

end Request

end Qaoed.Device
