import Mathlib.Data.Nat.Bitwise
import Qaoed.Config.Validate
import Qaoed.Device.Server

/-!
# The dispatcher

`processpacket` checks a frame that arrived, and queues it to the devices with
the shelf and slot it names, or to all devices for a broadcast.
-/

namespace Qaoed.Network

open Qaoed.Library
open Qaoed.Library.ByteOrder
open Qaoed.Frame
open Qaoed.Device
open Qaoed.Config

variable {Iface : Type}

/-! ## The checks -/

/-- What the checks at the head of `processpacket` find. -/
inductive Arrival where
  | short
  | wrongType
  | response
  | request (shelf : UInt16) (slot : UInt8)
  deriving DecidableEq, Repr

/-- The length is compared as `size_t`, and the response bit is looked for where
`htons` puts it in two bytes. -/
def arrival (order : ByteOrder) (aoepkt : Mem) (len : Int) : Arrival :=
  let hdr := AoeHdr.ofMem order aoepkt
  if sizeT len < sizeofAoeHdr then .short
  else if ntohs order hdr.hProto ≠ ethPAoe then .wrongType
  else if hdr.verFlags.toUInt16 &&& htons order aoeFlagRsp.toUInt16 > 0 then .response
  else .request (ntohs order hdr.shelf) hdr.slot

/-- The shelf and slot of a broadcast. -/
def isBroadcast (shelf : UInt16) (slot : UInt8) : Bool := shelf == 0xffff && slot == 0x00ff

/-- The first loop over the device list. -/
def addressed (devices : List (Aoedev Aclhdr Iface)) (shelf : UInt16) (slot : UInt8) :
    List (Aoedev Aclhdr Iface) :=
  devices.filter fun device => device.shelf == shelf && device.slot == slot

/-- The devices in whose queues the two loops insert the frame, in this order. -/
def recipients (devices : List (Aoedev Aclhdr Iface)) (shelf : UInt16) (slot : UInt8) :
    List (Aoedev Aclhdr Iface) :=
  addressed devices shelf slot ++ if isBroadcast shelf slot then devices else []

inductive PacketRecord where
  | shortPacket (ifname : CString) (len : Int)
  | wrongType (ifname : CString) (proto : UInt16)
  deriving DecidableEq, Repr

/-- What `processpacket` does with a frame: the devices it is queued for and the
records it logs. -/
structure Dispatched (Iface : Type) where
  queued : List (Aoedev Aclhdr Iface)
  logged : List PacketRecord

def processpacket (order : ByteOrder) (devices : List (Aoedev Aclhdr Iface)) (ifentry : Ifst)
    (aoepkt : Mem) (len : Int) : Dispatched Iface :=
  match arrival order aoepkt len with
  | .short => ⟨[], [.shortPacket ifentry.ifname len]⟩
  | .wrongType => ⟨[], [.wrongType ifentry.ifname (AoeHdr.ofMem order aoepkt).hProto]⟩
  | .response => ⟨[], []⟩
  | .request shelf slot => ⟨recipients devices shelf slot, []⟩

/-- The work entry for a frame, as each of its devices gets it. -/
def workOf (ifentry : Ifst) (aoepkt : Mem) (len : Int) : Workentry := ⟨aoepkt, len, ifentry⟩

/-! ## The response bit -/

theorem rsp_toNat (verFlags : UInt8) (mask : UInt16) :
    verFlags.toUInt16 &&& mask > 0 ↔ 0 < verFlags.toNat &&& mask.toNat := by
  rw [gt_iff_lt, UInt16.lt_iff_toNat_lt, UInt16.toNat_and, UInt8.toNat_toUInt16,
    UInt16.toNat_zero]

/-- On a little-endian host the bit is looked for in the byte that is always zero. -/
theorem rsp_little (verFlags : UInt8) :
    ¬ verFlags.toUInt16 &&& htons .little aoeFlagRsp.toUInt16 > 0 := by
  have mask : (htons .little aoeFlagRsp.toUInt16).toNat = 2 ^ 11 := by decide
  have small : verFlags.toNat < 2 ^ 11 := Nat.lt_trans verFlags.toNat_lt (by decide)
  rw [rsp_toNat, mask, Nat.and_two_pow, Nat.testBit_lt_two_pow small]
  simp

/-- On a big-endian host it is looked for in the flags. -/
theorem rsp_big (verFlags : UInt8) :
    verFlags.toUInt16 &&& htons .big aoeFlagRsp.toUInt16 > 0 ↔ HasFlag verFlags aoeFlagRsp := by
  have mask : (htons .big aoeFlagRsp.toUInt16).toNat = 2 ^ 3 := by decide
  have flag : aoeFlagRsp.toNat = 2 ^ 3 := by decide
  rw [rsp_toNat, mask, Nat.and_two_pow, HasFlag, ← UInt8.toNat_inj, UInt8.toNat_and, flag,
    Nat.and_two_pow]
  cases verFlags.toNat.testBit 3 <;> simp

/-! ## What is queued -/

/-- The device has the shelf and slot that the frame names. -/
def Named (order : ByteOrder) (aoepkt : Mem) (device : Aoedev Aclhdr Iface) : Prop :=
  device.shelf = ntohs order (AoeHdr.ofMem order aoepkt).shelf ∧
    device.slot = (AoeHdr.ofMem order aoepkt).slot

theorem mem_addressed {order : ByteOrder} {aoepkt : Mem} {devices : List (Aoedev Aclhdr Iface)}
    {device : Aoedev Aclhdr Iface} :
    device ∈ addressed devices (ntohs order (AoeHdr.ofMem order aoepkt).shelf)
        (AoeHdr.ofMem order aoepkt).slot ↔
      device ∈ devices ∧ Named order aoepkt device := by
  rw [addressed, List.mem_filter, Bool.and_eq_true, beq_iff_eq, beq_iff_eq]
  rfl

section Queued

variable {order : ByteOrder} {devices : List (Aoedev Aclhdr Iface)} {ifentry : Ifst}
  {aoepkt : Mem} {len : Int}

theorem processpacket_request {shelf : UInt16} {slot : UInt8}
    (request : arrival order aoepkt len = .request shelf slot) :
    (processpacket order devices ifentry aoepkt len).queued = recipients devices shelf slot := by
  rw [processpacket, request]

theorem processpacket_dropped
    (dropped : ∀ shelf slot, arrival order aoepkt len ≠ .request shelf slot) :
    (processpacket order devices ifentry aoepkt len).queued = [] := by
  unfold processpacket
  cases found : arrival order aoepkt len with
  | short => rfl
  | wrongType => rfl
  | response => rfl
  | request shelf slot => exact absurd found (dropped shelf slot)

/-- A frame that passes all three checks. -/
theorem arrival_request (fits : sizeofAoeHdr ≤ sizeT len)
    (proto : ntohs order (AoeHdr.ofMem order aoepkt).hProto = ethPAoe)
    (request : ¬ (AoeHdr.ofMem order aoepkt).verFlags.toUInt16 &&&
      htons order aoeFlagRsp.toUInt16 > 0) :
    arrival order aoepkt len = .request (ntohs order (AoeHdr.ofMem order aoepkt).shelf)
      (AoeHdr.ofMem order aoepkt).slot := by
  unfold arrival
  dsimp only
  rw [if_neg (Nat.not_lt.mpr fits), if_neg (not_not.mpr proto), if_neg request]

/-- A frame whose response bit is clear is no response on either kind of host. -/
theorem not_response (verFlags : UInt8) (clear : ¬ HasFlag verFlags aoeFlagRsp) :
    ¬ verFlags.toUInt16 &&& htons order aoeFlagRsp.toUInt16 > 0 := by
  cases order with
  | little => exact rsp_little verFlags
  | big => rwa [rsp_big]

/-- On a big-endian host no response is queued. -/
theorem response_dropped_big {aoepkt : Mem}
    (response : HasFlag (AoeHdr.ofMem .big aoepkt).verFlags aoeFlagRsp) :
    (processpacket .big devices ifentry aoepkt len).queued = [] := by
  apply processpacket_dropped
  intro shelf slot request
  unfold arrival at request
  dsimp only at request
  rw [if_pos ((rsp_big _).mpr response)] at request
  split_ifs at request

end Queued

end Qaoed.Network
