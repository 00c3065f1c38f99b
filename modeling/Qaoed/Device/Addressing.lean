import Qaoed.Device.Capacity
import Qaoed.Device.SectorStore

/-!
# The sectors a client can address

A client learns the number of sectors from the identify reply, and writes the number of a
sector into the six bytes of the `lba` field. Each sector below the number that is
announced has an address of its own, and its offset in the file is one.
-/

namespace Qaoed.Device

open Qaoed.Library
open Qaoed.Library.ByteOrder
open Qaoed.Frame

variable {Acl Iface : Type}

/-! ## Both sides of an address -/

/-- The two capacities in the identify data. -/
def lbaCapacity (id : List UInt8) : Nat := leValue (slice id 120 4)
def lbaCapacity2 (id : List UInt8) : Nat := leValue (slice id 200 8)

/-- The six bytes that hold the number of a sector. -/
def lbaBytes (sector : Nat) : SixBytes :=
  ⟨byteOf sector 0, byteOf sector 1, byteOf sector 2, byteOf sector 3, byteOf sector 4,
    byteOf sector 5⟩

/-- The field holds the number in its lowest 28 bits, and anything above. -/
structure HoldsLow (lba : SixBytes) (sector : Nat) : Prop where
  b0 : lba.b0 = byteOf sector 0
  b1 : lba.b1 = byteOf sector 1
  b2 : lba.b2 = byteOf sector 2
  b3 : lba.b3 &&& 0x0f = byteOf sector 3

/-- The largest value of a signed offset of 64 bits. -/
def offMax : Nat := 2 ^ 63 - 1

/-- What a client may rely on when it reads the capacities of a device. -/
structure Addressable (id : List UInt8) (size : Nat) : Prop where
  capacity : lbaCapacity id = min size 0x0fffffff
  capacity2 : lbaCapacity2 id = size
  short : ∀ request : AoeAtahdr, request.flags &&& aoeAtaflagLba48 = 0 →
    ∀ sector < lbaCapacity id, HoldsLow request.lba sector → qaoedLBA request = sector
  long : ∀ request : AoeAtahdr, request.flags &&& aoeAtaflagLba48 ≠ 0 →
    ∀ sector < min (lbaCapacity2 id) (2 ^ 48), request.lba = lbaBytes sector →
      qaoedLBA request = sector
  offset : ∀ sector, sector < lbaCapacity id ∨ sector < min (lbaCapacity2 id) (2 ^ 48) →
    sector * 512 + 255 * 512 ≤ offMax
  transfer : ∀ request : AoeAtahdr, qaoedLBA request * 512 + transferLen request ≤ offMax

/-! ## The capacities -/

theorem leValue_leBytes (count value : Nat) (small : value < 256 ^ count) :
    leValue (leBytes count value) = value := by
  have whole : ((value : Int) % 2 ^ (8 * count)).toNat = value := by
    have range : (value : Int) < 2 ^ (8 * count) := by
      rw [pow_mul]
      exact_mod_cast small
    rw [Int.emod_eq_of_lt (Int.natCast_nonneg value) range, Int.toNat_natCast]
  rw [leBytes, whole, leValue_bytes, Nat.mod_eq_of_lt small]

theorem driveid_lbaCapacity (order : ByteOrder) {dev : Aoedev Aclhdr Iface} {size : Nat}
    (same : dev.size = size) : lbaCapacity (driveid order dev) = min size 0x0fffffff := by
  have field : HoldsField (driveid order dev)
      (120, leBytes 4 (if dev.size > maxatalba then maxatalba else dev.size)) :=
    driveid_holds order dev _ (by simp [driveidFields])
  rw [HoldsField, leBytes_length] at field
  have announced : (if dev.size > maxatalba then maxatalba else dev.size) =
      ((min size 0x0fffffff : Nat) : Int) := by
    rw [same, maxatalba]
    split_ifs <;> omega
  rw [lbaCapacity, field, announced]
  exact leValue_leBytes 4 _ (by omega)

theorem driveid_lbaCapacity2 (order : ByteOrder) {dev : Aoedev Aclhdr Iface} {size : Nat}
    (same : dev.size = size) (small : size ≤ offMax) :
    lbaCapacity2 (driveid order dev) = size := by
  rw [offMax] at small
  rw [lbaCapacity2, driveid_capacity, same]
  exact leValue_leBytes 8 _ (by omega)

/-! ## The addresses -/

section Request

variable {request : AoeAtahdr} {sector : Nat}

theorem lbaValue_lbaBytes (small : sector < 2 ^ 48) : lbaValue (lbaBytes sector) = sector := by
  simp only [lbaValue, lbaBytes, byteOf_toNat]
  omega

/-- Without the flag the bytes above the lowest 28 bits do not count. -/
theorem qaoedLBA_short (short : request.flags &&& aoeAtaflagLba48 = 0) (small : sector < 2 ^ 28)
    (holds : HoldsLow request.lba sector) : qaoedLBA request = sector := by
  have low : request.lba.b3.toNat % 16 = sector / 256 ^ 3 % 256 := by
    have byte := congrArg UInt8.toNat holds.b3
    rw [UInt8.toNat_and, byteOf_toNat] at byte
    rw [← byte]
    exact (Nat.and_two_pow_sub_one_eq_mod _ 4).symm
  have b0 := congrArg UInt8.toNat holds.b0
  have b1 := congrArg UInt8.toNat holds.b1
  have b2 := congrArg UInt8.toNat holds.b2
  rw [byteOf_toNat] at b0 b1 b2
  rw [qaoedLBA_eq, firstSector, if_neg (not_not.mpr short), lbaValue]
  omega

theorem qaoedLBA_long (long : request.flags &&& aoeAtaflagLba48 ≠ 0) (small : sector < 2 ^ 48)
    (holds : request.lba = lbaBytes sector) : qaoedLBA request = sector := by
  rw [qaoedLBA_eq, firstSector, if_pos long, holds, lbaValue_lbaBytes small]

theorem qaoedLBA_lt (request : AoeAtahdr) : qaoedLBA request < 2 ^ 48 := by
  have bound := lbaValue_lt request.lba
  rw [qaoedLBA_eq, firstSector]
  split
  · exact bound
  · omega

end Request

/-- Whatever the size of the device is, the data of its identify reply announces the sectors
that can be addressed, each below the limit of the offsets. -/
theorem capacity_addressable (order : ByteOrder) (dev : Aoedev Aclhdr Iface) (work : Workentry)
    (reply : AoeAtahdr) (size : Nat) (same : dev.size = size) (small : size ≤ offMax) :
    ∃ hdr id, qaoedIdentify order dev work reply = .ata hdr id ∧ Addressable id size := by
  refine ⟨_, _, rfl, ?_⟩
  have whole : (driveid order dev).take (sizeofAoeAtahdr + 512 - sizeofAoeAtahdr) =
      driveid order dev := by
    rw [Nat.add_sub_cancel_left, List.take_of_length_le (Nat.le_of_eq (driveid_length order dev))]
  rw [whole]
  have capacity := driveid_lbaCapacity order same
  have capacity2 := driveid_lbaCapacity2 order same small
  exact {
    capacity := capacity
    capacity2 := capacity2
    short := fun request short sector below holds => qaoedLBA_short short (by omega) holds
    long := fun request long sector below holds => qaoedLBA_long long (by omega) holds
    offset := by
      intro sector below
      rw [offMax]
      omega
    transfer := by
      intro request
      have address := qaoedLBA_lt request
      have sectors := request.nsect.toNat_lt
      rw [transferLen, offMax]
      omega }

/-- A device of three sectors. -/
theorem capacity_addressable_threeSectors :
    ∃ hdr id, qaoedIdentify .little { oneSector.dev with size := 3 } (writeOfSector 0).work
        ((writeOfSector 0).work.ata .little) = .ata hdr id ∧ Addressable id 3 :=
  capacity_addressable .little { oneSector.dev with size := 3 } (writeOfSector 0).work
    ((writeOfSector 0).work.ata .little) 3 rfl (by decide)

end Qaoed.Device
