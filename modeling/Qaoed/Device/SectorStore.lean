import Qaoed.Device.Server
import Qaoed.Library.BlockMap

/-!
# The sector store behind the ATA commands

A device is for its clients a map from sector numbers to sectors of 512 bytes.
The bytes of the backing store implement that map: a write request replaces
consecutive sectors, and a read request returns what the most recent writes
have left in them.
-/

namespace Qaoed.Device

open Qaoed.Library
open Qaoed.Frame

variable {Iface : Type}

/-! ## Sector numbers -/

/-- The number in the `lba` field, its lowest byte first. -/
def lbaValue (lba : SixBytes) : Nat :=
  lba.b0.toNat + 2 ^ 8 * lba.b1.toNat + 2 ^ 16 * lba.b2.toNat + 2 ^ 24 * lba.b3.toNat +
    2 ^ 32 * lba.b4.toNat + 2 ^ 40 * lba.b5.toNat

/-- The first sector a request asks for. An address without the `LBA48` flag has 28 bits. -/
def firstSector (request : AoeAtahdr) : Nat :=
  if request.flags &&& aoeAtaflagLba48 ≠ 0 then lbaValue request.lba
  else lbaValue request.lba % 2 ^ 28

theorem or_shiftLeft (bits : Nat) {low : Nat} (small : low < 2 ^ bits) (high : Nat) :
    low ||| high <<< bits = low + 2 ^ bits * high := by
  rw [Nat.or_comm, ← Nat.shiftLeft_add_eq_or_of_lt small, Nat.shiftLeft_eq, Nat.mul_comm,
    Nat.add_comm]

theorem lbaValue_lt (lba : SixBytes) : lbaValue lba < 2 ^ 48 := by
  have b0 := lba.b0.toNat_lt
  have b1 := lba.b1.toNat_lt
  have b2 := lba.b2.toNat_lt
  have b3 := lba.b3.toNat_lt
  have b4 := lba.b4.toNat_lt
  have b5 := lba.b5.toNat_lt
  unfold lbaValue
  omega

/-- The loop over the six bytes adds up the number in the field. -/
theorem qaoedLBA_eq (request : AoeAtahdr) : qaoedLBA request = firstSector request := by
  have b0 := request.lba.b0.toNat_lt
  have b1 := request.lba.b1.toNat_lt
  have b2 := request.lba.b2.toNat_lt
  have b3 := request.lba.b3.toNat_lt
  have b4 := request.lba.b4.toNat_lt
  have sum : request.lba.toBytes.zipIdx.foldl
      (fun ppos byte => ppos ||| byte.1.toNat <<< (byte.2 * 8)) 0 = lbaValue request.lba := by
    simp only [SixBytes.toBytes, List.zipIdx_cons, List.zipIdx_nil, List.foldl_cons,
      List.foldl_nil, Nat.zero_mul, Nat.zero_add, Nat.reduceAdd, Nat.reduceMul, Nat.zero_or,
      Nat.shiftLeft_zero]
    rw [or_shiftLeft 8 (by omega), or_shiftLeft 16 (by omega), or_shiftLeft 24 (by omega),
      or_shiftLeft 32 (by omega), or_shiftLeft 40 (by omega), lbaValue]
  unfold qaoedLBA firstSector
  dsimp only
  rw [sum]
  split
  · rw [Nat.and_two_pow_sub_one_eq_mod _ 48, Nat.mod_eq_of_lt (lbaValue_lt _)]
  · rw [Nat.and_two_pow_sub_one_eq_mod _ 28]

/-! ## Requests as block writes -/

/-- The sectors that arrived with a request. -/
def payload (request : AoeAtahdr) (work : Workentry) : List (List UInt8) :=
  blocksOf 512 (slice work.received sizeofAoeAtahdr (transferLen request)) request.nsect.toNat

/-- What a request asks to write, if it is a write request. -/
def blockWrite? (order : ByteOrder) (request : Request) : Option (BlockWrite (List UInt8)) :=
  let ata := request.work.ata order
  if isAtaWrite ata.cmdstat then some ⟨firstSector ata, payload ata request.work⟩ else none

/-- The writes among a sequence of requests. -/
def blockWrites (order : ByteOrder) (requests : List Request) : List (BlockWrite (List UInt8)) :=
  requests.filterMap (blockWrite? order)

/-- A permitted read or write request inside a store of `size` bytes whose
transfer the system carries out in full. -/
structure SectorRequest (order : ByteOrder) (dev : Aoedev Aclhdr Iface) (size : Nat)
    (request : Request) : Prop where
  transfer : isAtaRead (request.work.ata order).cmdstat = true ∨
    isAtaWrite (request.work.ata order).cmdstat = true
  permitted : AtaPermitted dev (request.work.ata order)
  nonempty : 1 ≤ (request.work.ata order).nsect.toNat
  inside : 512 * (firstSector (request.work.ata order) +
    (request.work.ata order).nsect.toNat) ≤ size
  arrived : isAtaWrite (request.work.ata order).cmdstat = true →
    (sizeofAoeAtahdr + transferLen (request.work.ata order) : Int) ≤ request.work.packetLen
  complete : request.env.Complete (transferLen (request.work.ata order))

section Step

variable {order : ByteOrder} {server : Server Iface} {request : Request}

theorem transferLen_pos (sector : SectorRequest order server.dev server.store.length request) :
    0 < transferLen (request.work.ata order) := by
  have nonempty := sector.nonempty
  unfold transferLen
  omega

/-- The sectors of a write arrived with its frame. -/
theorem slice_received
    (sector : SectorRequest order server.dev server.store.length request)
    (write : isAtaWrite (request.work.ata order).cmdstat = true) :
    slice request.work.received sizeofAoeAtahdr (transferLen (request.work.ata order)) =
      bytesAt request.work.aoepkt sizeofAoeAtahdr (transferLen (request.work.ata order)) := by
  have arrived := sector.arrived write
  exact slice_bytesAt _ (by omega)

/-- A write stores the sectors that arrived and is acknowledged. -/
theorem served_write (sector : SectorRequest order server.dev server.store.length request)
    (write : isAtaWrite (request.work.ata order).cmdstat = true) :
    handle (qaoedProcessATA order) server request =
      ⟨server.dev,
        writeAt 0 server.store (512 * firstSector (request.work.ata order))
          (slice request.work.received sizeofAoeAtahdr (transferLen (request.work.ata order))),
        [.ata (sentHdr order server.dev request.work) []], [], 1⟩ := by
  have permits := (aclRefuses_eq_false_iff _ _).mpr (sector.permitted.2 write)
  obtain ⟨seek, moved⟩ := sector.complete
  have positive := transferLen_pos sector
  rw [handle, qaoedProcessATA_write_done write permits seek (by rwa [moved]), moved,
    slice_received sector write, qaoedLBA_eq, Nat.mul_comm]

/-- The range of a sector request lies inside the store. -/
theorem slice_sectors_length
    (sector : SectorRequest order server.dev server.store.length request) :
    (slice server.store (512 * firstSector (request.work.ata order))
      (transferLen (request.work.ata order))).length = transferLen (request.work.ata order) := by
  have inside := sector.inside
  rw [slice_length]
  unfold transferLen
  omega

/-- A read leaves the store alone and sends the sectors it holds. -/
theorem served_read (sector : SectorRequest order server.dev server.store.length request)
    (read : isAtaRead (request.work.ata order).cmdstat = true) :
    handle (qaoedProcessATA order) server request =
      ⟨server.dev, server.store,
        [.ata (sentHdr order server.dev request.work)
          (slice server.store (512 * firstSector (request.work.ata order))
            (transferLen (request.work.ata order)))], [], 1⟩ := by
  have permits := (aclRefuses_eq_false_iff _ _).mpr (sector.permitted.1 read)
  obtain ⟨seek, moved⟩ := sector.complete
  have positive := transferLen_pos sector
  have got : fetched request.env server.store (request.work.ata order) =
      slice server.store (512 * firstSector (request.work.ata order))
        (transferLen (request.work.ata order)) := by
    rw [fetched, moved, qaoedLBA_eq, Nat.mul_comm]
  have whole := slice_sectors_length sector
  have holds : fetched request.env server.store (request.work.ata order) ≠ [] := by
    rw [got, ← List.length_pos_iff, whole]
    exact positive
  rw [handle, qaoedProcessATA_read_done read permits seek holds, got, whole,
    List.drop_eq_nil_of_le (Nat.le_of_eq (bytesAt_length _ _ _)), List.append_nil]

/-- A step of the device is a step of the sector map. -/
theorem served_refines (sector : SectorRequest order server.dev server.store.length request) :
    (handle (qaoedProcessATA order) server request).dev = server.dev ∧
      (handle (qaoedProcessATA order) server request).store.length = server.store.length ∧
      blockAt 512 (handle (qaoedProcessATA order) server request).store =
        BlockWrite.replay (blockAt 512 server.store) (blockWrite? order request).toList := by
  have inside := sector.inside
  rcases sector.transfer with read | write
  · have none : blockWrite? order request = none := by
      rw [blockWrite?]
      exact if_neg fun write => by rw [isAtaRead_of_write write] at read; cases read
    rw [served_read sector read, none]
    exact ⟨rfl, rfl, rfl⟩
  · have whole : (slice request.work.received sizeofAoeAtahdr
        (transferLen (request.work.ata order))).length =
          512 * (request.work.ata order).nsect.toNat := by
      rw [slice_received sector write, bytesAt_length, transferLen, Nat.mul_comm]
    have fits : 512 * firstSector (request.work.ata order) +
        (slice request.work.received sizeofAoeAtahdr
          (transferLen (request.work.ata order))).length ≤ server.store.length := by
      rw [whole, ← Nat.mul_add]
      exact inside
    have some : blockWrite? order request =
        some ⟨firstSector (request.work.ata order),
          payload (request.work.ata order) request.work⟩ := if_pos write
    rw [served_write sector write, some]
    exact ⟨rfl, writeAt_length_inside 0 _ fits, blockAt_writeAt 0 512 whole fits⟩

end Step

/-! ## Runs -/

theorem blockWrites_snoc (order : ByteOrder) (earlier : List Request) (request : Request) :
    blockWrites order (earlier ++ [request]) =
      blockWrites order earlier ++ (blockWrite? order request).toList := by
  rw [blockWrites, List.filterMap_append, blockWrites]
  cases write : blockWrite? order request with
  | none => rw [List.filterMap_cons_none write, List.filterMap_nil, Option.toList_none]
  | some block => rw [List.filterMap_cons_some write, List.filterMap_nil, Option.toList_some]

/-- A run of sector requests replays its writes in the sector map. -/
theorem run_refines {order : ByteOrder} {dev : Aoedev Aclhdr Iface} {store : List UInt8}
    {requests : List Request}
    (sectors : ∀ request ∈ requests, SectorRequest order dev store.length request) :
    ((served (qaoedProcessATA order)).run ⟨dev, store⟩ requests).dev = dev ∧
      ((served (qaoedProcessATA order)).run ⟨dev, store⟩ requests).store.length = store.length ∧
      blockAt 512 ((served (qaoedProcessATA order)).run ⟨dev, store⟩ requests).store =
        BlockWrite.replay (blockAt 512 store) (blockWrites order requests) := by
  induction requests using List.reverseRecOn with
  | nil => exact ⟨rfl, rfl, rfl⟩
  | append_singleton earlier request ih =>
      obtain ⟨sameDev, sameLength, reached⟩ := ih fun request member =>
        sectors request (List.mem_append_left _ member)
      have sector := sectors request (List.mem_append_right _ (List.mem_singleton_self request))
      rw [← sameDev, ← sameLength] at sector
      obtain ⟨stepDev, stepLength, step⟩ := served_refines sector
      rw [Mealy.run_snoc, blockWrites_snoc, BlockWrite.replay_append, ← reached]
      exact ⟨stepDev.trans sameDev, stepLength.trans sameLength, step⟩

/-- The ATA commands implement a sector store: writes are acknowledged, a read
returns sector by sector what the most recent write before it left there, and a
sector no write covers keeps its content. -/
theorem sectorStore (order : ByteOrder) (dev : Aoedev Aclhdr Iface) (store : List UInt8)
    (requests : List Request)
    (sectors : ∀ request ∈ requests, SectorRequest order dev store.length request) :
    (∀ earlier request later, requests = earlier ++ request :: later →
      (isAtaWrite (request.work.ata order).cmdstat = true →
        ∃ hdr, (served (qaoedProcessATA order)).out
            ((served (qaoedProcessATA order)).run ⟨dev, store⟩ earlier) request = [.ata hdr []] ∧
          HasFlag hdr.cmdstat readyStat ∧ ¬ HasFlag hdr.cmdstat errStat) ∧
      (isAtaRead (request.work.ata order).cmdstat = true →
        ∃ hdr data, (served (qaoedProcessATA order)).out
            ((served (qaoedProcessATA order)).run ⟨dev, store⟩ earlier) request =
              [.ata hdr data] ∧
          (Sent.ata hdr data).length = 36 + (request.work.ata order).nsect.toNat * 512 ∧
          ∀ index < (request.work.ata order).nsect.toNat,
            blockAt 512 data index =
              BlockWrite.latest (blockAt 512 store) (blockWrites order earlier)
                (firstSector (request.work.ata order) + index))) ∧
    (∀ sector, (∀ write ∈ blockWrites order requests, ¬ write.Covers sector) →
      blockAt 512 ((served (qaoedProcessATA order)).run ⟨dev, store⟩ requests).store sector =
        blockAt 512 store sector) := by
  constructor
  · rintro earlier request later rfl
    have before := run_refines fun request member =>
      sectors request (List.mem_append_left _ member)
    obtain ⟨sameDev, sameLength, reached⟩ := before
    have sector := sectors request (List.mem_append_right _ List.mem_cons_self)
    rw [← sameDev, ← sameLength] at sector
    constructor
    · intro write
      refine ⟨_, congrArg Outcome.sent (served_write sector write), ?_, ?_⟩
      · show HasFlag readyStat readyStat
        decide
      · show ¬ HasFlag readyStat errStat
        decide
    · intro read
      refine ⟨_, _, congrArg Outcome.sent (served_read sector read), ?_, ?_⟩
      · rw [Sent.length, slice_sectors_length sector, transferLen]
        rfl
      · intro index small
        rw [transferLen, Nat.mul_comm _ 512, blockAt_slice 512 _ _ small, reached,
          BlockWrite.replay_eq_latest]
  · intro sector uncovered
    rw [(run_refines sectors).2.2, BlockWrite.replay_eq_latest,
      BlockWrite.latest_uncovered _ uncovered]

/-- A request for the first sector, carried out in full. -/
def firstSectorRequest (cmdstat : UInt8) : Request where
  work :=
    { aoepkt := fun index =>
        if index = 26 then 1 else if index = 27 then cmdstat else if index < 36 then 0 else 7
      packetLen := 548
      ifentry := ⟨[], none, 1500, 1518, none⟩ }
  env := ⟨true, some 512, fun _ => 0, fun _ => 0⟩

theorem firstSectorRequest_first (cmdstat : UInt8) :
    firstSector ((firstSectorRequest cmdstat).work.ata .little) = 0 := by
  have flags : ((firstSectorRequest cmdstat).work.ata .little).flags = 0 := rfl
  have lba : ((firstSectorRequest cmdstat).work.ata .little).lba = SixBytes.zero := rfl
  rw [firstSector, flags, lba]
  decide

theorem firstSectorRequest_len (cmdstat : UInt8) :
    transferLen ((firstSectorRequest cmdstat).work.ata .little) = 512 := by
  have nsect : ((firstSectorRequest cmdstat).work.ata .little).nsect = 1 := rfl
  rw [transferLen, nsect]
  decide

theorem firstSectorRequest_sector {cmdstat : UInt8}
    (transfer : isAtaRead cmdstat = true ∨ isAtaWrite cmdstat = true) :
    SectorRequest .little oneSector.dev oneSector.store.length (firstSectorRequest cmdstat) where
  transfer := transfer
  permitted := ⟨fun _ _ attached => (by cases attached), fun _ _ attached => (by cases attached)⟩
  nonempty := Nat.le_refl 1
  inside := by
    have count : ((firstSectorRequest cmdstat).work.ata .little).nsect.toNat = 1 := rfl
    simp only [firstSectorRequest_first, count, oneSector, List.length_replicate, Nat.zero_add,
      Nat.mul_one, Nat.le_refl]
  arrived := fun _ => by
    rw [firstSectorRequest_len]
    exact Int.le_refl 548
  complete := by
    rw [firstSectorRequest_len]
    exact ⟨rfl, rfl⟩

theorem sectorStore_oneSector :
    ∃ hdr data, (served (qaoedProcessATA .little)).out
        ((served (qaoedProcessATA .little)).run oneSector [firstSectorRequest winWrite])
        (firstSectorRequest winRead) = [.ata hdr data] ∧
      (Sent.ata hdr data).length = 36 + 1 * 512 ∧
      ∀ index < 1, blockAt 512 data index =
        BlockWrite.latest (blockAt 512 oneSector.store)
          (blockWrites .little [firstSectorRequest winWrite]) index := by
  have sectors : ∀ request ∈ [firstSectorRequest winWrite, firstSectorRequest winRead],
      SectorRequest .little oneSector.dev oneSector.store.length request := by
    intro request member
    rcases List.mem_pair.mp member with rfl | rfl
    · exact firstSectorRequest_sector (Or.inr rfl)
    · exact firstSectorRequest_sector (Or.inl rfl)
  have replies := (sectorStore .little oneSector.dev oneSector.store _ sectors).1
    [firstSectorRequest winWrite] (firstSectorRequest winRead) [] rfl
  simpa only [firstSectorRequest_first, Nat.zero_add] using! replies.2 rfl

end Qaoed.Device
