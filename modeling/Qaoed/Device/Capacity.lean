import Qaoed.Device.Server
import Qaoed.Library.Records

/-!
# The advertised capacity

A device learns its size when it is started and advertises it in the identify
reply. The transfer functions never look at the size: a read past the end fails
only when the file has nothing there, and a write past the end extends the file.
-/

namespace Qaoed.Device

open Qaoed.Library
open Qaoed.Library.ByteOrder
open Qaoed.Frame

variable {Acl Iface : Type}

/-! ## Starting a device -/

/-- What `stat` tells: a block or character device, or anything else with its size. -/
inductive FileStat where
  | blk
  | chr
  | other (stSize : Nat)
  deriving DecidableEq, Repr

/-- The answers of the system while a device is started. -/
structure StartEnv where
  /-- Whether `open` returns a descriptor. -/
  openOk : Bool
  /-- Whether `fdopen` returns a stream. -/
  fdopenOk : Bool
  stat : Option FileStat
  /-- What `arch_getsize` leaves in `mediasize`. -/
  mediasize : Int
  /-- Whether `qaoed_startworker` succeeds. -/
  workerStarts : Bool

inductive StartRecord where
  | failedOpen (devicename : CString)
  | failedStat (devicename : CString)
  deriving DecidableEq, Repr

structure Start (Acl Iface : Type) where
  ret : Int
  dev : Aoedev Acl Iface
  logged : List StartRecord
  closed : Bool

/-- `qaoed_startdevice` for a device that is not NULL; `opened` tells whether
its file is open already. -/
def qaoedStartdevice (env : StartEnv) (opened : Bool) (device : Aoedev Acl Iface) :
    Start Acl Iface :=
  match device.devicename with
  | none => ⟨-1, device, [], false⟩
  | some devicename =>
      if !opened && !(env.openOk && env.fdopenOk) then
        ⟨-1, device, [.failedOpen devicename], false⟩
      else
        match env.stat with
        | none => ⟨-1, device, [.failedStat devicename], true⟩
        | some stat =>
            let size : Int :=
              match stat with
              | .blk => env.mediasize
              | .chr => env.mediasize
              | .other stSize => stSize / 512
            let device := { device with size := size }
            if env.workerStarts then ⟨0, device, [], false⟩ else ⟨-1, device, [], true⟩

/-- A device started on a regular file has its size in whole sectors. -/
theorem qaoedStartdevice_size {env : StartEnv} {opened : Bool} {device : Aoedev Acl Iface}
    {stSize : Nat} (regular : env.stat = some (.other stSize))
    (started : (qaoedStartdevice env opened device).ret = 0) :
    (qaoedStartdevice env opened device).dev.size = stSize / 512 := by
  unfold qaoedStartdevice at started ⊢
  cases name : device.devicename with
  | none =>
      rw [name] at started
      cases started
  | some devicename =>
      rw [name, regular] at started
      dsimp only at started ⊢
      split at started
      · cases started
      · next ready =>
          rw [regular, if_neg ready]
          split at started
          · next starts =>
              dsimp only
              rw [if_pos starts]
          · cases started

/-! ## The identify reply -/

@[simp]
theorem leBytes_length (count : Nat) (value : Int) : (leBytes count value).length = count := by
  rw [leBytes, List.length_map, List.length_range]

theorem driveidFields_inside (order : ByteOrder) (dev : Aoedev Aclhdr Iface) :
    ∀ field ∈ driveidFields order dev, field.1 + field.2.length ≤ 512 := by
  intro field member
  simp only [driveidFields, List.mem_cons, List.not_mem_nil, or_false] at member
  rcases member with rfl | rfl | rfl | rfl | rfl | rfl | rfl | rfl | rfl | rfl
  all_goals
    simp only [List.length_append, List.length_replicate, List.length_take, List.length_cons,
      List.length_nil, leBytes_length]
    omega

theorem driveidFields_apart (order : ByteOrder) (dev : Aoedev Aclhdr Iface) :
    (driveidFields order dev).Pairwise Apart := by
  simp only [driveidFields, Apart, List.pairwise_cons, List.forall_mem_cons, List.not_mem_nil,
    false_imp_iff, implies_true, and_true, List.Pairwise.nil, List.length_append,
    List.length_replicate, List.length_take, List.length_cons, List.length_nil, leBytes_length]
  omega

/-- The identify data has each field where it belongs. -/
theorem driveid_holds (order : ByteOrder) (dev : Aoedev Aclhdr Iface) :
    ∀ field ∈ driveidFields order dev, HoldsField (driveid order dev) field := by
  apply writeFields_holds 0
  · intro field member
    rw [List.length_replicate]
    exact driveidFields_inside order dev field member
  · exact driveidFields_apart order dev

theorem driveid_length (order : ByteOrder) (dev : Aoedev Aclhdr Iface) :
    (driveid order dev).length = 512 := by
  have inside : ∀ field ∈ driveidFields order dev,
      field.1 + field.2.length ≤ (List.replicate 512 (0 : UInt8)).length := by
    intro field member
    rw [List.length_replicate]
    exact driveidFields_inside order dev field member
  rw [driveid, ← writeFields, writeFields_length 0 _ inside, List.length_replicate]

/-- The last field of the identify data is the size of the device. -/
theorem driveid_capacity (order : ByteOrder) (dev : Aoedev Aclhdr Iface) :
    slice (driveid order dev) 200 8 = leBytes 8 dev.size := by
  have field : HoldsField (driveid order dev) (200, leBytes 8 dev.size) :=
    driveid_holds order dev _ (by simp [driveidFields])
  rw [HoldsField, leBytes_length] at field
  exact field

/-! ## Requests outside the capacity -/

/-- An ATA read or write request that the dispatcher lets pass. -/
def TransferRequest (order : ByteOrder) (work : Workentry) : Prop :=
  (work.hdr order).cmd = aoeCmdAta ∧ sizeofAoeAtahdr ≤ sizeT work.packetLen ∧
    (isAtaRead (work.ata order).cmdstat = true ∨ isAtaWrite (work.ata order).cmdstat = true)

/-- The sectors of a request lie below the capacity. A request for none always does. -/
def InCapacity (size : Int) (request : AoeAtahdr) : Prop :=
  request.nsect = 0 ∨ (qaoedLBA request + request.nsect.toNat : Int) ≤ size

/-- A transfer request outside the capacity is answered with an error and changes
nothing, and no request makes the file longer. -/
structure CapacityRespected (order : ByteOrder) (server : Server Iface) (request : Request) :
    Prop where
  rejected : TransferRequest order request.work →
    ¬ InCapacity server.dev.size (request.work.ata order) →
    AnsweredWithError (handle (qaoedProcesswork order) server request).sent ∧
      (handle (qaoedProcesswork order) server request).store = server.store
  bounded : (handle (qaoedProcesswork order) server request).store.length ≤ server.store.length

/-- A transfer request lies inside the capacity or comes to nothing anyway. -/
def WithinCapacity (order : ByteOrder) (server : Server Iface) (request : Request) : Prop :=
  TransferRequest order request.work →
    InCapacity server.dev.size (request.work.ata order) ∨
    (isAtaRead (request.work.ata order).cmdstat = true ∧
      ReadBlocked order request.env server.dev server.store request.work) ∨
    (isAtaWrite (request.work.ata order).cmdstat = true ∧
      WriteBlocked order request.env server.dev request.work)

section Step

variable {order : ByteOrder} {server : Server Iface} {request : Request}

/-- A write inside the capacity of a file that has it keeps the length of the file. -/
theorem length_of_inCapacity (holds : 512 * server.dev.size ≤ server.store.length)
    (transfer : TransferRequest order request.work)
    (inside : InCapacity server.dev.size (request.work.ata order)) :
    (handle (qaoedProcesswork order) server request).store.length = server.store.length := by
  obtain ⟨cmd, checked, read | write⟩ := transfer
  · rw [handle, qaoedProcesswork_read_store cmd read checked]
  · rw [handle]
    by_cases blocked : WriteBlocked order request.env server.dev request.work
    · rw [(qaoedProcesswork_write_blocked server.store cmd write checked blocked).1]
    · rw [qaoedProcesswork_write_done _ cmd write checked blocked]
      have bound := request.env.moved_le (transferLen (request.work.ata order))
      have some : request.env.moved (transferLen (request.work.ata order)) ≠ 0 :=
        fun none => blocked (Or.inr (Or.inr none))
      apply writeAt_length_inside
      rw [bytesAt_length]
      unfold transferLen at bound some ⊢
      rcases inside with none | inside
      · rw [none] at bound some
        simp only [UInt8.toNat_zero, Nat.zero_mul, Nat.le_zero] at bound
        exact absurd bound some
      · omega

/-- Only transfer requests reach the store. -/
theorem store_of_not_transfer (other : ¬ TransferRequest order request.work) :
    (handle (qaoedProcesswork order) server request).store = server.store := by
  rw [handle]
  rcases qaoedProcesswork_cases order request.env server.dev server.store request.work with
    ⟨cmd, checked, exit⟩ | ⟨_, _, exit⟩ | ⟨_, exit⟩
  all_goals rw [exit]
  · by_contra changed
    exact other ⟨cmd, checked, Or.inr (qaoedProcessATA_store changed).1⟩
  · rw [qaoedProcessCFG_store]

/-- No request makes the file shorter. -/
theorem length_le_handle :
    server.store.length ≤ (handle (qaoedProcesswork order) server request).store.length := by
  by_cases transfer : TransferRequest order request.work
  · obtain ⟨cmd, checked, read | write⟩ := transfer
    · rw [handle, qaoedProcesswork_read_store cmd read checked]
    · rw [handle]
      by_cases blocked : WriteBlocked order request.env server.dev request.work
      · rw [(qaoedProcesswork_write_blocked server.store cmd write checked blocked).1]
      · rw [qaoedProcesswork_write_done _ cmd write checked blocked]
        exact length_le_writeAt 0 _ _ _
  · rw [store_of_not_transfer transfer]

/-- One request respects the capacity exactly if it lies within it. -/
theorem capacityRespected_iff (holds : 512 * server.dev.size ≤ server.store.length) :
    CapacityRespected order server request ↔ WithinCapacity order server request := by
  constructor
  · intro respected transfer
    by_contra beyond
    simp only [not_or, not_and] at beyond
    obtain ⟨outside, reads, writes⟩ := beyond
    have error := (respected.rejected transfer outside).1
    obtain ⟨cmd, checked, read | write⟩ := transfer
    · exact reads read ((qaoedProcesswork_read_error_iff cmd read checked).mp error)
    · rw [handle, qaoedProcesswork_write_done _ cmd write checked (writes write)] at error
      exact not_answeredWithError order server.dev request.work [] error
  · intro within
    constructor
    · intro transfer outside
      have blocked := (within transfer).resolve_left outside
      obtain ⟨cmd, checked, _⟩ := transfer
      rcases blocked with ⟨read, blocked⟩ | ⟨write, blocked⟩
      · exact ⟨(qaoedProcesswork_read_error_iff cmd read checked).mpr blocked,
          qaoedProcesswork_read_store cmd read checked⟩
      · exact (qaoedProcesswork_write_blocked server.store cmd write checked blocked).symm
    · by_cases transfer : TransferRequest order request.work
      · rcases within transfer with inside | ⟨read, _⟩ | ⟨write, blocked⟩
        · exact Nat.le_of_eq (length_of_inCapacity holds transfer inside)
        · rw [handle, qaoedProcesswork_read_store transfer.1 read transfer.2.1]
        · rw [handle, (qaoedProcesswork_write_blocked server.store transfer.1 write
            transfer.2.1 blocked).1]
      · rw [store_of_not_transfer transfer]

end Step

/-! ## Runs -/

/-- A started device on a regular file advertises the sectors the file holds, and
a run of requests respects that capacity and keeps the length of the file exactly
if every request lies within the capacity or comes to nothing. -/
theorem capacity_respected_iff (order : ByteOrder) (env : StartEnv) (opened : Bool)
    (device : Aoedev Aclhdr Iface) (store : List UInt8) (requests : List Request)
    (regular : env.stat = some (.other store.length))
    (started : (qaoedStartdevice env opened device).ret = 0) :
    slice (driveid order (qaoedStartdevice env opened device).dev) 200 8 =
        leBytes 8 (store.length / 512) ∧
    ((∀ visit ∈ (served (qaoedProcesswork order)).visits
          ⟨(qaoedStartdevice env opened device).dev, store⟩ requests,
        CapacityRespected order visit.state visit.input ∧
          (handle (qaoedProcesswork order) visit.state visit.input).store.length ≤ store.length) ↔
      ∀ visit ∈ (served (qaoedProcesswork order)).visits
          ⟨(qaoedStartdevice env opened device).dev, store⟩ requests,
        WithinCapacity order visit.state visit.input) := by
  have size := qaoedStartdevice_size regular started
  have advertised : slice (driveid order (qaoedStartdevice env opened device).dev) 200 8 =
      leBytes 8 (store.length / 512) := by
    rw [driveid_capacity, size]
  have holds : ∀ visit ∈ (served (qaoedProcesswork order)).visits
      ⟨(qaoedStartdevice env opened device).dev, store⟩ requests,
      512 * visit.state.dev.size ≤ visit.state.store.length := by
    intro visit member
    refine (served (qaoedProcesswork order)).visit_invariant
      (fun server => 512 * server.dev.size ≤ server.store.length) ?_ ?_ member
    · dsimp only
      rw [size]
      omega
    · intro server request _ before
      have setup := qaoedProcesswork_sameSetup order request.env server.dev server.store request.work
      have grown : server.store.length ≤
          (handle (qaoedProcesswork order) server request).store.length := length_le_handle
      have same : (handle (qaoedProcesswork order) server request).dev.size = server.dev.size :=
        setup.size
      show 512 * (handle (qaoedProcesswork order) server request).dev.size ≤
        (handle (qaoedProcesswork order) server request).store.length
      omega
  refine ⟨advertised, ?_, ?_⟩
  · intro respected visit member
    exact (capacityRespected_iff (holds visit member)).mp (respected visit member).1
  · intro within
    have respected : ∀ visit ∈ (served (qaoedProcesswork order)).visits
        ⟨(qaoedStartdevice env opened device).dev, store⟩ requests,
        CapacityRespected order visit.state visit.input := fun visit member =>
      (capacityRespected_iff (holds visit member)).mpr (within visit member)
    have bounded := (served (qaoedProcesswork order)).visit_measure
      (fun server => server.store.length) (fun visit member => (respected visit member).bounded)
    exact fun visit member => ⟨respected visit member, bounded visit member⟩

/-! ## A write behind the end -/

/-- The system starts a device whose file holds one sector. -/
def oneSectorStart : StartEnv := ⟨true, true, some (.other 512), 0, true⟩

def namedDevice : Aoedev Aclhdr Unit := { oneSector.dev with devicename := some [100], size := 0 }

/-- A write of one sector with the given number, carried out in full. -/
def writeOfSector (sector : UInt8) : Request where
  work :=
    { aoepkt := fun index =>
        if index = 26 then 1 else if index = 27 then winWrite else if index = 28 then sector else 0
      packetLen := 548
      ifentry := ⟨[], none, 1500, 1518, none⟩ }
  env := ⟨true, some 512, fun _ => 0, fun _ => 0⟩

theorem capacity_respected_iff_inside :
    CapacityRespected .little
      ⟨(qaoedStartdevice oneSectorStart false namedDevice).dev, List.replicate 512 0⟩
      (writeOfSector 0) := by
  have condition := (capacity_respected_iff .little oneSectorStart false namedDevice
    (List.replicate 512 0) [writeOfSector 0] (by rw [List.length_replicate]; rfl) rfl).2
  refine (condition.mpr ?_ _ List.mem_cons_self).1
  intro visit member
  cases List.mem_singleton.mp member
  intro _
  exact Or.inl (Or.inr (by decide))

/-- The sector behind the advertised one is written and acknowledged, and the file grows. -/
theorem writeOfSector_extends :
    (qaoedStartdevice oneSectorStart false namedDevice).ret = 0 ∧
      oneSectorStart.stat = some (.other (List.replicate 512 (0 : UInt8)).length) ∧
      ¬ CapacityRespected .little
        ⟨(qaoedStartdevice oneSectorStart false namedDevice).dev, List.replicate 512 0⟩
        (writeOfSector 1) := by
  refine ⟨rfl, by rw [List.length_replicate]; rfl, ?_⟩
  intro respected
  have transfer : TransferRequest .little (writeOfSector 1).work :=
    ⟨rfl, by decide, Or.inr rfl⟩
  have outside : ¬ InCapacity (qaoedStartdevice oneSectorStart false namedDevice).dev.size
      ((writeOfSector 1).work.ata .little) := by
    rintro (none | inside)
    · exact absurd none (by decide)
    · exact absurd inside (by decide)
  have passes : ¬ WriteBlocked .little (writeOfSector 1).env
      (qaoedStartdevice oneSectorStart false namedDevice).dev (writeOfSector 1).work := by
    decide
  have error := (respected.rejected transfer outside).1
  rw [handle, qaoedProcesswork_write_done _ rfl rfl (by decide) passes] at error
  exact not_answeredWithError _ _ _ _ error

end Qaoed.Device
