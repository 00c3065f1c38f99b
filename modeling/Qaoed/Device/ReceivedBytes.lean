import Qaoed.Device.Server

/-!
# Where written bytes come from

The dispatcher compares the length of a frame with the fixed header only; the
handler takes as many bytes behind the header as the sector count asks for. A
write stores received bytes just as long as the two agree.
-/

namespace Qaoed.Device

open Qaoed.Library
open Qaoed.Frame

variable {Iface : Type}

/-- The sectors a write announces have arrived with its frame. -/
def SectorsArrived (order : ByteOrder) (work : Workentry) : Prop :=
  (sizeofAoeAtahdr + transferLen (work.ata order) : Int) ≤ work.packetLen

instance (order : ByteOrder) (work : Workentry) : Decidable (SectorsArrived order work) :=
  inferInstanceAs (Decidable (_ ≤ _))

/-- The sectors that a write announces, as far as they arrived. -/
def arrivedSectors (order : ByteOrder) (work : Workentry) : List UInt8 :=
  slice work.received sizeofAoeAtahdr (transferLen (work.ata order))

/-- A write that changes the store puts there the announced sectors of the frame, all
of which arrived, and a frame too short for its sector count is answered with an
error and changes nothing. -/
structure StoresReceived (order : ByteOrder) (env : Env) (dev : Aoedev Aclhdr Iface)
    (store : List UInt8) (work : Workentry) : Prop where
  received : (qaoedProcesswork order env dev store work).store ≠ store →
    SectorsArrived order work ∧
      (qaoedProcesswork order env dev store work).store =
        writeAt 0 store (qaoedLBA (work.ata order) * 512) (arrivedSectors order work)
  short : ¬ SectorsArrived order work →
    AnsweredWithError (qaoedProcesswork order env dev store work).sent ∧
      (qaoedProcesswork order env dev store work).store = store

/-- The system moves all of the sectors, or the store already holds the part that
it moves or the part that it leaves out. -/
def WrittenInFull (order : ByteOrder) (env : Env) (store : List UInt8) (work : Workentry) :
    Prop :=
  let pos := qaoedLBA (work.ata order) * 512
  let len := transferLen (work.ata order)
  let moved := env.moved len
  moved = len ∨ slice store pos moved = (arrivedSectors order work).take moved ∨
    slice store (pos + moved) (len - moved) = (arrivedSectors order work).drop moved

section Write

variable {order : ByteOrder} {env : Env} {dev : Aoedev Aclhdr Iface} {store : List UInt8}
  {work : Workentry}

theorem arrivedSectors_eq (arrived : SectorsArrived order work) :
    arrivedSectors order work =
      bytesAt work.aoepkt sizeofAoeAtahdr (transferLen (work.ata order)) := by
  unfold SectorsArrived at arrived
  exact slice_bytesAt _ (by omega)

theorem storesReceived_of_blocked (cmd : (work.hdr order).cmd = aoeCmdAta)
    (write : isAtaWrite (work.ata order).cmdstat = true)
    (checked : sizeofAoeAtahdr ≤ sizeT work.packetLen) (blocked : WriteBlocked order env dev work) :
    StoresReceived order env dev store work := by
  obtain ⟨same, error⟩ := qaoedProcesswork_write_blocked store cmd write checked blocked
  exact ⟨fun changed => absurd same changed, fun _ => ⟨error, same⟩⟩

/-- A write request that passes the dispatcher stores received bytes only, and
fails when they are too few, exactly if the sectors it announces arrived and are
written in full or nothing of it reaches the store. -/
theorem storesReceived_iff (order : ByteOrder) (env : Env) (dev : Aoedev Aclhdr Iface)
    (store : List UInt8) (work : Workentry) (cmd : (work.hdr order).cmd = aoeCmdAta)
    (write : isAtaWrite (work.ata order).cmdstat = true)
    (checked : sizeofAoeAtahdr ≤ sizeT work.packetLen) :
    StoresReceived order env dev store work ↔
      (SectorsArrived order work ∧ WrittenInFull order env store work) ∨
        WriteBlocked order env dev work := by
  by_cases blocked : WriteBlocked order env dev work
  · exact ⟨fun _ => Or.inr blocked, fun _ => storesReceived_of_blocked cmd write checked blocked⟩
  · have done := qaoedProcesswork_write_done store cmd write checked blocked
    have moves := env.moved_le (transferLen (work.ata order))
    have some : env.moved (transferLen (work.ata order)) ≠ 0 :=
      fun none => blocked (Or.inr (Or.inr none))
    by_cases arrived : SectorsArrived order work
    · have sectors := arrivedSectors_eq arrived
      have length : (arrivedSectors order work).length = transferLen (work.ata order) := by
        rw [sectors, bytesAt_length]
      have full := writeAt_take_iff 0 store (qaoedLBA (work.ata order) * 512)
        (Nat.pos_of_ne_zero some) (Nat.le_trans moves (Nat.le_of_eq length.symm))
      rw [length] at full
      rw [← bytesAt_take _ _ _ moves, ← sectors] at done
      constructor
      · intro stores
        have received := stores.received
        rw [done] at received
        exact Or.inl ⟨arrived, full.mp fun changed => (received changed).2⟩
      · intro condition
        have written := (condition.resolve_right blocked).2
        refine ⟨?_, fun missing => absurd arrived missing⟩
        rw [done]
        exact fun changed => ⟨arrived, full.mpr written changed⟩
    · constructor
      · intro stores
        have error := (stores.short arrived).1
        rw [done] at error
        exact absurd error (not_answeredWithError order dev work [])
      · intro condition
        exact absurd (condition.resolve_right blocked).1 arrived

end Write

/-- A frame of 36 bytes that announces one sector. -/
def headerOnly : Workentry where
  aoepkt := fun index => if index = 26 then 1 else if index = 27 then winWrite else 0
  packetLen := 36
  ifentry := ⟨[], none, 1500, 1518, none⟩

theorem storesReceived_iff_wholeFrame :
    StoresReceived .little ⟨true, some 512, fun _ => 0, fun _ => 0⟩ oneSector.dev oneSector.store
      { headerOnly with packetLen := 548 } :=
  (storesReceived_iff .little _ oneSector.dev oneSector.store { headerOnly with packetLen := 548 }
    rfl rfl (by decide)).mpr (Or.inl ⟨by decide, Or.inl (by decide)⟩)

/-- The dispatcher lets the frame pass, and the write stores a sector nobody sent. -/
theorem headerOnly_storesUnreceived :
    (headerOnly.hdr .little).cmd = aoeCmdAta ∧
      isAtaWrite (headerOnly.ata .little).cmdstat = true ∧
      sizeofAoeAtahdr ≤ sizeT headerOnly.packetLen ∧
      ¬ StoresReceived .little ⟨true, some 512, fun _ => 0, fun _ => 0⟩ oneSector.dev
        oneSector.store headerOnly := by
  refine ⟨rfl, rfl, by decide, ?_⟩
  intro stores
  have missing : ¬ SectorsArrived .little headerOnly := by decide
  have passes : ¬ WriteBlocked .little ⟨true, some 512, fun _ => 0, fun _ => 0⟩ oneSector.dev
      headerOnly := by
    decide
  have error := (stores.short missing).1
  rw [qaoedProcesswork_write_done _ rfl rfl (by decide) passes] at error
  exact not_answeredWithError _ _ _ _ error

end Qaoed.Device
