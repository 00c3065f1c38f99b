import Qaoed.Device.ReceivedBytes

/-!
# Transfers that are acknowledged

`read` and `write` may move fewer bytes than they were asked for. `qaoed_transfer`
looks only whether the result is positive, so a transfer that came to an end early
is acknowledged like a complete one.
-/

namespace Qaoed.Device

open Qaoed.Library
open Qaoed.Frame

variable {Iface : Type}

/-- What `read` or `write` returns if it is called for a transfer. A `read` ends where
the file ends. -/
def ioResult (env : Env) (store : List UInt8) (request : AoeAtahdr) : Int :=
  match env.cap with
  | none => -1
  | some cap =>
      let count := min cap (transferLen request)
      if isAtaRead request.cmdstat then (slice store (qaoedLBA request * 512) count).length
      else count

/-- The one frame sent reports success. -/
def Acknowledged (sent : List Sent) : Prop :=
  ∃ hdr data, sent = [.ata hdr data] ∧ HasFlag hdr.cmdstat readyStat ∧
    ¬ HasFlag hdr.cmdstat errStat

/-- The transfer was made, and it moved every byte. -/
def Completed (order : ByteOrder) (env : Env) (dev : Aoedev Aclhdr Iface) (store : List UInt8)
    (work : Workentry) : Prop :=
  ataRefused dev (work.ata order) = false ∧ env.seekOk = true ∧
    ioResult env store (work.ata order) = transferLen (work.ata order)

/-- The transfer was made, and it moved some bytes but not all. -/
def ShortCount (order : ByteOrder) (env : Env) (dev : Aoedev Aclhdr Iface) (store : List UInt8)
    (work : Workentry) : Prop :=
  ataRefused dev (work.ata order) = false ∧ env.seekOk = true ∧
    0 < ioResult env store (work.ata order) ∧
    ioResult env store (work.ata order) < transferLen (work.ata order)

instance (order : ByteOrder) (env : Env) (dev : Aoedev Aclhdr Iface) (store : List UInt8)
    (work : Workentry) : Decidable (ShortCount order env dev store work) :=
  inferInstanceAs (Decidable (_ ∧ _ ∧ _ ∧ _))

/-! ## The result of a call -/

section Result

variable {request : AoeAtahdr}

/-- The helpers return what the call returned, and -1 if there was no seeking. -/
theorem qaoedFileRead_result (env : Env) (store buff : List UInt8)
    (read : isAtaRead request.cmdstat = true) :
    (qaoedFileRead env store buff (transferLen request) (qaoedLBA request * 512)).1 =
      if env.seekOk = true then ioResult env store request else -1 := by
  unfold qaoedFileRead ioResult
  rw [read]
  cases env.seekOk with
  | false => rfl
  | true =>
      cases env.cap with
      | none => rfl
      | some cap => rfl

theorem qaoedFileWrite_result (env : Env) (store : List UInt8) {buff : List UInt8}
    (write : isAtaWrite request.cmdstat = true)
    (whole : buff.length = transferLen request) :
    (qaoedFileWrite env store buff (qaoedLBA request * 512)).1 =
      if env.seekOk = true then ioResult env store request else -1 := by
  unfold qaoedFileWrite ioResult
  rw [isAtaRead_of_write write]
  cases env.seekOk with
  | false => rfl
  | true =>
      cases env.cap with
      | none => rfl
      | some cap =>
          show ((buff.take cap).length : Int) = _
          rw [List.length_take, whole]
          rfl

/-- A call fails, or moves at most what it was asked for. -/
theorem ioResult_range (env : Env) (store : List UInt8) (request : AoeAtahdr) :
    ioResult env store request = -1 ∨
      (0 ≤ ioResult env store request ∧ ioResult env store request ≤ transferLen request) := by
  unfold ioResult
  cases env.cap with
  | none => exact Or.inl rfl
  | some cap =>
      right
      dsimp only
      split
      · rw [slice_length]
        omega
      · omega

/-- A transfer sends its reply as it was if the call moved a byte, and marked as failed
otherwise. -/
theorem qaoedTransfer_marked (env : Env) (store : List UInt8) (work : Workentry)
    (reply : AoeAtahdr) (replyLen : Nat)
    (transfer : isAtaRead request.cmdstat = true ∨ isAtaWrite request.cmdstat = true) :
    ∃ data len, (qaoedTransfer env store work request reply replyLen).2 =
      qaoedXmit work (.ata (if env.seekOk = true ∧ 0 < ioResult env store request then reply
        else markFailed reply) data) len := by
  have failed : (if env.seekOk = true then ioResult env store request else -1) ≤ 0 ↔
      ¬ (env.seekOk = true ∧ 0 < ioResult env store request) := by
    cases env.seekOk with
    | false => simp
    | true => simp
  unfold qaoedTransfer
  rcases transfer with read | write
  · have result := qaoedFileRead_result env store (bytesAt env.heap 0 (transferLen request)) read
    rw [if_pos read]
    dsimp only
    rw [← result] at failed
    split
    · next stopped => exact ⟨_, _, by rw [if_neg (failed.mp stopped)]⟩
    · next moved => exact ⟨_, _, by rw [if_pos (not_not.mp (failed.not.mp moved))]⟩
  · have result := qaoedFileWrite_result env store write
      (bytesAt_length work.aoepkt sizeofAoeAtahdr (transferLen request))
    rw [isAtaRead_of_write write, if_neg Bool.false_ne_true, if_pos write]
    dsimp only
    rw [← result] at failed
    split
    · next stopped => exact ⟨_, _, by rw [if_neg (failed.mp stopped)]⟩
    · next moved => exact ⟨_, _, by rw [if_pos (not_not.mp (failed.not.mp moved))]⟩

end Result

/-! ## The answer -/

theorem not_acknowledged_of_error {sent : List Sent} (error : AnsweredWithError sent) :
    ¬ Acknowledged sent := by
  rintro ⟨hdr, data, success, _, clear⟩
  obtain ⟨marked, _, failed, set⟩ := error
  rw [success] at failed
  cases failed
  exact clear set

/-- A transfer is acknowledged as soon as the call moves a byte. -/
theorem acknowledged_iff {order : ByteOrder} {env : Env} {dev : Aoedev Aclhdr Iface}
    {store : List UInt8} {work : Workentry}
    (transfer : isAtaRead (work.ata order).cmdstat = true ∨
      isAtaWrite (work.ata order).cmdstat = true) :
    Acknowledged (qaoedProcessATA order env dev store work).sent ↔
      ataRefused dev (work.ata order) = false ∧ env.seekOk = true ∧
        0 < ioResult env store (work.ata order) := by
  cases refused : ataRefused dev (work.ata order) with
  | true =>
      rw [qaoedProcessATA_refused refused]
      refine iff_of_false ?_ fun admitted => Bool.noConfusion admitted.1
      exact not_acknowledged_of_error (ataErrorXmit_answer order dev store work)
  | false =>
      obtain ⟨data, len, sent⟩ := qaoedTransfer_marked env store work (ataReply order dev work)
        sizeofAoeAtahdr transfer
      rw [qaoedProcessATA_transfer refused transfer, sent, eq_self_iff_true, true_and]
      split
      · next moved =>
          refine iff_of_true ⟨_, _, rfl, ?_, ?_⟩ moved
          · exact (by decide : HasFlag readyStat readyStat)
          · exact (by decide : ¬ HasFlag readyStat errStat)
      · next fails =>
          exact iff_of_false (not_acknowledged_of_error (markFailed_answer _ _ _ _)) fails

/-- A read or write is acknowledged exactly if it was complete, unless the call comes
to an end early. -/
theorem acknowledged_complete_iff (order : ByteOrder) (env : Env) (dev : Aoedev Aclhdr Iface)
    (store : List UInt8) (work : Workentry)
    (transfer : isAtaRead (work.ata order).cmdstat = true ∨
      isAtaWrite (work.ata order).cmdstat = true)
    (sectors : 1 ≤ (work.ata order).nsect.toNat) :
    (Acknowledged (qaoedProcessATA order env dev store work).sent ↔
        Completed order env dev store work) ↔
      ¬ ShortCount order env dev store work := by
  have positive : (0 : Int) < transferLen (work.ata order) := by
    unfold transferLen
    omega
  have range := ioResult_range env store (work.ata order)
  rw [acknowledged_iff transfer, Completed, ShortCount]
  constructor
  · rintro agree ⟨admitted, seek, moved, short⟩
    have complete := (agree.mp ⟨admitted, seek, moved⟩).2.2
    omega
  · intro notShort
    constructor
    · rintro ⟨admitted, seek, moved⟩
      refine ⟨admitted, seek, ?_⟩
      by_contra missing
      exact notShort ⟨admitted, seek, moved, by omega⟩
    · rintro ⟨admitted, seek, complete⟩
      exact ⟨admitted, seek, by omega⟩

/-- A write of one sector that the system stores in full. -/
theorem acknowledged_complete_iff_wholeSector :
    Acknowledged (qaoedProcessATA .little ⟨true, some 512, fun _ => 0, fun _ => 0⟩ oneSector.dev
        oneSector.store headerOnly).sent ↔
      Completed .little ⟨true, some 512, fun _ => 0, fun _ => 0⟩ oneSector.dev oneSector.store
        headerOnly :=
  (acknowledged_complete_iff .little ⟨true, some 512, fun _ => 0, fun _ => 0⟩ oneSector.dev
    oneSector.store headerOnly (Or.inr rfl) (by decide)).mpr (by decide)

/-- The disk takes 100 of the 512 bytes of a write, and the client is told that it
succeeded. -/
theorem fullDisk_acknowledged :
    isAtaWrite (headerOnly.ata .little).cmdstat = true ∧
      1 ≤ (headerOnly.ata .little).nsect.toNat ∧
      ioResult ⟨true, some 100, fun _ => 0, fun _ => 0⟩ oneSector.store
        (headerOnly.ata .little) = 100 ∧
      ¬ (Acknowledged (qaoedProcessATA .little ⟨true, some 100, fun _ => 0, fun _ => 0⟩
          oneSector.dev oneSector.store headerOnly).sent ↔
        Completed .little ⟨true, some 100, fun _ => 0, fun _ => 0⟩ oneSector.dev
          oneSector.store headerOnly) := by
  refine ⟨rfl, by decide, by decide, ?_⟩
  intro agree
  have success : Acknowledged (qaoedProcessATA .little ⟨true, some 100, fun _ => 0, fun _ => 0⟩
      oneSector.dev oneSector.store headerOnly).sent :=
    (acknowledged_iff (Or.inr rfl)).mpr ⟨rfl, rfl, by decide⟩
  exact absurd (agree.mp success).2.2 (by decide)

end Qaoed.Device
