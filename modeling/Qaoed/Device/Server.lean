import Qaoed.Device.HandlerSpec
import Qaoed.Library.Mealy

/-!
# A device in service

A worker hands its requests to one handler after the other. The device and its
backing store are the state of a machine; a request comes with the answers of
the environment, and the output of a step is what goes to the socket.
-/

namespace Qaoed.Device

open Qaoed.Library
open Qaoed.Frame

structure Server (Iface : Type) where
  dev : Aoedev Aclhdr Iface
  store : List UInt8

structure Request where
  work : Workentry
  env : Env

/-- A handler as it is called for one request. -/
abbrev Handler (Iface : Type) :=
  Env → Aoedev Aclhdr Iface → List UInt8 → Workentry → Outcome Iface

variable {Iface : Type}

/-- What a handler leaves behind for a request. -/
def handle (handler : Handler Iface) (server : Server Iface) (request : Request) :
    Outcome Iface :=
  handler request.env server.dev server.store request.work

def served (handler : Handler Iface) : Mealy (Server Iface) Request (List Sent) where
  next server request := ⟨(handle handler server request).dev, (handle handler server request).store⟩
  out server request := (handle handler server request).sent

/-- An open device whose file holds one sector. -/
def oneSector : Server Unit where
  dev :=
    { devicename := none, size := 1, shelf := 1, slot := 1, interface := none, wacl := none,
      racl := none, cfgsetacl := none, cfgracl := none, cfgLen := 0, cfg := CfgBuf.zero }
  store := List.replicate 512 0

/-! ## What no request changes -/

/-- The devices agree in everything but the configuration string. -/
def SameSetup (dev dev' : Aoedev Aclhdr Iface) : Prop :=
  ∃ cfg cfgLen, dev' = { dev with cfg := cfg, cfgLen := cfgLen }

namespace SameSetup

theorem refl (dev : Aoedev Aclhdr Iface) : SameSetup dev dev := ⟨dev.cfg, dev.cfgLen, rfl⟩

theorem trans {first second third : Aoedev Aclhdr Iface} (left : SameSetup first second)
    (right : SameSetup second third) : SameSetup first third := by
  obtain ⟨_, _, rfl⟩ := left
  obtain ⟨cfg, cfgLen, rfl⟩ := right
  exact ⟨cfg, cfgLen, rfl⟩

variable {dev dev' : Aoedev Aclhdr Iface}

theorem racl (same : SameSetup dev dev') : dev'.racl = dev.racl := by
  obtain ⟨_, _, rfl⟩ := same
  rfl

theorem wacl (same : SameSetup dev dev') : dev'.wacl = dev.wacl := by
  obtain ⟨_, _, rfl⟩ := same
  rfl

theorem cfgracl (same : SameSetup dev dev') : dev'.cfgracl = dev.cfgracl := by
  obtain ⟨_, _, rfl⟩ := same
  rfl

theorem cfgsetacl (same : SameSetup dev dev') : dev'.cfgsetacl = dev.cfgsetacl := by
  obtain ⟨_, _, rfl⟩ := same
  rfl

theorem size (same : SameSetup dev dev') : dev'.size = dev.size := by
  obtain ⟨_, _, rfl⟩ := same
  rfl

end SameSetup

/-! ## Which requests change what -/

section Change

variable {order : ByteOrder} {env : Env} {dev : Aoedev Aclhdr Iface} {store : List UInt8}
  {work : Workentry}

theorem qaoedProcessATA_dev (order : ByteOrder) (env : Env) (dev : Aoedev Aclhdr Iface)
    (store : List UInt8) (work : Workentry) :
    (qaoedProcessATA order env dev store work).dev = dev := by
  rcases qaoedProcessATA_cases order env dev store work with
    ⟨_, exit⟩ | ⟨_, _, exit⟩ | ⟨_, _, exit⟩ | ⟨_, _, exit⟩ <;> rw [exit] <;> rfl

/-- Only an admitted write reaches the store. -/
theorem qaoedProcessATA_store
    (changed : (qaoedProcessATA order env dev store work).store ≠ store) :
    isAtaWrite (work.ata order).cmdstat = true ∧ Permits dev.wacl (work.hdr order).hSource := by
  rcases qaoedProcessATA_cases order env dev store work with
    ⟨_, exit⟩ | ⟨admitted, transfer, exit⟩ | ⟨_, _, exit⟩ | ⟨_, _, exit⟩
  all_goals rw [exit] at changed
  · exact absurd rfl changed
  · rcases transfer with read | write
    · exact absurd (qaoedTransfer_read_store read) changed
    · rw [ataRefused_write dev write] at admitted
      exact ⟨write, (aclRefuses_eq_false_iff _ _).mp admitted⟩
  · exact absurd rfl changed
  · exact absurd rfl changed

theorem qaoedProcessCFG_store (order : ByteOrder) (env : Env) (dev : Aoedev Aclhdr Iface)
    (store : List UInt8) (work : Workentry) :
    (qaoedProcessCFG order env dev store work).store = store := by
  rcases qaoedProcessCFG_cases order env dev store work with
    exit | ⟨_, _, exit⟩ | ⟨_, _, _, _, exit⟩ | ⟨_, _, _, exit⟩ <;> rw [exit] <;> rfl

/-- Only an admitted set command reaches the device, and it stores its string. -/
theorem qaoedProcessCFG_dev (order : ByteOrder) (env : Env) (dev : Aoedev Aclhdr Iface)
    (store : List UInt8) (work : Workentry) :
    (qaoedProcessCFG order env dev store work).dev = dev ∨
      ((qaoedProcessCFG order env dev store work).dev = cfgStore order dev work ∧
        isCfgSet (work.cfg order).command = true ∧
        Permits dev.cfgsetacl (work.hdr order).hSource) := by
  rcases qaoedProcessCFG_cases order env dev store work with
    exit | ⟨_, _, exit⟩ | ⟨set, admitted, _, _, exit⟩ | ⟨_, _, _, exit⟩
  all_goals rw [exit]
  · exact Or.inl rfl
  · exact Or.inl rfl
  · rw [cfgRefused_set dev set] at admitted
    exact Or.inr ⟨rfl, set, (aclRefuses_eq_false_iff _ _).mp admitted⟩
  · exact Or.inl rfl

theorem qaoedProcessCFG_sameSetup (order : ByteOrder) (env : Env) (dev : Aoedev Aclhdr Iface)
    (store : List UInt8) (work : Workentry) :
    SameSetup dev (qaoedProcessCFG order env dev store work).dev := by
  rcases qaoedProcessCFG_dev order env dev store work with same | ⟨stored, _, _⟩
  · rw [same]
    exact SameSetup.refl dev
  · rw [stored]
    exact ⟨_, _, rfl⟩

theorem qaoedProcesswork_ata (cmd : (work.hdr order).cmd = aoeCmdAta)
    (checked : sizeofAoeAtahdr ≤ sizeT work.packetLen) :
    qaoedProcesswork order env dev store work = qaoedProcessATA order env dev store work := by
  unfold qaoedProcesswork
  dsimp only
  rw [cmd, if_pos (beq_self_eq_true _), if_pos checked]

theorem qaoedProcesswork_ofCfg (cmd : (work.hdr order).cmd = aoeCmdCfg)
    (checked : sizeofAoeCfghdr ≤ sizeT work.packetLen) :
    qaoedProcesswork order env dev store work = qaoedProcessCFG order env dev store work := by
  unfold qaoedProcesswork
  dsimp only
  rw [cmd, if_neg (by decide), if_pos (by decide), if_pos checked]

/-- Every exit of `qaoed_processwork`. -/
theorem qaoedProcesswork_cases (order : ByteOrder) (env : Env) (dev : Aoedev Aclhdr Iface)
    (store : List UInt8) (work : Workentry) :
    ((work.hdr order).cmd = aoeCmdAta ∧ sizeofAoeAtahdr ≤ sizeT work.packetLen ∧
      qaoedProcesswork order env dev store work = qaoedProcessATA order env dev store work) ∨
    ((work.hdr order).cmd = aoeCmdCfg ∧ sizeofAoeCfghdr ≤ sizeT work.packetLen ∧
      qaoedProcesswork order env dev store work = qaoedProcessCFG order env dev store work) ∨
    ∃ logged, qaoedProcesswork order env dev store work = ⟨dev, store, [], logged, 1⟩ := by
  unfold qaoedProcesswork
  dsimp only
  split
  · next ata =>
      split
      · next fits => exact Or.inl ⟨beq_iff_eq.mp ata, fits, rfl⟩
      · exact Or.inr (Or.inr ⟨_, rfl⟩)
  · split
    · next cfg =>
        split
        · next fits => exact Or.inr (Or.inl ⟨beq_iff_eq.mp cfg, fits, rfl⟩)
        · exact Or.inr (Or.inr ⟨_, rfl⟩)
    · exact Or.inr (Or.inr ⟨_, rfl⟩)

/-- Handling a request sends one frame at most. -/
theorem qaoedProcesswork_sent_length (order : ByteOrder) (env : Env) (dev : Aoedev Aclhdr Iface)
    (store : List UInt8) (work : Workentry) :
    (qaoedProcesswork order env dev store work).sent.length ≤ 1 := by
  rcases qaoedProcesswork_cases order env dev store work with
    ⟨_, _, exit⟩ | ⟨_, _, exit⟩ | ⟨_, exit⟩
  · rw [exit]
    rcases qaoedProcessATA_cases order env dev store work with
      ⟨_, exit⟩ | ⟨_, _, exit⟩ | ⟨_, _, exit⟩ | ⟨_, _, exit⟩ <;> rw [exit] <;> exact Nat.le_refl 1
  · rw [exit]
    rcases qaoedProcessCFG_cases order env dev store work with
      exit | ⟨_, _, exit⟩ | ⟨_, _, _, _, exit⟩ | ⟨_, _, _, exit⟩ <;> rw [exit]
    · exact Nat.zero_le 1
    · exact Nat.le_refl 1
    · exact Nat.le_refl 1
    · exact Nat.le_refl 1
  · rw [exit]
    exact Nat.zero_le 1

/-- Handling a request gives up the work entry once. -/
theorem qaoedProcesswork_workdestroys (order : ByteOrder) (env : Env)
    (dev : Aoedev Aclhdr Iface) (store : List UInt8) (work : Workentry) :
    (qaoedProcesswork order env dev store work).workdestroys = 1 := by
  rcases qaoedProcesswork_cases order env dev store work with
    ⟨_, _, exit⟩ | ⟨_, _, exit⟩ | ⟨_, exit⟩
  · rw [exit]
    rcases qaoedProcessATA_cases order env dev store work with
      ⟨_, exit⟩ | ⟨_, _, exit⟩ | ⟨_, _, exit⟩ | ⟨_, _, exit⟩ <;> rw [exit] <;> rfl
  · rw [exit]
    rcases qaoedProcessCFG_cases order env dev store work with
      exit | ⟨_, _, exit⟩ | ⟨_, _, _, _, exit⟩ | ⟨_, _, _, exit⟩ <;> rw [exit] <;> rfl
  · rw [exit]

theorem qaoedProcesswork_sameSetup (order : ByteOrder) (env : Env) (dev : Aoedev Aclhdr Iface)
    (store : List UInt8) (work : Workentry) :
    SameSetup dev (qaoedProcesswork order env dev store work).dev := by
  rcases qaoedProcesswork_cases order env dev store work with
    ⟨_, _, exit⟩ | ⟨_, _, exit⟩ | ⟨_, exit⟩
  all_goals rw [exit]
  · rw [qaoedProcessATA_dev]
    exact SameSetup.refl dev
  · exact qaoedProcessCFG_sameSetup order env dev store work
  · exact SameSetup.refl dev

end Change

/-! ## Transfers that come to nothing -/

/-- Nothing of a write reaches the store: the list refuses it, or the system
neither seeks nor moves a byte. -/
def WriteBlocked (order : ByteOrder) (env : Env) (dev : Aoedev Aclhdr Iface) (work : Workentry) :
    Prop :=
  aclRefuses dev.wacl (work.hdr order).hSource = true ∨ env.seekOk = false ∨
    env.moved (transferLen (work.ata order)) = 0

instance (order : ByteOrder) (env : Env) (dev : Aoedev Aclhdr Iface) (work : Workentry) :
    Decidable (WriteBlocked order env dev work) :=
  inferInstanceAs (Decidable (_ ∨ _ ∨ _))

/-- Nothing of the store reaches the client: the list refuses the read, or the
system neither seeks nor delivers a byte. -/
def ReadBlocked (order : ByteOrder) (env : Env) (dev : Aoedev Aclhdr Iface) (store : List UInt8)
    (work : Workentry) : Prop :=
  aclRefuses dev.racl (work.hdr order).hSource = true ∨ env.seekOk = false ∨
    env.moved (transferLen (work.ata order)) = 0 ∨
    store.length ≤ qaoedLBA (work.ata order) * 512

instance (order : ByteOrder) (env : Env) (dev : Aoedev Aclhdr Iface) (store : List UInt8)
    (work : Workentry) : Decidable (ReadBlocked order env dev store work) :=
  inferInstanceAs (Decidable (_ ∨ _ ∨ _ ∨ _))

section Blocked

variable {order : ByteOrder} {env : Env} {dev : Aoedev Aclhdr Iface} {store : List UInt8}
  {work : Workentry}

theorem qaoedProcesswork_write_blocked (store : List UInt8)
    (cmd : (work.hdr order).cmd = aoeCmdAta)
    (write : isAtaWrite (work.ata order).cmdstat = true)
    (checked : sizeofAoeAtahdr ≤ sizeT work.packetLen) (blocked : WriteBlocked order env dev work) :
    (qaoedProcesswork order env dev store work).store = store ∧
      AnsweredWithError (qaoedProcesswork order env dev store work).sent := by
  rw [qaoedProcesswork_ata cmd checked]
  exact (qaoedProcessATA_write_blocked store write blocked).2

/-- A write that is not blocked stores bytes from behind the header and is acknowledged. -/
theorem qaoedProcesswork_write_done (store : List UInt8)
    (cmd : (work.hdr order).cmd = aoeCmdAta)
    (write : isAtaWrite (work.ata order).cmdstat = true)
    (checked : sizeofAoeAtahdr ≤ sizeT work.packetLen)
    (passes : ¬ WriteBlocked order env dev work) :
    qaoedProcesswork order env dev store work =
      ⟨dev,
        writeAt 0 store (qaoedLBA (work.ata order) * 512)
          (bytesAt work.aoepkt sizeofAoeAtahdr (env.moved (transferLen (work.ata order)))),
        [.ata (sentHdr order dev work) []], [], 1⟩ := by
  unfold WriteBlocked at passes
  simp only [not_or, Bool.not_eq_true, Bool.not_eq_false] at passes
  obtain ⟨permits, seek, moves⟩ := passes
  rw [qaoedProcesswork_ata cmd checked]
  exact qaoedProcessATA_write_done write permits seek (Nat.pos_of_ne_zero moves)

theorem qaoedProcesswork_read_store (cmd : (work.hdr order).cmd = aoeCmdAta)
    (read : isAtaRead (work.ata order).cmdstat = true)
    (checked : sizeofAoeAtahdr ≤ sizeT work.packetLen) :
    (qaoedProcesswork order env dev store work).store = store := by
  by_contra changed
  rw [qaoedProcesswork_ata cmd checked] at changed
  have write := (qaoedProcessATA_store changed).1
  rw [isAtaRead_of_write write] at read
  cases read

/-- A read is answered with an error exactly if it is blocked. -/
theorem qaoedProcesswork_read_error_iff (cmd : (work.hdr order).cmd = aoeCmdAta)
    (read : isAtaRead (work.ata order).cmdstat = true)
    (checked : sizeofAoeAtahdr ≤ sizeT work.packetLen) :
    AnsweredWithError (qaoedProcesswork order env dev store work).sent ↔
      ReadBlocked order env dev store work := by
  have nothing : fetched env store (work.ata order) = [] ↔
      env.moved (transferLen (work.ata order)) = 0 ∨
        store.length ≤ qaoedLBA (work.ata order) * 512 := by
    rw [fetched, ← List.length_eq_zero_iff, slice_length]
    omega
  rw [qaoedProcesswork_ata cmd checked]
  constructor
  · intro error
    by_contra passes
    simp only [ReadBlocked, not_or, Bool.not_eq_true, Bool.not_eq_false] at passes
    obtain ⟨permits, seek, delivers⟩ := passes
    have moves : fetched env store (work.ata order) ≠ [] := by
      rw [Ne, nothing]
      exact not_or.mpr delivers
    rw [qaoedProcessATA_read_done read permits seek moves] at error
    exact not_answeredWithError order dev work _ error
  · intro blocked
    rw [ReadBlocked, ← nothing] at blocked
    exact (qaoedProcessATA_read_blocked read blocked).2.2

end Blocked

/-! ## Runs -/

/-- A run of requests leaves everything but the configuration string alone. -/
theorem served_sameSetup (order : ByteOrder) (server : Server Iface) (requests : List Request)
    {visit : Mealy.Visit (Server Iface) Request}
    (member : visit ∈ (served (qaoedProcesswork order)).visits server requests) :
    SameSetup server.dev visit.state.dev := by
  refine (served (qaoedProcesswork order)).visit_invariant
    (fun state => SameSetup server.dev state.dev) (SameSetup.refl _) ?_ member
  intro state request _ same
  exact same.trans (qaoedProcesswork_sameSetup order _ _ _ _)

end Qaoed.Device
