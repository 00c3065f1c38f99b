import Qaoed.Device.Correlation
import Qaoed.Network.Dispatch

/-!
# The listener

The Linux listener reads a frame into a buffer and hands it on with the length that
`read` returned. Three functions compare this length with the size of a header before
they look at it, and all three compare it as an unsigned number, for which the -1 of a
failed `read` is larger than any header.
-/

namespace Qaoed.Network

open Qaoed.Library
open Qaoed.Library.ByteOrder
open Qaoed.Frame
open Qaoed.Device

variable {Iface : Type}

inductive ListenRecord where
  | shortRead (ifname : CString)
  | packet (record : PacketRecord)
  deriving DecidableEq, Repr

/-- What becomes of one `read`: the devices that the frame is queued for, and the
records logged. -/
structure Heard (Iface : Type) where
  queued : List (Aoedev Aclhdr Iface)
  logged : List ListenRecord

/-- One round of the loop of `qaoed_listener` on Linux, for a buffer and what `read` returned. -/
def qaoedListener (order : ByteOrder) (devices : List (Aoedev Aclhdr Iface)) (ifentry : Ifst)
    (raw : Mem) (len : Int) : Heard Iface :=
  if sizeT len ≥ sizeofAoeHdr then
    let dispatched := processpacket order devices ifentry raw len
    ⟨dispatched.queued, dispatched.logged.map .packet⟩
  else ⟨[], [.shortRead ifentry.ifname]⟩

/-! ## The headers that are looked at -/

/-- The sizes of the headers in which `qaoed_processwork` and the handlers look at fields. -/
def processworkHeaders (order : ByteOrder) (work : Workentry) : List Nat :=
  sizeofAoeHdr ::
    if (work.hdr order).cmd == aoeCmdAta then
      if sizeT work.packetLen ≥ sizeofAoeAtahdr then [sizeofAoeAtahdr] else []
    else if (work.hdr order).cmd == aoeCmdCfg then
      if sizeT work.packetLen ≥ sizeofAoeCfghdr then [sizeofAoeCfghdr] else []
    else []

def processpacketHeaders (len : Int) : List Nat :=
  if sizeT len < sizeofAoeHdr then [] else [sizeofAoeHdr]

/-- All headers that are looked at for one `read`, by the listener and for each device. -/
def listenerHeaders (order : ByteOrder) (devices : List (Aoedev Aclhdr Iface)) (ifentry : Ifst)
    (raw : Mem) (len : Int) : List Nat :=
  if sizeT len ≥ sizeofAoeHdr then
    processpacketHeaders len ++
      (processpacket order devices ifentry raw len).queued.flatMap fun _ =>
        processworkHeaders order (workOf ifentry raw len)
  else []

/-- The frame is too short for the header of its command. -/
def ShortFor (order : ByteOrder) (raw : Mem) (len : Int) : Prop :=
  len < sizeofAoeHdr ∨
    ((AoeHdr.ofMem order raw).cmd = aoeCmdAta ∧ len < sizeofAoeAtahdr) ∨
    ((AoeHdr.ofMem order raw).cmd = aoeCmdCfg ∧ len < sizeofAoeCfghdr)

/-- Nothing but received bytes is taken for a frame. -/
structure OnlyReceived (order : ByteOrder) (devices : List (Aoedev Aclhdr Iface))
    (ifentry : Ifst) (raw : Mem) (len : Int) : Prop where
  /-- Every header that is looked at has been received. -/
  headers : ∀ size ∈ listenerHeaders order devices ifentry raw len, (size : Int) ≤ len
  /-- What is too short for a header is not queued, whatever the buffer holds. -/
  unqueued : len < sizeofAoeHdr → ∀ other : Mem,
    qaoedListener order devices ifentry other len = ⟨[], [.shortRead ifentry.ifname]⟩
  /-- What is too short for its command is not answered and changes nothing. -/
  unhandled : ShortFor order raw len →
    ∀ device ∈ (qaoedListener order devices ifentry raw len).queued, ∀ env store,
      (qaoedProcesswork order env device store (workOf ifentry raw len)).sent = [] ∧
        (qaoedProcesswork order env device store (workOf ifentry raw len)).dev = device ∧
        (qaoedProcesswork order env device store (workOf ifentry raw len)).store = store

/-! ## Lengths -/

/-- A length that is not negative is shorter than a header as an `int` too. -/
theorem sizeT_lt_iff {size : Nat} {len : Int} (frame : 0 ≤ len) (int : len < 2 ^ 31) :
    sizeT len < size ↔ len < size := by
  rw [← Nat.not_le, le_sizeT_iff frame int, Int.not_le]

/-- A negative length passes for more than any frame has. -/
theorem le_sizeT_of_neg {size : Nat} {len : Int} (small : size ≤ 2 ^ 31)
    (int : -2 ^ 31 ≤ len) (negative : len < 0) : size ≤ sizeT len := by
  rw [sizeT]
  omega

section Received

variable {order : ByteOrder} {devices : List (Aoedev Aclhdr Iface)} {ifentry : Ifst}
  {raw : Mem} {len : Int}

theorem processworkHeaders_le (frame : (sizeofAoeHdr : Int) ≤ len) (int : len < 2 ^ 31) :
    ∀ size ∈ processworkHeaders order (workOf ifentry raw len), (size : Int) ≤ len := by
  have nonneg : 0 ≤ len := le_trans (by decide) frame
  have received {size : Nat} (passes : size ≤ sizeT (workOf ifentry raw len).packetLen) :
      (size : Int) ≤ len := (le_sizeT_iff nonneg int).mp passes
  intro size member
  unfold processworkHeaders at member
  rcases List.mem_cons.mp member with rfl | later
  · exact frame
  · split at later
    · split at later
      · next passes =>
          rw [List.mem_singleton.mp later]
          exact received passes
      · cases later
    · split at later
      · split at later
        · next passes =>
            rw [List.mem_singleton.mp later]
            exact received passes
        · cases later
      · cases later

theorem listenerHeaders_le (nonneg : 0 ≤ len) (int : len < 2 ^ 31) :
    ∀ size ∈ listenerHeaders order devices ifentry raw len, (size : Int) ≤ len := by
  intro size member
  unfold listenerHeaders processpacketHeaders at member
  split at member
  · next passes =>
      have frame := (le_sizeT_iff nonneg int).mp passes
      rw [if_neg (Nat.not_lt.mpr passes)] at member
      rcases List.mem_append.mp member with first | later
      · rw [List.mem_singleton.mp first]
        exact frame
      · obtain ⟨_, _, inspected⟩ := List.mem_flatMap.mp later
        exact processworkHeaders_le frame int size inspected
  · cases member

/-- A device does nothing with a frame that is too short for its command. -/
theorem qaoedProcesswork_short (nonneg : 0 ≤ len) (int : len < 2 ^ 31)
    (frame : (sizeofAoeHdr : Int) ≤ len) (short : ShortFor order raw len) (env : Env)
    (device : Aoedev Aclhdr Iface) (store : List UInt8) :
    (qaoedProcesswork order env device store (workOf ifentry raw len)).sent = [] ∧
      (qaoedProcesswork order env device store (workOf ifentry raw len)).dev = device ∧
      (qaoedProcesswork order env device store (workOf ifentry raw len)).store = store := by
  rcases qaoedProcesswork_cases order env device store (workOf ifentry raw len) with
    ⟨ata, passes, _⟩ | ⟨cfg, passes, _⟩ | ⟨_, exit⟩
  · have long : (sizeofAoeAtahdr : Int) ≤ len := (le_sizeT_iff nonneg int).mp passes
    rcases short with missing | ⟨_, few⟩ | ⟨other, _⟩
    · omega
    · omega
    · exact absurd (ata.symm.trans other) (by decide)
  · have long : (sizeofAoeCfghdr : Int) ≤ len := (le_sizeT_iff nonneg int).mp passes
    rcases short with missing | ⟨other, _⟩ | ⟨_, few⟩
    · omega
    · exact absurd (cfg.symm.trans other) (by decide)
    · omega
  · rw [exit]
    exact ⟨rfl, rfl, rfl⟩

theorem qaoedListener_short (nonneg : 0 ≤ len) (int : len < 2 ^ 31) (short : len < sizeofAoeHdr) :
    qaoedListener order devices ifentry raw len = ⟨[], [.shortRead ifentry.ifname]⟩ := by
  unfold qaoedListener
  rw [if_neg (Nat.not_le.mpr ((sizeT_lt_iff nonneg int).mpr short))]

end Received

/-- The three comparisons keep to received bytes exactly if `read` did not fail. -/
theorem onlyReceived_iff (order : ByteOrder) (devices : List (Aoedev Aclhdr Iface))
    (ifentry : Ifst) (raw : Mem) (len : Int) (int : -2 ^ 31 ≤ len ∧ len < 2 ^ 31) :
    OnlyReceived order devices ifentry raw len ↔ 0 ≤ len := by
  constructor
  · intro only
    by_contra failed
    have passes : sizeofAoeHdr ≤ sizeT len :=
      le_sizeT_of_neg (by decide) int.1 (Int.not_le.mp failed)
    have looked : sizeofAoeHdr ∈ listenerHeaders order devices ifentry raw len := by
      unfold listenerHeaders processpacketHeaders
      rw [if_pos passes, if_neg (Nat.not_lt.mpr passes)]
      exact List.mem_append_left _ (List.mem_singleton_self _)
    have received := only.headers sizeofAoeHdr looked
    omega
  · intro nonneg
    refine ⟨listenerHeaders_le nonneg int.2, fun short _ =>
      qaoedListener_short nonneg int.2 short, ?_⟩
    intro short device member env store
    by_cases frame : (sizeofAoeHdr : Int) ≤ len
    · exact qaoedProcesswork_short nonneg int.2 frame short env device store
    · rw [qaoedListener_short nonneg int.2 (Int.not_le.mp frame)] at member
      cases member

/-- A read that returns too few bytes for a header. -/
theorem onlyReceived_iff_shortRead :
    OnlyReceived .little [oneSector.dev] ⟨[101], none, 1500, 1518, none⟩ (fun _ => 0) 10 :=
  (onlyReceived_iff .little [oneSector.dev] ⟨[101], none, 1500, 1518, none⟩ (fun _ => 0) 10
    (by decide)).mpr (by decide)

/-- What the buffer holds from an earlier frame: a request for the configuration string
of shelf 1, slot 1. -/
def staleFrame : Mem := fun index =>
  if index = 12 then 0x88 else if index = 13 then 0xa2 else if index = 17 then 1
  else if index = 18 then 1 else if index = 19 then aoeCmdCfg else 0

/-- `read` fails, and the device answers a frame that did not arrive. -/
theorem failedRead_answered :
    (qaoedListener .little [oneSector.dev] ⟨[101], none, 1500, 1518, none⟩ staleFrame
        (-1)).queued.length = 1 ∧
      (qaoedProcesswork .little ⟨true, none, fun _ => 0, fun _ => 0⟩ oneSector.dev
        oneSector.store (workOf ⟨[101], none, 1500, 1518, none⟩ staleFrame (-1))).sent.length = 1 ∧
      ¬ OnlyReceived .little [oneSector.dev] ⟨[101], none, 1500, 1518, none⟩ staleFrame (-1) := by
  refine ⟨rfl, rfl, ?_⟩
  intro only
  have looked : sizeofAoeHdr ∈ listenerHeaders .little [oneSector.dev]
      ⟨[101], none, 1500, 1518, none⟩ staleFrame (-1) := List.mem_cons_self
  exact absurd (only.headers _ looked) (by decide)

end Qaoed.Network
