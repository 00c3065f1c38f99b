import Qaoed.Network.Dispatch

/-!
# Devices on several interfaces

A configuration may export one target under one shelf and slot on several
interfaces. The validator tells such devices apart by their interface; the
dispatcher looks at the shelf and the slot only.
-/

namespace Qaoed.Network

open Qaoed.Library
open Qaoed.Library.ByteOrder
open Qaoed.Frame
open Qaoed.Device
open Qaoed.Config

variable {Iface : Type}

/-- A frame with the response bit clear that passes the checks of the dispatcher
and is no broadcast. -/
structure UnicastRequest (order : ByteOrder) (aoepkt : Mem) (len : Int) : Prop where
  fits : sizeofAoeHdr ≤ sizeT len
  proto : ntohs order (AoeHdr.ofMem order aoepkt).hProto = ethPAoe
  clear : ¬ HasFlag (AoeHdr.ofMem order aoepkt).verFlags aoeFlagRsp
  unicast : isBroadcast (ntohs order (AoeHdr.ofMem order aoepkt).shelf)
    (AoeHdr.ofMem order aoepkt).slot = false

/-- The frame is queued to devices of the interface it arrived on only, to one
device at most, and at most one reply is sent for it. -/
structure ServedWhereExported (order : ByteOrder) (devices : List (Aoedev Aclhdr Iface))
    (interface : Iface) (ifentry : Ifst) (aoepkt : Mem) (len : Int) : Prop where
  exported : ∀ device ∈ (processpacket order devices ifentry aoepkt len).queued,
    device.interface = some interface
  once : (processpacket order devices ifentry aoepkt len).queued.length ≤ 1
  replies : ∀ (env : Aoedev Aclhdr Iface → Env) (store : Aoedev Aclhdr Iface → List UInt8),
    ((processpacket order devices ifentry aoepkt len).queued.flatMap fun device =>
      (qaoedProcesswork order (env device) device (store device)
        (workOf ifentry aoepkt len)).sent).length ≤ 1

/-- A filter keeps one element at most if all it keeps stand at one position. -/
theorem filter_length_le_one {α : Type*} (keep : α → Bool) (list : List α)
    (unique : ∀ (position position' : Nat) item item', list[position]? = some item →
      list[position']? = some item' → keep item = true → keep item' = true →
      position = position') : (list.filter keep).length ≤ 1 := by
  induction list with
  | nil => exact Nat.zero_le 1
  | cons first rest ih =>
      cases kept : keep first with
      | false =>
          rw [List.filter_cons_of_neg (by rw [kept]; exact Bool.false_ne_true)]
          apply ih
          intro position position' item item' here there keeps keeps'
          exact Nat.succ.inj (unique (position + 1) (position' + 1) item item' here there keeps keeps')
      | true =>
          have none : rest.filter keep = [] := by
            rw [List.filter_eq_nil_iff]
            intro item member keeps
            obtain ⟨position, here⟩ := List.mem_iff_getElem?.mp member
            cases unique 0 (position + 1) first item rfl here kept keeps
          rw [List.filter_cons_of_pos kept, none]
          exact Nat.le_refl 1

section Unicast

variable {order : ByteOrder} {devices : List (Aoedev Aclhdr Iface)} {ifentry : Ifst}
  {aoepkt : Mem} {len : Int}

/-- A unicast request is queued to exactly the devices it names. -/
theorem queued_unicast (frame : UnicastRequest order aoepkt len) :
    (processpacket order devices ifentry aoepkt len).queued =
      addressed devices (ntohs order (AoeHdr.ofMem order aoepkt).shelf)
        (AoeHdr.ofMem order aoepkt).slot := by
  rw [processpacket_request
    (arrival_request frame.fits frame.proto (not_response _ frame.clear)), recipients,
    frame.unicast, if_neg Bool.false_ne_true, List.append_nil]

theorem mem_queued_unicast (frame : UnicastRequest order aoepkt len)
    {device : Aoedev Aclhdr Iface} :
    device ∈ (processpacket order devices ifentry aoepkt len).queued ↔
      device ∈ devices ∧ Named order aoepkt device := by
  rw [queued_unicast frame]
  exact mem_addressed

/-- The replies to a frame are no more than the devices it is queued to. -/
theorem replies_length_le (queued : List (Aoedev Aclhdr Iface))
    (env : Aoedev Aclhdr Iface → Env) (store : Aoedev Aclhdr Iface → List UInt8)
    (work : Workentry) :
    (queued.flatMap fun device =>
      (qaoedProcesswork order (env device) device (store device) work).sent).length ≤
        queued.length := by
  induction queued with
  | nil => exact Nat.le_refl 0
  | cons device rest ih =>
      have one := qaoedProcesswork_sent_length order (env device) device (store device) work
      rw [List.flatMap_cons, List.length_append, List.length_cons]
      omega

end Unicast

variable [DecidableEq Iface]

/-- With an accepted configuration a unicast request is served on the interface it
arrived on only, once and with one reply at most, exactly if no device it names is
attached to another interface. -/
theorem servedWhereExported_iff (order : ByteOrder) (stat : CString → Option Mode)
    (conf : Qconfig Iface) (interface : Iface) (ifentry : Ifst) (aoepkt : Mem) (len : Int)
    (accepted : qaoedValidateconfig stat conf = 0) (frame : UnicastRequest order aoepkt len) :
    ServedWhereExported order conf.devices interface ifentry aoepkt len ↔
      ∀ device ∈ conf.devices, Named order aoepkt device → device.interface = some interface := by
  constructor
  · intro served device member named
    exact served.exported device ((mem_queued_unicast frame).mpr ⟨member, named⟩)
  · intro attached
    have once : (processpacket order conf.devices ifentry aoepkt len).queued.length ≤ 1 := by
      rw [queued_unicast frame]
      apply filter_length_le_one
      intro position position' device search here there keeps keeps'
      simp only [Bool.and_eq_true, beq_iff_eq] at keeps keeps'
      apply position_of_accepted accepted here there
      refine ⟨⟨keeps.2.trans keeps'.2.symm, keeps.1.trans keeps'.1.symm⟩, Or.inl ?_⟩
      rw [attached device (List.mem_of_getElem? here) keeps,
        attached search (List.mem_of_getElem? there) keeps']
    refine ⟨?_, once, ?_⟩
    · intro device queued
      obtain ⟨member, named⟩ := (mem_queued_unicast frame).mp queued
      exact attached device member named
    · intro env store
      exact Nat.le_trans (replies_length_le _ env store _) once

/-! ## The documented multipath set-up -/

/-- Device 1.1 of one target, exported on the given interface. -/
def pathDevice (interface : Nat) : Aoedev Aclhdr Nat where
  devicename := some [100]
  size := 1
  shelf := 1
  slot := 1
  interface := some interface
  wacl := none
  racl := none
  cfgsetacl := none
  cfgracl := none
  cfgLen := 0
  cfg := CfgBuf.zero

/-- One target behind two interfaces. -/
def multipath : Qconfig Nat := ⟨[pathDevice 0, pathDevice 1], [], []⟩

/-- A request for device 1.1 in network byte order. -/
def pathRequest : Mem := fun index =>
  if index = 12 then 0x88 else if index = 13 then 0xa2 else
    if index = 14 then 0x10 else if index = 17 then 1 else if index = 18 then 1 else 0

theorem pathRequest_unicast : UnicastRequest .little pathRequest 36 where
  fits := by decide
  proto := by decide
  clear := by decide
  unicast := by decide

/-- Device 1.1 behind one interface, and device 1.2 behind the other one. -/
def onePathEach : Qconfig Nat := ⟨[pathDevice 0, { pathDevice 1 with slot := 2 }], [], []⟩

theorem servedWhereExported_iff_onePathEach :
    ServedWhereExported .little onePathEach.devices 0 ⟨[], none, 1500, 1518, none⟩ pathRequest 36 := by
  refine (servedWhereExported_iff .little (fun _ => some .reg) onePathEach 0 _
    pathRequest 36 (by decide) pathRequest_unicast).mpr ?_
  intro device member named
  rcases List.mem_cons.mp member with rfl | other
  · rfl
  · rw [List.mem_singleton.mp other] at named
    exact absurd named.2 (by decide)

/-- The configuration is accepted, and a request that arrives on one interface is
queued to the device of the other one as well. -/
theorem multipath_servedTwice :
    qaoedValidateconfig (fun _ => some .reg) multipath = 0 ∧
      UnicastRequest .little pathRequest 36 ∧
      ¬ ServedWhereExported .little multipath.devices 0 ⟨[], none, 1500, 1518, none⟩
        pathRequest 36 := by
  refine ⟨by decide, pathRequest_unicast, ?_⟩
  intro served
  have other := served.exported (pathDevice 1)
    ((mem_queued_unicast pathRequest_unicast).mpr ⟨by simp [multipath], rfl, rfl⟩)
  cases other

end Qaoed.Network
