import Qaoed.Device.ConfigString
import Qaoed.Network.Exchange

/-!
# Who is told about a device

A device is advertised by the answer to a request that nobody sent: a configuration
read in the name of each address that a rule accepts. The request goes the way of all
others, so the list is asked again, and this time the first rule for the address decides.
-/

namespace Qaoed.Network

open Qaoed.Library
open Qaoed.Library.ByteOrder
open Qaoed.Frame
open Qaoed.Device

variable {Iface : Type}

/-- The frame tells an address of the device: the answer to a configuration read, with shelf,
slot and configuration string. -/
structure Advertises (order : ByteOrder) (device : Aoedev Aclhdr Iface) (hDest : SixBytes)
    (sent : Sent) : Prop where
  reply : ∃ hdr data, sent = .cfg hdr data ∧ hdr.aoehdr.hDest = hDest ∧
    hdr.aoehdr.cmd = aoeCmdCfg ∧ HasFlag hdr.aoehdr.verFlags aoeFlagRsp ∧
    hdr.command = aoeCfgRead ∧
    hdr.aoehdr.shelf = htons order device.shelf ∧ hdr.aoehdr.slot = device.slot ∧
    hdr.cfgLen = htons order (toU16 device.cfgLen) ∧
    (CfgLenValid device → data = storedString device ∧ hdr.stringLength order = data.length)

/-- The rule accepts the address by name. -/
def acceptsByName (hDest : SixBytes) (aclrow : Aclentry) : Bool :=
  aclrow.rule == aclAccept && aclrow.hDest = hDest

/-- What the device sends: one frame to everybody if it has no list, and else one for each rule
that accepts an address which the list as a whole accepts. -/
structure RespectsList (order : ByteOrder) (device : Aoedev Aclhdr Iface) (frames : List Sent) :
    Prop where
  everybody : device.cfgracl = none → ∃ sent, frames = [sent] ∧ Advertises order device hBcast sent
  listed : ∀ acl, device.cfgracl = some acl → ∀ sent ∈ frames, ∃ hDest aclrow,
    Advertises order device hDest sent ∧ aclmatch acl hDest = aclAccept ∧
      aclrow ∈ acl.acl ∧ acceptsByName hDest aclrow = true
  each : ∀ acl, device.cfgracl = some acl → ∀ hDest, aclmatch acl hDest = aclAccept →
    (frames.countP fun sent => sent.aoehdr.hDest = hDest) = acl.acl.countP (acceptsByName hDest)

/-! ## One advertisement -/

section Frame

variable (order : ByteOrder) (env : Env) (interface : Ifst) (device : Aoedev Aclhdr Iface)
  (store : List UInt8) (hDest : SixBytes)

/-- The entry that `qaoed_dobcast` makes up. -/
def bcastWork : Workentry :=
  ⟨memOf ((bcastFrame order hDest).toBytes order), sizeofAoeCfghdr, interface⟩

theorem bcastWork_hdr : (bcastWork order interface hDest).hdr order =
    (bcastFrame order hDest).aoehdr := by
  have holds := holds_memOf ((bcastFrame order hDest).toBytes order)
  nth_rewrite 2 [AoeCfghdr.toBytes] at holds
  rw [List.append_assoc, List.append_assoc, List.append_assoc] at holds
  exact AoeHdr.ofMem_toBytes holds

theorem bcastWork_command : ((bcastWork order interface hDest).cfg order).command = aoeCfgRead := by
  have byte : (bcastWork order interface hDest).aoepkt 29 = aoeCfgRead ||| 0x10 := by
    have size := AoeHdr.toBytes_length order (bcastFrame order hDest).aoehdr
    unfold bcastWork memOf
    dsimp only
    rw [AoeCfghdr.toBytes, List.append_assoc, List.append_assoc, List.append_assoc,
      List.getElem?_append_right (by rw [size]; decide), size]
    cases order <;> rfl
  rw [Workentry.cfg, AoeCfghdr.ofMem, AoeCfghdr.command, byte]
  exact (by decide : (aoeCfgRead ||| 0x10) &&& 0x0f = aoeCfgRead)

/-- The answer to the entry that was made up. -/
theorem cfgWithString_advertises : ∃ sent,
    (cfgWithString order env device store (bcastWork order interface hDest)).sent = [sent] ∧
      Advertises order device hDest sent := by
  have request := bcastWork_hdr order interface hDest
  have command := bcastWork_command order interface hDest
  have created : qaoedCreatepkt order device (bcastWork order interface hDest) =
      { (bcastFrame order hDest).aoehdr with
        hDest := hDest
        hSource := SixBytes.zero
        verFlags := (bcastFrame order hDest).aoehdr.verFlags ||| 0x10 ||| aoeFlagRsp
        shelf := htons order device.shelf
        slot := device.slot } := by
    rw [qaoedCreatepkt, request]
    rfl
  have sent := @cfgWithString_sent Iface order env store (bcastWork order interface hDest) device
  unfold cfgWithString cfgReply qaoedXmit at sent ⊢
  dsimp only at sent ⊢
  rw [created, command] at sent ⊢
  refine ⟨_, rfl, ⟨_, _, rfl, ?_, ?_, ?_, (by decide : (aoeCfgRead ||| 16) &&& 0x0f = aoeCfgRead), ?_,
    ?_, rfl, ?_⟩⟩
  · unfold setSource
    split <;> rfl
  · unfold setSource
    split <;> rfl
  · unfold setSource
    split <;> exact hasFlag_or_right _ _
  · unfold setSource
    split <;> rfl
  · unfold setSource
    split <;> rfl
  · intro valid
    obtain ⟨hdr, carried, announced⟩ := sent valid
    obtain ⟨rfl, string⟩ := Sent.cfg.inj (List.singleton_inj.mp carried)
    rw [string]
    exact ⟨rfl, (Nat.add_left_cancel announced).symm⟩

/-- The answer is sent unless the list refuses the address. -/
theorem qaoedDobcast_sent : (qaoedDobcast order env interface device store hDest).sent =
    if aclRefuses device.cfgracl hDest = true then []
    else (cfgWithString order env device store (bcastWork order interface hDest)).sent := by
  have request := bcastWork_hdr order interface hDest
  have command := bcastWork_command order interface hDest
  have asks : cfgRefused device ((bcastWork order interface hDest).cfg order) =
      aclRefuses device.cfgracl hDest := by
    rw [cfgRefused_read device (by rw [command]; rfl), Workentry.cfg_aoehdr, request]
    rfl
  have dispatched : qaoedDobcast order env interface device store hDest =
      qaoedProcessCFG order env device store (bcastWork order interface hDest) := by
    have cmd : ((bcastWork order interface hDest).hdr order).cmd = aoeCmdCfg := by
      rw [request]
      rfl
    show qaoedProcesswork order env device store (bcastWork order interface hDest) = _
    unfold qaoedProcesswork
    dsimp only
    rw [cmd]
    rfl
  rw [dispatched]
  split
  · next refused => rw [qaoedProcessCFG_refused (asks.trans refused), cfgNoXmit]
  · next permitted =>
      rw [Bool.not_eq_true] at permitted
      rw [qaoedProcessCFG_read (asks.trans permitted) command]

/-- A permitted address gets one frame, and another one none. -/
theorem qaoedDobcast_cases :
    (aclRefuses device.cfgracl hDest = true ∧
      (qaoedDobcast order env interface device store hDest).sent = []) ∨
    (aclRefuses device.cfgracl hDest = false ∧
      ∃ sent, (qaoedDobcast order env interface device store hDest).sent = [sent] ∧
        Advertises order device hDest sent) := by
  rw [qaoedDobcast_sent]
  cases aclRefuses device.cfgracl hDest with
  | true => exact Or.inl ⟨rfl, rfl⟩
  | false => exact Or.inr ⟨rfl, cfgWithString_advertises order env interface device store hDest⟩

end Frame

theorem Advertises.hDest {order : ByteOrder} {device : Aoedev Aclhdr Iface} {hDest : SixBytes}
    {sent : Sent} (advertises : Advertises order device hDest sent) :
    sent.aoehdr.hDest = hDest := by
  obtain ⟨hdr, data, rfl, addressed, _⟩ := advertises.reply
  exact addressed

/-! ## All of them -/

/-- The frames for a permitted address, of those that all rules together lead to, are as many
as the rules that accept it. -/
theorem countP_advertise {acl : Aclhdr} {advertise : SixBytes → List Sent}
    {rows : List Aclentry} {hDest : SixBytes}
    (each : ∀ other, aclmatch acl other ≠ aclAccept ∧ advertise other = [] ∨
      aclmatch acl other = aclAccept ∧
        ∃ sent, advertise other = [sent] ∧ sent.aoehdr.hDest = other)
    (permitted : aclmatch acl hDest = aclAccept) :
    ((((rows.filter fun aclrow => aclrow.rule == aclAccept).map Aclentry.hDest).flatMap
      advertise).countP fun sent => sent.aoehdr.hDest = hDest) =
        rows.countP (acceptsByName hDest) := by
  induction rows with
  | nil => rfl
  | cons row rows ih =>
      rw [List.filter_cons, List.countP_cons, acceptsByName]
      cases accepts : row.rule == aclAccept with
      | false =>
          rw [if_neg Bool.false_ne_true, ih, Bool.false_and, if_neg Bool.false_ne_true,
            Nat.add_zero]
      | true =>
          rw [if_pos rfl, List.map_cons, List.flatMap_cons, List.countP_append, ih, Bool.true_and,
            Nat.add_comm]
          congr 1
          rcases each row.hDest with ⟨refused, none⟩ | ⟨_, sent, one, addressed⟩
          · have apart : row.hDest ≠ hDest := fun same => refused (same ▸ permitted)
            rw [none, if_neg (by simpa using apart)]
            rfl
          · rw [one, List.countP_singleton, addressed]

/-- The frames that advertise a device respect its discovery list. -/
theorem bcastdevice_respectsList (order : ByteOrder) (env : Env) (interface : Ifst)
    (device : Aoedev Aclhdr Iface) (store : List UInt8) :
    RespectsList order device (qaoedBcastdevice order env interface device store) := by
  have cases_ := qaoedDobcast_cases order env interface device store
  constructor
  case everybody =>
    intro none
    rw [qaoedBcastdevice, bcastTargets, none, List.flatMap_singleton]
    rcases cases_ hBcast with ⟨refused, _⟩ | ⟨_, one⟩
    · rw [none] at refused
      cases refused
    · exact one
  case listed =>
    intro acl attached sent member
    rw [qaoedBcastdevice, bcastTargets, attached] at member
    obtain ⟨hDest, target, member⟩ := List.mem_flatMap.mp member
    obtain ⟨aclrow, listed, rfl⟩ := List.mem_map.mp target
    obtain ⟨listed, accepts⟩ := List.mem_filter.mp listed
    rcases cases_ aclrow.hDest with ⟨_, none⟩ | ⟨permitted, sent', one, advertises⟩
    · rw [none] at member
      cases member
    · rw [one] at member
      rw [List.mem_singleton.mp member]
      refine ⟨aclrow.hDest, aclrow, advertises,
        (aclRefuses_eq_false_iff _ _).mp permitted acl attached, listed, ?_⟩
      rw [acceptsByName, accepts, decide_eq_true rfl]
      rfl
  case each =>
    intro acl attached hDest permitted
    rw [qaoedBcastdevice, bcastTargets, attached]
    refine countP_advertise ?_ permitted
    intro other
    rcases cases_ other with ⟨refused, none⟩ | ⟨permitted, sent, one, advertises⟩
    · refine Or.inl ⟨?_, none⟩
      rw [attached, aclRefuses, bne_iff_ne] at refused
      exact refused
    · exact Or.inr ⟨(aclRefuses_eq_false_iff _ _).mp permitted acl attached, sent, one,
        advertises.hDest⟩

end Qaoed.Network
