import Qaoed.Device.ConfigString
import Qaoed.Device.FreshMemory

/-!
# Matching configuration strings

A client looks for devices by their configuration string, whole or by its
beginning. The handler compares lengths without converting one of them, or not at
all, and bytes without regard to where the stored string ends.
-/

namespace Qaoed.Device

open Qaoed.Library
open Qaoed.Library.ByteOrder
open Qaoed.Frame

variable {Iface : Type}

/-- The request is answered exactly if its string is the stored one, and then with
the stored one. -/
structure MatchesWhole (env : Env) (dev : Aoedev Aclhdr Iface) (store : List UInt8)
    (work : Workentry) : Prop where
  answered : (qaoedProcessCFG .little env dev store work).sent ≠ [] ↔
    requestString .little work = storedString dev
  carried : (qaoedProcessCFG .little env dev store work).sent ≠ [] →
    ∃ hdr, (qaoedProcessCFG .little env dev store work).sent = [.cfg hdr (storedString dev)] ∧
      (Sent.cfg hdr (storedString dev)).length =
        sizeofAoeCfghdr + (ntohs .little hdr.cfgLen).toNat

/-- The request is answered exactly if its string begins the stored one. -/
def MatchesBeginning (order : ByteOrder) (env : Env) (dev : Aoedev Aclhdr Iface)
    (store : List UInt8) (work : Workentry) : Prop :=
  (qaoedProcessCFG order env dev store work).sent ≠ [] ↔
    requestString order work <+: storedString dev

/-! ## The conditions -/

/-- The announced length counts the same against the stored one whether it is
converted or not, or the bytes behind the header tell the strings apart. -/
def LengthsAgree (dev : Aoedev Aclhdr Iface) (work : Workentry) : Prop :=
  (((work.cfg .little).cfgLen.toNat : Int) = dev.cfgLen ↔
      ((work.cfg .little).stringLength .little : Int) = dev.cfgLen) ∨
    bytesAt work.aoepkt sizeofAoeCfghdr dev.cfgLen.toNat ≠ storedString dev

/-- The string of the request goes on behind the stored one just as the memory does:
with what is left of longer strings in the buffer, and with what lies behind it. -/
def ContinuesInBuffer (order : ByteOrder) (env : Env) (dev : Aoedev Aclhdr Iface)
    (work : Workentry) : Prop :=
  dev.cfgLen < (requestString order work).length ∧
    bytesAt (dev.cfg.mem env.tail) 0 (requestString order work).length = requestString order work

/-! ## The comparison of the handler -/

section Match

variable {order : ByteOrder} {env : Env} {dev : Aoedev Aclhdr Iface} {store : List UInt8}
  {work : Workentry}

theorem storedString_length (valid : CfgLenValid dev) :
    (storedString dev).length = dev.cfgLen.toNat := by
  have full := dev.cfg.size
  obtain ⟨_, high⟩ := valid
  rw [storedString, List.length_take, full]
  omega

/-- The memory at the buffer starts with the stored string. -/
theorem bytesAt_storedString (valid : CfgLenValid dev) (tail : Mem) :
    bytesAt (dev.cfg.mem tail) 0 dev.cfgLen.toNat = storedString dev := by
  obtain ⟨_, high⟩ := valid
  exact dev.cfg.bytesAt_mem tail (by omega)

/-- A permitted match is answered exactly if the handler's comparison succeeds. -/
theorem match_answered_iff (permits : Permits dev.cfgracl (work.hdr order).hSource)
    (command : (work.cfg order).command = aoeCfgMatch ∨
      (work.cfg order).command = aoeCfgMatchPartial) :
    (qaoedProcessCFG order env dev store work).sent ≠ [] ↔ CfgMatches order env dev work := by
  have read : isCfgRead (work.cfg order).command = true := by
    rcases command with exactly | partly
    · rw [exactly]
      rfl
    · rw [partly]
      rfl
  have admitted : cfgRefused dev (work.cfg order) = false := by
    rw [cfgRefused_read dev read]
    exact (aclRefuses_eq_false_iff _ _).mpr permits
  rw [qaoedProcessCFG_matches admitted command]
  split
  · next found => exact iff_of_true (List.cons_ne_nil _ _) found
  · next differs => exact iff_of_false (fun sent => sent rfl) differs

/-- A match that is answered is answered with the stored string. -/
theorem match_carried (valid : CfgLenValid dev)
    (command : (work.cfg order).command = aoeCfgMatch ∨
      (work.cfg order).command = aoeCfgMatchPartial)
    (answered : (qaoedProcessCFG order env dev store work).sent ≠ []) :
    ∃ hdr, (qaoedProcessCFG order env dev store work).sent = [.cfg hdr (storedString dev)] ∧
      (Sent.cfg hdr (storedString dev)).length =
        sizeofAoeCfghdr + (ntohs order hdr.cfgLen).toNat := by
  cases refused : cfgRefused dev (work.cfg order) with
  | true =>
      rw [qaoedProcessCFG_refused refused] at answered
      exact absurd rfl answered
  | false =>
      rcases qaoedProcessCFG_match refused command with sends | silent
      · rw [sends]
        exact cfgWithString_sent env store work valid
      · rw [silent] at answered
        exact absurd rfl answered

end Match

/-! ## Whole strings -/

/-- On a little-endian host an exact match is the equality of the strings exactly if
the conversion that is left out makes no difference. -/
theorem matchesWhole_iff (env : Env) (dev : Aoedev Aclhdr Iface) (store : List UInt8)
    (work : Workentry) (valid : CfgLenValid dev)
    (command : (work.cfg .little).command = aoeCfgMatch)
    (permits : Permits dev.cfgracl (work.hdr .little).hSource)
    (carries : CarriesString .little ⟨work, env⟩) :
    MatchesWhole env dev store work ↔ LengthsAgree dev work := by
  have string : requestString .little work = bytesAt work.aoepkt sizeofAoeCfghdr
      ((work.cfg .little).stringLength .little) := @requestString_eq .little ⟨work, env⟩ carries
  have low := valid.1
  have compares : (qaoedProcessCFG .little env dev store work).sent ≠ [] ↔
      ((work.cfg .little).cfgLen.toNat : Int) = dev.cfgLen ∧
        bytesAt work.aoepkt sizeofAoeCfghdr dev.cfgLen.toNat = storedString dev := by
    rw [match_answered_iff permits (Or.inl command), cfgMatches_exactly command,
      bytesAt_storedString valid, eq_comm (a := storedString dev)]
  have equal : requestString .little work = storedString dev ↔
      ((work.cfg .little).stringLength .little : Int) = dev.cfgLen ∧
        bytesAt work.aoepkt sizeofAoeCfghdr dev.cfgLen.toNat = storedString dev := by
    rw [string]
    constructor
    · intro same
      have lengths := congrArg List.length same
      rw [bytesAt_length, storedString_length valid] at lengths
      refine ⟨by omega, ?_⟩
      rwa [← lengths]
    · rintro ⟨length, same⟩
      have lengths : (work.cfg .little).stringLength .little = dev.cfgLen.toNat := by omega
      rwa [lengths]
  have answered_iff : ((qaoedProcessCFG .little env dev store work).sent ≠ [] ↔
      requestString .little work = storedString dev) ↔ LengthsAgree dev work := by
    rw [compares, equal, LengthsAgree]
    tauto
  rw [← answered_iff]
  exact ⟨fun whole => whole.answered, fun answered =>
    ⟨answered, match_carried valid (Or.inl command)⟩⟩

/-- A client that looks for a string of two bytes is not answered by a device without one. -/
theorem matchesWhole_iff_otherString :
    MatchesWhole (twoByteRequest aoeCfgMatch).env oneSector.dev []
      (twoByteRequest aoeCfgMatch).work :=
  (matchesWhole_iff (twoByteRequest aoeCfgMatch).env oneSector.dev []
    (twoByteRequest aoeCfgMatch).work ⟨by decide, by decide⟩ rfl
    (fun _ attached => nomatch attached) (Int.le_refl 34)).mpr
    (Or.inl (by decide))

/-- A device that holds the string of two bytes. -/
def twoByteDev : Aoedev Aclhdr Unit :=
  { oneSector.dev with cfg := CfgBuf.zero.memcpy [97, 97], cfgLen := 2 }

/-- The device with just the string that a client looks for does not answer. -/
theorem sameString_unanswered :
    CfgLenValid twoByteDev ∧ ((twoByteRequest aoeCfgMatch).work.cfg .little).command = aoeCfgMatch ∧
      Permits twoByteDev.cfgracl ((twoByteRequest aoeCfgMatch).work.hdr .little).hSource ∧
      CarriesString .little (twoByteRequest aoeCfgMatch) ∧
      ¬ MatchesWhole (twoByteRequest aoeCfgMatch).env twoByteDev []
        (twoByteRequest aoeCfgMatch).work := by
  have permits : Permits twoByteDev.cfgracl
      ((twoByteRequest aoeCfgMatch).work.hdr .little).hSource := by
    intro list attached
    cases attached
  refine ⟨⟨by decide, by decide⟩, rfl, permits, Int.le_refl 34, ?_⟩
  intro whole
  have answered := whole.answered.mpr (by decide)
  have compares := (match_answered_iff permits (Or.inl rfl)).mp answered
  exact absurd compares (by decide)

/-! ## Beginnings -/

/-- Where the stored string does not reach, the handler compares the memory behind it. -/
theorem matchesBeginning_step_iff {order : ByteOrder} {env : Env} {dev : Aoedev Aclhdr Iface}
    {store : List UInt8} {work : Workentry} (valid : CfgLenValid dev)
    (command : (work.cfg order).command = aoeCfgMatchPartial)
    (permits : Permits dev.cfgracl (work.hdr order).hSource)
    (carries : CarriesString order ⟨work, env⟩) :
    MatchesBeginning order env dev store work ↔ ¬ ContinuesInBuffer order env dev work := by
  have length : (requestString order work).length = (work.cfg order).stringLength order :=
    @requestString_length order ⟨work, env⟩ carries
  have string : requestString order work = bytesAt work.aoepkt sizeofAoeCfghdr
      ((work.cfg order).stringLength order) := @requestString_eq order ⟨work, env⟩ carries
  have low := valid.1
  have compares : (qaoedProcessCFG order env dev store work).sent ≠ [] ↔
      bytesAt (dev.cfg.mem env.tail) 0 (requestString order work).length =
        requestString order work := by
    rw [match_answered_iff permits (Or.inr command), cfgMatches_partly command, length, string]
  have begins : requestString order work <+: storedString dev ↔
      (requestString order work).length ≤ dev.cfgLen ∧
        bytesAt (dev.cfg.mem env.tail) 0 (requestString order work).length =
          requestString order work := by
    rw [List.prefix_iff_eq_take, ← bytesAt_storedString valid env.tail]
    constructor
    · intro same
      have short := congrArg List.length same
      rw [List.length_take, bytesAt_length] at short
      rw [bytesAt_take _ _ _ (by omega)] at same
      exact ⟨by omega, same.symm⟩
    · rintro ⟨short, same⟩
      rw [bytesAt_take _ _ _ (by omega)]
      exact same.symm
  rw [MatchesBeginning, ContinuesInBuffer, compares, begins, ← not_le]
  tauto

/-- Requests for the configuration string keep its length inside the buffer, and
everything else of the device. -/
theorem served_valid (order : ByteOrder) (dev : Aoedev Aclhdr Iface) (store : List UInt8)
    (requests : List Request) (empty : dev.cfgLen = 0) :
    CfgLenValid ((served (qaoedProcessCFG order)).run ⟨dev, store⟩ requests).dev ∧
      SameSetup dev ((served (qaoedProcessCFG order)).run ⟨dev, store⟩ requests).dev := by
  have start : CfgLenValid dev := by
    rw [CfgLenValid, empty]
    decide
  refine (served (qaoedProcessCFG order)).run_invariant
    (fun server => CfgLenValid server.dev ∧ SameSetup dev server.dev)
    ⟨start, SameSetup.refl dev⟩ ?_
  rintro server request _ ⟨valid, same⟩
  exact ⟨cfgLenValid_handle valid, same.trans (qaoedProcessCFG_sameSetup order _ _ _ _)⟩

/-- In whatever state the requests so far have left the device, a partial match is the
prefix test exactly if the string does not go on in the buffer. -/
theorem matchesBeginning_iff (order : ByteOrder) (dev : Aoedev Aclhdr Iface)
    (store : List UInt8) (earlier : List Request) (request : Request) (empty : dev.cfgLen = 0)
    (command : (request.work.cfg order).command = aoeCfgMatchPartial)
    (permits : Permits dev.cfgracl (request.work.hdr order).hSource)
    (carries : CarriesString order request) :
    MatchesBeginning order request.env
        ((served (qaoedProcessCFG order)).run ⟨dev, store⟩ earlier).dev
        ((served (qaoedProcessCFG order)).run ⟨dev, store⟩ earlier).store request.work ↔
      ¬ ContinuesInBuffer order request.env
        ((served (qaoedProcessCFG order)).run ⟨dev, store⟩ earlier).dev request.work := by
  obtain ⟨valid, same⟩ := served_valid order dev store earlier empty
  rw [← same.cfgracl] at permits
  exact matchesBeginning_step_iff valid command permits carries

/-- A frame that announces no string. -/
def noString (command : UInt8) : Request where
  work :=
    { aoepkt := fun index => if index = 29 then command else 0
      packetLen := 32
      ifentry := ⟨[], none, 1500, 1518, none⟩ }
  env := ⟨true, none, fun _ => 0, fun _ => 0⟩

theorem matchesBeginning_iff_sameString :
    MatchesBeginning .little (twoByteRequest aoeCfgMatchPartial).env
      ((served (qaoedProcessCFG .little)).run oneSector [twoByteRequest aoeCfgSet]).dev
      ((served (qaoedProcessCFG .little)).run oneSector [twoByteRequest aoeCfgSet]).store
      (twoByteRequest aoeCfgMatchPartial).work :=
  (matchesBeginning_iff .little oneSector.dev oneSector.store [twoByteRequest aoeCfgSet]
    (twoByteRequest aoeCfgMatchPartial) rfl rfl (fun _ attached => nomatch attached)
    (Int.le_refl 34)).mpr fun goesOn => absurd goesOn.1 (by decide)

/-- A string is set and then cleared, and a client that looks for it is answered. -/
theorem clearedString_answered :
    CarriesString .little (twoByteRequest aoeCfgMatchPartial) ∧
      ¬ MatchesBeginning .little (twoByteRequest aoeCfgMatchPartial).env
        ((served (qaoedProcessCFG .little)).run oneSector
          [twoByteRequest aoeCfgSet, noString aoeCfgSet]).dev
        ((served (qaoedProcessCFG .little)).run oneSector
          [twoByteRequest aoeCfgSet, noString aoeCfgSet]).store
        (twoByteRequest aoeCfgMatchPartial).work := by
  refine ⟨Int.le_refl 34, ?_⟩
  intro begins
  have permits : Permits ((served (qaoedProcessCFG .little)).run oneSector
      [twoByteRequest aoeCfgSet, noString aoeCfgSet]).dev.cfgracl
      ((twoByteRequest aoeCfgMatchPartial).work.hdr .little).hSource := by
    intro list attached
    cases attached
  have compares : CfgMatches .little (twoByteRequest aoeCfgMatchPartial).env
      ((served (qaoedProcessCFG .little)).run oneSector
        [twoByteRequest aoeCfgSet, noString aoeCfgSet]).dev
      (twoByteRequest aoeCfgMatchPartial).work := by
    decide
  have inside := begins.mp ((match_answered_iff permits (Or.inr rfl)).mpr compares)
  exact absurd inside (by decide)

end Qaoed.Device
