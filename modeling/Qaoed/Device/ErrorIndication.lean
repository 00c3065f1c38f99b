import Qaoed.Device.FreshMemory
import Qaoed.Device.Transfers

/-!
# The error indication of a reply

A reply starts as a copy of the request's header, and flags and error codes are
added to it with `|=`. What the request had in these two bytes is still there when
the reply leaves.
-/

namespace Qaoed.Device

open Qaoed.Library
open Qaoed.Library.ByteOrder
open Qaoed.Frame

variable {Iface : Type}

/-! ## Failures -/

/-- The request is an admitted transfer, and no byte of it is moved. -/
def transferFails (order : ByteOrder) (env : Env) (dev : Aoedev Aclhdr Iface)
    (store : List UInt8) (work : Workentry) : Bool :=
  let request := work.ata order
  (isAtaRead request.cmdstat || isAtaWrite request.cmdstat) && !ataRefused dev request &&
    !(env.seekOk && decide (0 < ioResult env store request))

/-- The code with which a configuration command is turned down. -/
def cfgErrorCode (order : ByteOrder) (dev : Aoedev Aclhdr Iface) (request : AoeCfghdr) :
    Option UInt8 :=
  if isCfgRead request.command then none
  else if request.command = aoeCfgSetIfEmpty then
    if dev.cfgLen = 0 ∧ request.stringLength order ≤ 1024 then none else some aoeErrCfgSet
  else if request.command = aoeCfgSet then
    if request.stringLength order ≤ 1024 then none else some aoeErrBadarg
  else some aoeErrBadcmd

/-- How a request fails: with the code that the handler names, or with zero for a
transfer, where it names none. -/
def aoeError (order : ByteOrder) (env : Env) (dev : Aoedev Aclhdr Iface) (store : List UInt8)
    (work : Workentry) : Option UInt8 :=
  if (work.hdr order).cmd = aoeCmdAta then
    if transferFails order env dev store work then some 0 else none
  else cfgErrorCode order dev (work.cfg order)

/-- The request with the version of the protocol, and neither error flag nor code. -/
def cleaned (work : Workentry) : Workentry :=
  { work with
    aoepkt := fun index =>
      if index = 14 then work.aoepkt 14 &&& 0x0b ||| 0x10
      else if index = 15 then 0
      else work.aoepkt index }

/-- Whether a frame has the error flag, and its error code. -/
def errorOf (sent : Sent) : Bool × UInt8 :=
  (decide (HasFlag sent.aoehdr.verFlags aoeFlagErr), sent.aoehdr.error)

/-- The error indication of a reply is sound: it tells a failed request from another,
with a code of the protocol, and the request has no influence on it. -/
structure ErrorSound (order : ByteOrder) (env : Env) (dev : Aoedev Aclhdr Iface)
    (store : List UInt8) (work : Workentry) (reply : Sent) : Prop where
  version : reply.aoehdr.verFlags &&& 0xf0 = 0x10
  flag : HasFlag reply.aoehdr.verFlags aoeFlagErr ↔ (aoeError order env dev store work).isSome
  code : HasFlag reply.aoehdr.verFlags aoeFlagErr →
    1 ≤ reply.aoehdr.error.toNat ∧ reply.aoehdr.error.toNat ≤ 5
  clear : ¬ HasFlag reply.aoehdr.verFlags aoeFlagErr → reply.aoehdr.error = 0
  independent : (qaoedProcesswork order env dev store (cleaned work)).sent.map errorOf =
    [errorOf reply]

/-- What the request has in the two bytes does no harm to the reply, and a code is named. -/
structure HarmlessHeader (order : ByteOrder) (env : Env) (dev : Aoedev Aclhdr Iface)
    (store : List UInt8) (work : Workentry) : Prop where
  /-- The version is 0 or 1. -/
  version : (work.hdr order).verFlags &&& 0xe0 = 0
  flag : HasFlag (work.hdr order).verFlags aoeFlagErr →
    (aoeError order env dev store work).isSome
  /-- Every bit of the error byte is in the code of the failure, too. -/
  error : (work.hdr order).error ||| (aoeError order env dev store work).getD 0 =
    (aoeError order env dev store work).getD 0
  transfer : aoeError order env dev store work ≠ some 0

/-! ## The two bytes of a reply -/

/-- The flags and the code that a request with this header is answered with. -/
def indicated (hdr : AoeHdr) (failure : Option UInt8) : UInt8 × UInt8 :=
  match failure with
  | none => (hdr.verFlags ||| 0x10 ||| aoeFlagRsp, hdr.error)
  | some code => (hdr.verFlags ||| 0x10 ||| aoeFlagRsp ||| aoeFlagErr, hdr.error ||| code)

/-- The two bytes as they stand in a header. -/
def indication (hdr : AoeHdr) : UInt8 × UInt8 := (hdr.verFlags, hdr.error)

theorem indication_xmit (work : Workentry) (reply : Sent) (pktLen : Nat) :
    indication (qaoedXmit work reply pktLen).aoehdr = indication reply.aoehdr := by
  have source (hdr : AoeHdr) : indication (setSource work hdr) = indication hdr := by
    unfold setSource
    cases work.ifentry.hwaddr with
    | none => rfl
    | some hwaddr => rfl
  cases reply with
  | ata hdr data => exact source hdr.aoehdr
  | cfg hdr data => exact source hdr.aoehdr

section Reply

variable {order : ByteOrder} {env : Env} {dev : Aoedev Aclhdr Iface} {store : List UInt8}
  {work : Workentry} {reply : Sent}

theorem processATA_indication
    (member : reply ∈ (qaoedProcessATA order env dev store work).sent) :
    indication reply.aoehdr = indicated (work.hdr order)
      (if transferFails order env dev store work then some 0 else none) := by
  rcases qaoedProcessATA_cases order env dev store work with
    ⟨refused, exit⟩ | ⟨admitted, transfer, exit⟩ | ⟨_, identify, exit⟩ | ⟨read, write, exit⟩
  all_goals
    rw [exit] at member
    rw [List.mem_singleton.mp member]
  · have succeeds : transferFails order env dev store work = false := by
      unfold transferFails
      dsimp only
      rw [refused, Bool.not_true, Bool.and_false, Bool.false_and]
    rw [succeeds, indication_xmit]
    rfl
  · obtain ⟨data, len, sent⟩ := qaoedTransfer_marked env store work (ataReply order dev work)
      sizeofAoeAtahdr transfer
    have asks : (isAtaRead (work.ata order).cmdstat || isAtaWrite (work.ata order).cmdstat) =
        true := by
      rwa [Bool.or_eq_true]
    have fails : transferFails order env dev store work =
        !decide (env.seekOk = true ∧ 0 < ioResult env store (work.ata order)) := by
      unfold transferFails
      dsimp only
      rw [asks, admitted]
      simp
    rw [sent, indication_xmit, fails]
    by_cases moved : env.seekOk = true ∧ 0 < ioResult env store (work.ata order)
    · rw [if_pos moved, decide_eq_true moved]
      rfl
    · rw [if_neg moved, decide_eq_false moved, Bool.not_false, if_pos rfl, indicated,
        UInt8.or_zero]
      rfl
  · have succeeds : transferFails order env dev store work = false := by
      unfold transferFails
      dsimp only
      rw [identify]
      rfl
    rw [succeeds, qaoedIdentify, indication_xmit]
    rfl
  · have succeeds : transferFails order env dev store work = false := by
      unfold transferFails
      dsimp only
      rw [read, write]
      rfl
    rw [succeeds, indication_xmit]
    rfl

theorem cfgFailed_indication {code : UInt8} {logged : List LogRecord}
    (member : reply ∈ (cfgFailed order dev store work code logged).sent) :
    indication reply.aoehdr = indicated (work.hdr order) (some code) := by
  rw [List.mem_singleton.mp member, indication_xmit]
  rfl

theorem cfgAcknowledged_indication
    (member : reply ∈ (cfgAcknowledged order dev store work).sent) :
    indication reply.aoehdr = indicated (work.hdr order) none := by
  rw [List.mem_singleton.mp member, indication_xmit]
  rfl

theorem processCFG_indication
    (member : reply ∈ (qaoedProcessCFG order env dev store work).sent) :
    indication reply.aoehdr =
      indicated (work.hdr order) (cfgErrorCode order dev (work.cfg order)) := by
  cases refused : cfgRefused dev (work.cfg order) with
  | true =>
      rw [qaoedProcessCFG_refused refused] at member
      cases member
  | false =>
      unfold cfgErrorCode
      cases read : isCfgRead (work.cfg order).command with
      | true =>
          rw [if_pos rfl]
          rcases qaoedProcessCFG_cases order env dev store work with
            exit | ⟨_, _, exit⟩ | ⟨set, _, _, _, _⟩ | ⟨other, _⟩
          · rw [exit] at member
            cases member
          · rw [exit] at member
            rw [List.mem_singleton.mp member, indication_xmit]
            rfl
          · rw [isCfgRead_of_set set] at read
            cases read
          · rw [other] at read
            cases read
      | false =>
          rw [if_neg Bool.false_ne_true]
          by_cases ifEmpty : (work.cfg order).command = aoeCfgSetIfEmpty
          · rw [qaoedProcessCFG_setIfEmpty refused ifEmpty] at member
            rw [if_pos ifEmpty]
            split at member
            · next fits =>
                rw [if_pos fits]
                exact cfgAcknowledged_indication member
            · next kept =>
                rw [if_neg kept]
                exact cfgFailed_indication member
          · rw [if_neg ifEmpty]
            by_cases always : (work.cfg order).command = aoeCfgSet
            · rw [qaoedProcessCFG_set refused always] at member
              rw [if_pos always]
              split at member
              · next fits =>
                  rw [if_pos fits]
                  exact cfgAcknowledged_indication member
              · next tooLong =>
                  rw [if_neg tooLong]
                  exact cfgFailed_indication member
            · have set : isCfgSet (work.cfg order).command = false := by
                rw [isCfgSet, beq_eq_false_iff_ne.mpr ifEmpty, beq_eq_false_iff_ne.mpr always]
                rfl
              rw [qaoedProcessCFG_unknown read set] at member
              rw [if_neg always]
              exact cfgFailed_indication member

/-- A reply has the two bytes of its request, with what belongs to the failure added. -/
theorem reply_indication
    (member : reply ∈ (qaoedProcesswork order env dev store work).sent) :
    indication reply.aoehdr =
      indicated (work.hdr order) (aoeError order env dev store work) := by
  unfold aoeError
  rcases qaoedProcesswork_cases order env dev store work with
    ⟨ata, _, exit⟩ | ⟨cfg, _, exit⟩ | ⟨_, exit⟩
  · rw [exit] at member
    rw [if_pos ata]
    exact processATA_indication member
  · rw [exit] at member
    rw [if_neg (by rw [cfg]; decide)]
    exact processCFG_indication member
  · rw [exit] at member
    cases member

/-! ## The cleaned request -/

theorem cleaned_hdr (order : ByteOrder) (work : Workentry) :
    (cleaned work).hdr order =
      { work.hdr order with
        verFlags := (work.hdr order).verFlags &&& 0x0b ||| 0x10
        error := 0 } := rfl

/-- The bytes behind the common header are the same. -/
theorem cleaned_bytesAt (work : Workentry) {pos : Nat} (behind : 16 ≤ pos) (len : Nat) :
    bytesAt (cleaned work).aoepkt pos len = bytesAt work.aoepkt pos len := by
  apply bytesAt_congr
  intro index _
  unfold cleaned
  dsimp only
  rw [if_neg (by omega), if_neg (by omega)]

theorem cleaned_aoeError (order : ByteOrder) (env : Env) (dev : Aoedev Aclhdr Iface)
    (store : List UInt8) (work : Workentry) :
    aoeError order env dev store (cleaned work) = aoeError order env dev store work := rfl

/-- How many frames a configuration request is answered with. -/
theorem qaoedProcessCFG_sent_length (order : ByteOrder) (env : Env) (dev : Aoedev Aclhdr Iface)
    (store : List UInt8) (work : Workentry) :
    (qaoedProcessCFG order env dev store work).sent.length =
      if cfgRefused dev (work.cfg order) = false ∧ CfgMatches order env dev work then 1 else 0 := by
  cases refused : cfgRefused dev (work.cfg order) with
  | true =>
      rw [qaoedProcessCFG_refused refused, if_neg fun admitted => Bool.noConfusion admitted.1]
      rfl
  | false =>
      by_cases command : (work.cfg order).command = aoeCfgMatch ∨
          (work.cfg order).command = aoeCfgMatchPartial
      · rw [qaoedProcessCFG_matches refused command]
        split
        · next found =>
            rw [if_pos ⟨rfl, found⟩]
            rfl
        · next differs =>
            rw [if_neg fun found => differs found.2]
            rfl
      · obtain ⟨notExactly, notPartly⟩ := not_or.mp command
        rw [if_pos ⟨rfl, fun exactly => absurd exactly notExactly,
          fun partly => absurd partly notPartly⟩]
        cases read : isCfgRead (work.cfg order).command with
        | true =>
            simp only [isCfgRead, Bool.or_eq_true, beq_iff_eq] at read
            have plain := (read.resolve_right notPartly).resolve_right notExactly
            rw [qaoedProcessCFG_read refused plain]
            rfl
        | false =>
            cases set : isCfgSet (work.cfg order).command with
            | true =>
                simp only [isCfgSet, Bool.or_eq_true, beq_iff_eq] at set
                rcases set with ifEmpty | always
                · rw [qaoedProcessCFG_setIfEmpty refused ifEmpty]
                  split <;> rfl
                · rw [qaoedProcessCFG_set refused always]
                  split <;> rfl
            | false =>
                rw [qaoedProcessCFG_unknown read set]
                rfl

/-- The cleaned request is answered if the request is. -/
theorem cleaned_answered (order : ByteOrder) (env : Env) (dev : Aoedev Aclhdr Iface)
    (store : List UInt8) (work : Workentry) :
    (qaoedProcesswork order env dev store (cleaned work)).sent.length =
      (qaoedProcesswork order env dev store work).sent.length := by
  have matching : CfgMatches order env dev (cleaned work) ↔ CfgMatches order env dev work := by
    unfold CfgMatches
    dsimp only
    rw [cleaned_bytesAt work (by decide : 16 ≤ sizeofAoeCfghdr),
      cleaned_bytesAt work (by decide : 16 ≤ sizeofAoeCfghdr)]
    rfl
  have refusal : cfgRefused dev ((cleaned work).cfg order) = cfgRefused dev (work.cfg order) := rfl
  have cmd : ((cleaned work).hdr order).cmd = (work.hdr order).cmd := rfl
  have packetLen : (cleaned work).packetLen = work.packetLen := rfl
  unfold qaoedProcesswork
  dsimp only
  rw [cmd, packetLen]
  split
  · split
    · rw [qaoedProcessATA_sent_length, qaoedProcessATA_sent_length]
    · rfl
  · split
    · split
      · rw [qaoedProcessCFG_sent_length, qaoedProcessCFG_sent_length, refusal]
        simp only [matching]
      · rfl
    · rfl

/-- The cleaned request is answered with the two bytes that its failure makes. -/
theorem cleaned_replies (member : reply ∈ (qaoedProcesswork order env dev store work).sent) :
    ∃ other, (qaoedProcesswork order env dev store (cleaned work)).sent = [other] ∧
      indication other.aoehdr =
        indicated ((cleaned work).hdr order) (aoeError order env dev store work) := by
  have some := List.length_pos_of_mem member
  have few := qaoedProcesswork_sent_length order env dev store work
  rw [← cleaned_answered] at some few
  obtain ⟨other, sent⟩ := List.length_eq_one_iff.mp (Nat.le_antisymm few some)
  refine ⟨other, sent, ?_⟩
  rw [← cleaned_aoeError]
  apply reply_indication
  rw [sent]
  exact List.mem_singleton_self other

end Reply

/-! ## Bits -/

theorem version_indicated : ∀ (failure : Option UInt8) (hdr : AoeHdr),
    (indicated hdr failure).1 &&& 0xf0 = 0x10 ↔ hdr.verFlags &&& 0xe0 = 0 := by
  have succeeded (flags : UInt8) :
      (flags ||| 0x10 ||| aoeFlagRsp) &&& 0xf0 = 0x10 ↔ flags &&& 0xe0 = 0 := by
    revert flags
    apply forall_byte
    decide +kernel
  have failed (flags : UInt8) :
      (flags ||| 0x10 ||| aoeFlagRsp ||| aoeFlagErr) &&& 0xf0 = 0x10 ↔ flags &&& 0xe0 = 0 := by
    revert flags
    apply forall_byte
    decide +kernel
  rintro (_ | code) hdr
  · exact succeeded hdr.verFlags
  · exact failed hdr.verFlags

/-- The flag is set in a reply if it was set in the request, or the request failed. -/
theorem flag_indicated : ∀ (failure : Option UInt8) (hdr : AoeHdr),
    HasFlag (indicated hdr failure).1 aoeFlagErr ↔
      HasFlag hdr.verFlags aoeFlagErr ∨ failure.isSome := by
  have succeeded (flags : UInt8) :
      HasFlag (flags ||| 0x10 ||| aoeFlagRsp) aoeFlagErr ↔ HasFlag flags aoeFlagErr := by
    revert flags
    apply forall_byte
    decide +kernel
  rintro (_ | code) hdr
  · exact (succeeded hdr.verFlags).trans (or_iff_left Bool.false_ne_true).symm
  · exact iff_of_true (hasFlag_or_right _ _) (Or.inr rfl)

theorem error_indicated (failure : Option UInt8) (hdr : AoeHdr) :
    (indicated hdr failure).2 = hdr.error ||| failure.getD 0 := by
  cases failure with
  | none => exact (UInt8.or_zero).symm
  | some code => rfl

theorem flag_cleaned (order : ByteOrder) (work : Workentry) :
    ¬ HasFlag ((cleaned work).hdr order).verFlags aoeFlagErr := by
  have clear : ∀ flags : UInt8, ¬ HasFlag (flags &&& 0x0b ||| 0x10) aoeFlagErr := by
    apply forall_byte
    decide +kernel
  exact clear _

/-! ## Soundness -/

/-- The codes that the handlers name are codes of the protocol. -/
theorem cfgErrorCode_range {order : ByteOrder} {dev : Aoedev Aclhdr Iface} {request : AoeCfghdr}
    {code : UInt8} (failure : cfgErrorCode order dev request = some code) :
    1 ≤ code.toNat ∧ code.toNat ≤ 5 := by
  unfold cfgErrorCode at failure
  split_ifs at failure <;> cases failure <;> decide

theorem aoeError_range {order : ByteOrder} {env : Env} {dev : Aoedev Aclhdr Iface}
    {store : List UInt8} {work : Workentry} {code : UInt8}
    (failure : aoeError order env dev store work = some code) :
    code = 0 ∨ (1 ≤ code.toNat ∧ code.toNat ≤ 5) := by
  unfold aoeError at failure
  split_ifs at failure
  · exact Or.inl (Option.some.inj failure).symm
  · exact Or.inr (cfgErrorCode_range failure)

/-- The indication of a reply is sound exactly if the two bytes of its request do no
harm, and the request is not a transfer that fails. -/
theorem errorSound_iff (order : ByteOrder) (env : Env) (dev : Aoedev Aclhdr Iface)
    (store : List UInt8) (work : Workentry) (reply : Sent)
    (member : reply ∈ (qaoedProcesswork order env dev store work).sent) :
    ErrorSound order env dev store work reply ↔ HarmlessHeader order env dev store work := by
  have bytes := reply_indication member
  obtain ⟨other, answered, cleanBytes⟩ := cleaned_replies member
  have flags : reply.aoehdr.verFlags = _ := congrArg Prod.fst bytes
  have error : reply.aoehdr.error = _ := congrArg Prod.snd bytes
  have cleanFlags : other.aoehdr.verFlags = _ := congrArg Prod.fst cleanBytes
  have cleanError : other.aoehdr.error = _ := congrArg Prod.snd cleanBytes
  have cleanFlag : HasFlag other.aoehdr.verFlags aoeFlagErr ↔
      (aoeError order env dev store work).isSome := by
    rw [cleanFlags, flag_indicated]
    exact or_iff_right (flag_cleaned order work)
  have cleanCode : other.aoehdr.error = (aoeError order env dev store work).getD 0 := by
    rw [cleanError, error_indicated, cleaned_hdr]
    exact UInt8.zero_or
  rw [error_indicated] at error
  have flag : HasFlag reply.aoehdr.verFlags aoeFlagErr ↔
      HasFlag (work.hdr order).verFlags aoeFlagErr ∨
        (aoeError order env dev store work).isSome := by
    rw [flags, flag_indicated]
  constructor
  · intro sound
    have same := sound.independent
    rw [answered] at same
    have code := congrArg Prod.snd (List.singleton_inj.mp same)
    have named : (work.hdr order).error ||| (aoeError order env dev store work).getD 0 =
        (aoeError order env dev store work).getD 0 := by
      rw [← error, ← cleanCode]
      exact code.symm
    refine ⟨?_, fun set => sound.flag.mp (flag.mpr (Or.inl set)), named, ?_⟩
    · rw [← version_indicated (aoeError order env dev store work), ← flags]
      exact sound.version
    · intro transfer
      have range := (sound.code (flag.mpr (Or.inr (by rw [transfer]; rfl)))).1
      rw [error, named, transfer] at range
      exact absurd range (by decide)
  · intro harmless
    have failed : HasFlag reply.aoehdr.verFlags aoeFlagErr ↔
        (aoeError order env dev store work).isSome :=
      flag.trans (or_iff_right_of_imp harmless.flag)
    rw [harmless.error] at error
    refine ⟨?_, failed, ?_, ?_, ?_⟩
    · rw [flags, version_indicated]
      exact harmless.version
    · intro set
      obtain ⟨code, failure⟩ := Option.isSome_iff_exists.mp (failed.mp set)
      have range := (aoeError_range failure).resolve_left fun zero =>
        harmless.transfer (by rw [failure, zero])
      rw [error, failure]
      exact range
    · intro clear
      have succeeded := Option.not_isSome_iff_eq_none.mp (failed.not.mp clear)
      rw [error, succeeded]
      rfl
    · rw [answered, List.map_singleton, errorOf, errorOf, cleanCode, error]
      congr 2
      exact decide_eq_decide.mpr (cleanFlag.trans failed.symm)

/-- A request for the configuration string with a clean header. -/
def cleanRead : Workentry where
  aoepkt := fun index => if index = 19 then aoeCmdCfg else 0
  packetLen := 32
  ifentry := ⟨[], none, 1500, 1518, none⟩

theorem errorSound_iff_cleanRead :
    ∃ reply, (qaoedProcesswork .little ⟨true, none, fun _ => 0, fun _ => 0⟩ oneSector.dev
        oneSector.store cleanRead).sent = [reply] ∧
      ErrorSound .little ⟨true, none, fun _ => 0, fun _ => 0⟩ oneSector.dev oneSector.store
        cleanRead reply := by
  have checked : sizeofAoeCfghdr ≤ sizeT cleanRead.packetLen := by decide
  have answered : (qaoedProcesswork .little ⟨true, none, fun _ => 0, fun _ => 0⟩ oneSector.dev
      oneSector.store cleanRead).sent.length = 1 := by
    rw [qaoedProcesswork_ofCfg rfl checked, qaoedProcessCFG_sent_length]
    exact if_pos ⟨rfl, by decide⟩
  obtain ⟨reply, sent⟩ := List.length_eq_one_iff.mp answered
  refine ⟨reply, sent, ?_⟩
  have member := List.mem_singleton_self reply
  rw [← sent] at member
  refine (errorSound_iff .little ⟨true, none, fun _ => 0, fun _ => 0⟩ oneSector.dev
    oneSector.store cleanRead reply member).mpr ?_
  exact ⟨rfl, fun set => absurd set (by decide), rfl, by decide⟩

/-- The reply to a read that fails has the error flag and no code. -/
theorem failingRead_noCode :
    ∃ reply, (qaoedProcesswork .little ⟨false, none, fun _ => 0, fun _ => 0⟩ oneSector.dev
        oneSector.store failingRead).sent = [reply] ∧
      ¬ ErrorSound .little ⟨false, none, fun _ => 0, fun _ => 0⟩ oneSector.dev oneSector.store
        failingRead reply := by
  have checked : sizeofAoeAtahdr ≤ sizeT failingRead.packetLen := by decide
  have answered : (qaoedProcesswork .little ⟨false, none, fun _ => 0, fun _ => 0⟩ oneSector.dev
      oneSector.store failingRead).sent.length = 1 := by
    rw [qaoedProcesswork_ata rfl checked, qaoedProcessATA_sent_length]
  obtain ⟨reply, sent⟩ := List.length_eq_one_iff.mp answered
  refine ⟨reply, sent, ?_⟩
  intro sound
  have member := List.mem_singleton_self reply
  rw [← sent] at member
  have range := sound.code (sound.flag.mpr rfl)
  have error : reply.aoehdr.error = 0 := congrArg Prod.snd (reply_indication member)
  rw [error] at range
  exact absurd range.1 (by decide)

end Qaoed.Device
