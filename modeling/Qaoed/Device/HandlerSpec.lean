import Qaoed.Device.Handlers

/-!
# What the handlers do

One lemma for each exit of a handler, so that the results about requests and
runs need not unfold the handlers again.
-/

namespace Qaoed.Device

open Qaoed.Library
open Qaoed.Library.ByteOrder
open Qaoed.Frame

variable {Iface : Type}

/-! ## Command classes -/

theorem isAtaWrite_iff (cmdstat : UInt8) :
    isAtaWrite cmdstat = true ↔ cmdstat = winWrite ∨ cmdstat = winWriteExt := by
  rw [isAtaWrite, Bool.or_eq_true, beq_iff_eq, beq_iff_eq]

theorem isAtaRead_of_write {cmdstat : UInt8} (write : isAtaWrite cmdstat = true) :
    isAtaRead cmdstat = false := by
  rcases (isAtaWrite_iff cmdstat).mp write with rfl | rfl <;> decide

theorem ne_identify_of_write {cmdstat : UInt8} (write : isAtaWrite cmdstat = true) :
    (cmdstat == winIdentify) = false := by
  rcases (isAtaWrite_iff cmdstat).mp write with rfl | rfl <;> decide

/-- Reads ask the read list. -/
theorem ataRefused_read (dev : Aoedev Aclhdr Iface) {request : AoeAtahdr}
    (read : isAtaRead request.cmdstat = true) :
    ataRefused dev request = aclRefuses dev.racl request.aoehdr.hSource := by
  rw [ataRefused, read, Bool.true_or, if_pos rfl]

/-- Writes ask the write list. -/
theorem ataRefused_write (dev : Aoedev Aclhdr Iface) {request : AoeAtahdr}
    (write : isAtaWrite request.cmdstat = true) :
    ataRefused dev request = aclRefuses dev.wacl request.aoehdr.hSource := by
  rw [ataRefused, isAtaRead_of_write write, ne_identify_of_write write, write, Bool.or_false,
    if_neg Bool.false_ne_true, if_pos rfl]

/-- The list a read or write request is checked against accepts its source. -/
def AtaPermitted (dev : Aoedev Aclhdr Iface) (request : AoeAtahdr) : Prop :=
  (isAtaRead request.cmdstat = true → Permits dev.racl request.aoehdr.hSource) ∧
    (isAtaWrite request.cmdstat = true → Permits dev.wacl request.aoehdr.hSource)

/-! ## File access -/

theorem Env.moved_le (env : Env) (len : Nat) : env.moved len ≤ len := by
  unfold Env.moved
  cases env.cap with
  | none => exact Nat.zero_le _
  | some cap => exact Nat.min_le_right _ _

theorem qaoedFileWrite_done {env : Env} (store buff : List UInt8) (pos : Nat)
    (seek : env.seekOk = true) (moves : 0 < env.moved buff.length) :
    qaoedFileWrite env store buff pos =
      ((env.moved buff.length : Int), writeAt 0 store pos (buff.take (env.moved buff.length))) := by
  unfold qaoedFileWrite
  rw [if_neg (by rw [seek]; decide)]
  unfold Env.moved at moves ⊢
  cases capped : env.cap with
  | none =>
      rw [capped] at moves
      cases moves
  | some cap =>
      dsimp only
      rw [List.length_take, List.take_eq_take_min]

theorem qaoedFileWrite_failed {env : Env} (store buff : List UInt8) (pos : Nat)
    (fails : env.seekOk = false ∨ env.moved buff.length = 0) :
    (qaoedFileWrite env store buff pos).1 ≤ 0 ∧ (qaoedFileWrite env store buff pos).2 = store := by
  unfold qaoedFileWrite
  by_cases seek : env.seekOk = false
  · rw [if_pos seek]
    exact ⟨(by decide : (-1 : Int) ≤ 0), rfl⟩
  · rw [if_neg seek]
    have still := fails.resolve_left seek
    unfold Env.moved at still
    cases capped : env.cap with
    | none => exact ⟨(by decide : (-1 : Int) ≤ 0), rfl⟩
    | some cap =>
        rw [capped] at still
        dsimp only at still ⊢
        have nothing : buff.take cap = [] := by
          rw [← List.length_eq_zero_iff, List.length_take, still]
        rw [nothing]
        exact ⟨Int.le_refl _, rfl⟩

theorem qaoedFileRead_done {env : Env} {store : List UInt8} (buff : List UInt8) {len pos : Nat}
    (seek : env.seekOk = true) (moves : slice store pos (env.moved len) ≠ []) :
    qaoedFileRead env store buff len pos =
      (((slice store pos (env.moved len)).length : Int),
        slice store pos (env.moved len) ++ buff.drop (slice store pos (env.moved len)).length) := by
  unfold qaoedFileRead
  rw [if_neg (by rw [seek]; decide)]
  unfold Env.moved at moves ⊢
  cases capped : env.cap with
  | none =>
      rw [capped] at moves
      exact absurd (slice_zero store pos) moves
  | some cap => rfl

theorem qaoedFileRead_failed {env : Env} {store : List UInt8} (buff : List UInt8) {len pos : Nat}
    (fails : env.seekOk = false ∨ slice store pos (env.moved len) = []) :
    (qaoedFileRead env store buff len pos).1 ≤ 0 := by
  unfold qaoedFileRead
  by_cases seek : env.seekOk = false
  · rw [if_pos seek]
    exact (by decide : (-1 : Int) ≤ 0)
  · rw [if_neg seek]
    have still := fails.resolve_left seek
    unfold Env.moved at still
    cases capped : env.cap with
    | none => exact (by decide : (-1 : Int) ≤ 0)
    | some cap =>
        rw [capped] at still
        dsimp only at still ⊢
        rw [still]
        exact Int.le_refl _

/-! ## Transmission -/

/-- A frame whose length is announced is sent whole. -/
theorem qaoedXmit_ata (work : Workentry) (hdr : AoeAtahdr) (data : List UInt8) :
    qaoedXmit work (.ata hdr data) (sizeofAoeAtahdr + data.length) =
      .ata { hdr with aoehdr := setSource work hdr.aoehdr } data := by
  rw [qaoedXmit, Nat.add_sub_cancel_left, List.take_length]

theorem qaoedXmit_cfg (work : Workentry) (hdr : AoeCfghdr) (data : List UInt8) :
    qaoedXmit work (.cfg hdr data) (sizeofAoeCfghdr + data.length) =
      .cfg { hdr with aoehdr := setSource work hdr.aoehdr } data := by
  rw [qaoedXmit, Nat.add_sub_cancel_left, List.take_length]

/-- What goes to the socket depends on the request's interface only. -/
theorem qaoedXmit_congr {work work' : Workentry} (ifentry : work.ifentry = work'.ifentry)
    (reply : Sent) (pktLen : Nat) : qaoedXmit work reply pktLen = qaoedXmit work' reply pktLen := by
  unfold qaoedXmit setSource
  rw [ifentry]

/-! ## Exits of `qaoed_transfer` -/

/-- The bytes of the store that the system delivers to a read request. -/
def fetched (env : Env) (store : List UInt8) (request : AoeAtahdr) : List UInt8 :=
  slice store (qaoedLBA request * 512) (env.moved (transferLen request))

section Transfer

variable {env : Env} {store : List UInt8} {work : Workentry} {request reply : AoeAtahdr}
  {replyLen : Nat}

theorem qaoedTransfer_write_done (write : isAtaWrite request.cmdstat = true)
    (seek : env.seekOk = true) (moves : 0 < env.moved (transferLen request)) :
    qaoedTransfer env store work request reply replyLen =
      (writeAt 0 store (qaoedLBA request * 512)
        (bytesAt work.aoepkt sizeofAoeAtahdr (env.moved (transferLen request))),
        qaoedXmit work (.ata reply []) replyLen) := by
  have done := qaoedFileWrite_done store
    (bytesAt work.aoepkt sizeofAoeAtahdr (transferLen request))
    (qaoedLBA request * 512) seek (by rwa [bytesAt_length])
  rw [bytesAt_length, bytesAt_take _ _ _ (env.moved_le _)] at done
  unfold qaoedTransfer
  rw [isAtaRead_of_write write, if_neg Bool.false_ne_true, if_pos write, done]
  dsimp only
  rw [if_neg (by omega)]

theorem qaoedTransfer_write_failed (write : isAtaWrite request.cmdstat = true)
    (fails : env.seekOk = false ∨ env.moved (transferLen request) = 0) :
    qaoedTransfer env store work request reply replyLen =
      (store, qaoedXmit work (.ata (markFailed reply) []) replyLen) := by
  obtain ⟨negative, same⟩ := qaoedFileWrite_failed store
    (bytesAt work.aoepkt sizeofAoeAtahdr (transferLen request))
    (qaoedLBA request * 512) (by rwa [bytesAt_length])
  unfold qaoedTransfer
  rw [isAtaRead_of_write write, if_neg Bool.false_ne_true, if_pos write]
  dsimp only
  rw [if_pos negative, same]

theorem qaoedTransfer_read_store (read : isAtaRead request.cmdstat = true) :
    (qaoedTransfer env store work request reply replyLen).1 = store := by
  unfold qaoedTransfer
  rw [if_pos read]
  dsimp only
  split <;> rfl

theorem qaoedTransfer_read_done (read : isAtaRead request.cmdstat = true)
    (seek : env.seekOk = true) (moves : fetched env store request ≠ []) :
    qaoedTransfer env store work request reply replyLen =
      (store, qaoedXmit work (.ata reply (fetched env store request ++
        (bytesAt env.heap 0 (transferLen request)).drop (fetched env store request).length))
        (replyLen + transferLen request)) := by
  have done := qaoedFileRead_done (bytesAt env.heap 0 (transferLen request)) seek moves
  have positive := List.length_pos_of_ne_nil moves
  unfold fetched at positive ⊢
  unfold qaoedTransfer
  rw [if_pos read]
  dsimp only
  rw [done]
  dsimp only
  rw [if_neg (by omega)]

theorem qaoedTransfer_read_failed (work : Workentry) (reply : AoeAtahdr) (replyLen : Nat)
    (read : isAtaRead request.cmdstat = true)
    (fails : env.seekOk = false ∨ fetched env store request = []) :
    ∃ data, qaoedTransfer env store work request reply replyLen =
      (store, qaoedXmit work (.ata (markFailed reply) data) (replyLen + transferLen request)) := by
  have negative := qaoedFileRead_failed (bytesAt env.heap 0 (transferLen request)) fails
  unfold qaoedTransfer
  rw [if_pos read]
  dsimp only
  rw [if_pos negative]
  exact ⟨_, rfl⟩

/-- The reply is sent as it was, or marked as failed. -/
theorem qaoedTransfer_xmit (env : Env) (store : List UInt8) (work : Workentry)
    (request reply : AoeAtahdr) (replyLen : Nat) :
    ∃ hdr data len, (qaoedTransfer env store work request reply replyLen).2 =
        qaoedXmit work (.ata hdr data) len ∧
      (hdr = reply ∨ hdr = markFailed reply ∨
        hdr = markFailed { reply with aoehdr.error := reply.aoehdr.error ||| aoeErrBadarg }) := by
  unfold qaoedTransfer
  split
  · dsimp only
    split
    · exact ⟨_, _, _, rfl, Or.inr (Or.inl rfl)⟩
    · exact ⟨_, _, _, rfl, Or.inl rfl⟩
  · split
    · dsimp only
      split
      · exact ⟨_, _, _, rfl, Or.inr (Or.inl rfl)⟩
      · exact ⟨_, _, _, rfl, Or.inl rfl⟩
    · exact ⟨_, _, _, rfl, Or.inr (Or.inr rfl)⟩

end Transfer

/-! ## Exits of `qaoed_processATA` -/

section ProcessATA

variable {order : ByteOrder} {env : Env} {dev : Aoedev Aclhdr Iface} {store : List UInt8}
  {work : Workentry}

theorem qaoedProcessATA_refused (refused : ataRefused dev (work.ata order) = true) :
    qaoedProcessATA order env dev store work = ataErrorXmit order dev store work := by
  unfold qaoedProcessATA
  exact if_pos refused

theorem qaoedProcessATA_transfer (permitted : ataRefused dev (work.ata order) = false)
    (transfer : isAtaRead (work.ata order).cmdstat = true ∨
      isAtaWrite (work.ata order).cmdstat = true) :
    qaoedProcessATA order env dev store work =
      ⟨dev,
        (qaoedTransfer env store work (work.ata order) (ataReply order dev work)
          sizeofAoeAtahdr).1,
        [(qaoedTransfer env store work (work.ata order) (ataReply order dev work)
          sizeofAoeAtahdr).2], [], 1⟩ := by
  unfold qaoedProcessATA
  dsimp only
  rw [permitted, if_neg Bool.false_ne_true, if_pos (by rwa [Bool.or_eq_true])]

theorem qaoedProcessATA_identify (permitted : ataRefused dev (work.ata order) = false)
    (identify : (work.ata order).cmdstat = winIdentify) :
    qaoedProcessATA order env dev store work =
      ⟨dev, store, [qaoedIdentify order dev work (ataReply order dev work)], [], 1⟩ := by
  unfold qaoedProcessATA
  dsimp only
  rw [permitted, identify]
  rfl

theorem qaoedProcessATA_unknown (read : isAtaRead (work.ata order).cmdstat = false)
    (write : isAtaWrite (work.ata order).cmdstat = false)
    (identify : (work.ata order).cmdstat ≠ winIdentify) :
    qaoedProcessATA order env dev store work = ataErrorXmit order dev store work := by
  unfold qaoedProcessATA
  dsimp only
  rw [read, write, beq_eq_false_iff_ne.mpr identify]
  split <;> rfl

/-- Every exit of `qaoed_processATA`. -/
theorem qaoedProcessATA_cases (order : ByteOrder) (env : Env) (dev : Aoedev Aclhdr Iface)
    (store : List UInt8) (work : Workentry) :
    (ataRefused dev (work.ata order) = true ∧
      qaoedProcessATA order env dev store work = ataErrorXmit order dev store work) ∨
    (ataRefused dev (work.ata order) = false ∧
      (isAtaRead (work.ata order).cmdstat = true ∨ isAtaWrite (work.ata order).cmdstat = true) ∧
      qaoedProcessATA order env dev store work =
        ⟨dev,
          (qaoedTransfer env store work (work.ata order) (ataReply order dev work)
            sizeofAoeAtahdr).1,
          [(qaoedTransfer env store work (work.ata order) (ataReply order dev work)
            sizeofAoeAtahdr).2], [], 1⟩) ∨
    (ataRefused dev (work.ata order) = false ∧ (work.ata order).cmdstat = winIdentify ∧
      qaoedProcessATA order env dev store work =
        ⟨dev, store, [qaoedIdentify order dev work (ataReply order dev work)], [], 1⟩) ∨
    (isAtaRead (work.ata order).cmdstat = false ∧ isAtaWrite (work.ata order).cmdstat = false ∧
      qaoedProcessATA order env dev store work = ataErrorXmit order dev store work) := by
  cases refused : ataRefused dev (work.ata order) with
  | true => exact Or.inl ⟨rfl, qaoedProcessATA_refused refused⟩
  | false =>
      right
      by_cases transfer : isAtaRead (work.ata order).cmdstat = true ∨
          isAtaWrite (work.ata order).cmdstat = true
      · exact Or.inl ⟨rfl, transfer, qaoedProcessATA_transfer refused transfer⟩
      · right
        simp only [not_or, Bool.not_eq_true] at transfer
        by_cases identify : (work.ata order).cmdstat = winIdentify
        · exact Or.inl ⟨rfl, identify, qaoedProcessATA_identify refused identify⟩
        · exact Or.inr ⟨transfer.1, transfer.2,
            qaoedProcessATA_unknown transfer.1 transfer.2 identify⟩

/-- The header of a successful reply. -/
def sentHdr (order : ByteOrder) (dev : Aoedev Aclhdr Iface) (work : Workentry) : AoeAtahdr :=
  { ataReply order dev work with aoehdr := setSource work (ataReply order dev work).aoehdr }

/-- The one frame sent carries the error status. -/
def AnsweredWithError (sent : List Sent) : Prop :=
  ∃ hdr data, sent = [.ata hdr data] ∧ HasFlag hdr.cmdstat errStat

theorem not_answeredWithError (order : ByteOrder) (dev : Aoedev Aclhdr Iface) (work : Workentry)
    (data : List UInt8) : ¬ AnsweredWithError [.ata (sentHdr order dev work) data] := by
  rintro ⟨hdr, _, sent, error⟩
  cases sent
  exact absurd error (by decide : ¬ HasFlag readyStat errStat)

theorem ataErrorXmit_answer (order : ByteOrder) (dev : Aoedev Aclhdr Iface) (store : List UInt8)
    (work : Workentry) : AnsweredWithError (ataErrorXmit order dev store work).sent :=
  ⟨_, _, rfl, (by decide : HasFlag (errStat ||| readyStat) errStat)⟩

theorem markFailed_answer (work : Workentry) (reply : AoeAtahdr) (data : List UInt8)
    (replyLen : Nat) :
    AnsweredWithError [qaoedXmit work (.ata (markFailed reply) data) replyLen] :=
  ⟨_, _, rfl, hasFlag_or_right _ _⟩

/-- A write that is refused or moves no byte changes nothing and is answered with an error. -/
theorem qaoedProcessATA_write_blocked (store : List UInt8)
    (write : isAtaWrite (work.ata order).cmdstat = true)
    (blocked : aclRefuses dev.wacl (work.hdr order).hSource = true ∨ env.seekOk = false ∨
      env.moved (transferLen (work.ata order)) = 0) :
    (qaoedProcessATA order env dev store work).dev = dev ∧
      (qaoedProcessATA order env dev store work).store = store ∧
      AnsweredWithError (qaoedProcessATA order env dev store work).sent := by
  have asks := ataRefused_write dev write
  cases refused : ataRefused dev (work.ata order) with
  | true =>
      rw [qaoedProcessATA_refused refused]
      exact ⟨rfl, rfl, ataErrorXmit_answer order dev store work⟩
  | false =>
      have fails : env.seekOk = false ∨ env.moved (transferLen (work.ata order)) = 0 := by
        refine blocked.resolve_left ?_
        intro refuses
        rw [asks, Workentry.ata_aoehdr, refuses] at refused
        cases refused
      rw [qaoedProcessATA_transfer refused (Or.inr write), qaoedTransfer_write_failed write fails]
      exact ⟨rfl, rfl, markFailed_answer _ _ _ _⟩

/-- Any other write stores what the system takes of the bytes behind the header. -/
theorem qaoedProcessATA_write_done (write : isAtaWrite (work.ata order).cmdstat = true)
    (permits : aclRefuses dev.wacl (work.hdr order).hSource = false) (seek : env.seekOk = true)
    (moves : 0 < env.moved (transferLen (work.ata order))) :
    qaoedProcessATA order env dev store work =
      ⟨dev,
        writeAt 0 store (qaoedLBA (work.ata order) * 512)
          (bytesAt work.aoepkt sizeofAoeAtahdr (env.moved (transferLen (work.ata order)))),
        [.ata (sentHdr order dev work) []], [], 1⟩ := by
  have admitted : ataRefused dev (work.ata order) = false := by
    rw [ataRefused_write dev write]
    exact permits
  rw [qaoedProcessATA_transfer admitted (Or.inr write), qaoedTransfer_write_done write seek moves]
  rfl

/-- A read that is refused or delivers no byte is answered with an error. -/
theorem qaoedProcessATA_read_blocked (read : isAtaRead (work.ata order).cmdstat = true)
    (blocked : aclRefuses dev.racl (work.hdr order).hSource = true ∨ env.seekOk = false ∨
      fetched env store (work.ata order) = []) :
    (qaoedProcessATA order env dev store work).dev = dev ∧
      (qaoedProcessATA order env dev store work).store = store ∧
      AnsweredWithError (qaoedProcessATA order env dev store work).sent := by
  have asks := ataRefused_read dev read
  cases refused : ataRefused dev (work.ata order) with
  | true =>
      rw [qaoedProcessATA_refused refused]
      exact ⟨rfl, rfl, ataErrorXmit_answer order dev store work⟩
  | false =>
      have fails : env.seekOk = false ∨ fetched env store (work.ata order) = [] := by
        refine blocked.resolve_left ?_
        intro refuses
        rw [asks, Workentry.ata_aoehdr, refuses] at refused
        cases refused
      obtain ⟨data, failed⟩ := qaoedTransfer_read_failed work (ataReply order dev work)
        sizeofAoeAtahdr read fails
      rw [qaoedProcessATA_transfer refused (Or.inl read), failed]
      exact ⟨rfl, rfl, markFailed_answer _ _ _ _⟩

/-- Any other read sends what the system delivers, filled up from fresh memory. -/
theorem qaoedProcessATA_read_done (read : isAtaRead (work.ata order).cmdstat = true)
    (permits : aclRefuses dev.racl (work.hdr order).hSource = false) (seek : env.seekOk = true)
    (moves : fetched env store (work.ata order) ≠ []) :
    qaoedProcessATA order env dev store work =
      ⟨dev, store,
        [.ata (sentHdr order dev work) (fetched env store (work.ata order) ++
          (bytesAt env.heap 0 (transferLen (work.ata order))).drop
            (fetched env store (work.ata order)).length)], [], 1⟩ := by
  have admitted : ataRefused dev (work.ata order) = false := by
    rw [ataRefused_read dev read]
    exact permits
  have short : (fetched env store (work.ata order)).length ≤ transferLen (work.ata order) := by
    rw [fetched, slice_length]
    exact Nat.le_trans (Nat.min_le_left _ _) (env.moved_le _)
  have whole : (fetched env store (work.ata order) ++
      (bytesAt env.heap 0 (transferLen (work.ata order))).drop
        (fetched env store (work.ata order)).length).length = transferLen (work.ata order) := by
    rw [List.length_append, List.length_drop, bytesAt_length]
    omega
  have sent := qaoedXmit_ata work (ataReply order dev work) (fetched env store (work.ata order) ++
    (bytesAt env.heap 0 (transferLen (work.ata order))).drop
      (fetched env store (work.ata order)).length)
  rw [whole] at sent
  rw [qaoedProcessATA_transfer admitted (Or.inl read), qaoedTransfer_read_done read seek moves,
    sent, sentHdr]

end ProcessATA

/-! ## Exits of `qaoed_processCFG` -/

/-- The commands that store a string. -/
def isCfgSet (command : UInt8) : Bool := command == aoeCfgSetIfEmpty || command == aoeCfgSet

/-- The commands whose reply carries the stored string. -/
def isCfgRead (command : UInt8) : Bool :=
  command == aoeCfgRead || command == aoeCfgMatch || command == aoeCfgMatchPartial

theorem isCfgRead_of_set {command : UInt8} (set : isCfgSet command = true) :
    isCfgRead command = false := by
  simp only [isCfgSet, Bool.or_eq_true, beq_iff_eq] at set
  rcases set with rfl | rfl <;> rfl

/-- Commands that send the string ask the configuration read list. -/
theorem cfgRefused_read (dev : Aoedev Aclhdr Iface) {request : AoeCfghdr}
    (read : isCfgRead request.command = true) :
    cfgRefused dev request = aclRefuses dev.cfgracl request.aoehdr.hSource := by
  rw [isCfgRead] at read
  rw [cfgRefused, if_pos read]

/-- Commands that store a string ask the configuration set list. -/
theorem cfgRefused_set (dev : Aoedev Aclhdr Iface) {request : AoeCfghdr}
    (set : isCfgSet request.command = true) :
    cfgRefused dev request = aclRefuses dev.cfgsetacl request.aoehdr.hSource := by
  have notRead := isCfgRead_of_set set
  rw [isCfgRead] at notRead
  rw [isCfgSet] at set
  rw [cfgRefused, notRead, if_neg Bool.false_ne_true, if_pos set]

section ProcessCFG

variable {order : ByteOrder} {env : Env} {dev : Aoedev Aclhdr Iface} {store : List UInt8}
  {work : Workentry}

theorem qaoedProcessCFG_refused (refused : cfgRefused dev (work.cfg order) = true) :
    qaoedProcessCFG order env dev store work = cfgNoXmit dev store := by
  unfold qaoedProcessCFG
  exact if_pos refused

theorem qaoedProcessCFG_read (permitted : cfgRefused dev (work.cfg order) = false)
    (command : (work.cfg order).command = aoeCfgRead) :
    qaoedProcessCFG order env dev store work = cfgWithString order env dev store work := by
  unfold qaoedProcessCFG
  dsimp only
  rw [permitted, command]
  rfl

/-- A matching command sends the string or nothing. -/
theorem qaoedProcessCFG_match (permitted : cfgRefused dev (work.cfg order) = false)
    (command : (work.cfg order).command = aoeCfgMatch ∨
      (work.cfg order).command = aoeCfgMatchPartial) :
    qaoedProcessCFG order env dev store work = cfgWithString order env dev store work ∨
      qaoedProcessCFG order env dev store work = cfgNoXmit dev store := by
  unfold qaoedProcessCFG
  dsimp only
  rw [permitted, if_neg Bool.false_ne_true]
  rcases command with exactly | partly
  · rw [exactly, if_neg (by decide), if_pos (by decide)]
    split
    · exact Or.inl rfl
    · exact Or.inr rfl
  · rw [partly, if_neg (by decide), if_neg (by decide), if_pos (by decide)]
    split
    · exact Or.inl rfl
    · exact Or.inr rfl

theorem qaoedProcessCFG_setIfEmpty (permitted : cfgRefused dev (work.cfg order) = false)
    (command : (work.cfg order).command = aoeCfgSetIfEmpty) :
    qaoedProcessCFG order env dev store work =
      if dev.cfgLen = 0 ∧ (work.cfg order).stringLength order ≤ 1024 then
        cfgAcknowledged order dev store work
      else cfgFailed order dev store work aoeErrCfgSet [] := by
  unfold qaoedProcessCFG
  dsimp only
  rw [permitted, command]
  rfl

theorem qaoedProcessCFG_set (permitted : cfgRefused dev (work.cfg order) = false)
    (command : (work.cfg order).command = aoeCfgSet) :
    qaoedProcessCFG order env dev store work =
      if (work.cfg order).stringLength order ≤ 1024 then cfgAcknowledged order dev store work
      else cfgFailed order dev store work aoeErrBadarg [] := by
  unfold qaoedProcessCFG
  dsimp only
  rw [permitted, command]
  rfl

theorem qaoedProcessCFG_unknown (read : isCfgRead (work.cfg order).command = false)
    (set : isCfgSet (work.cfg order).command = false) :
    qaoedProcessCFG order env dev store work =
      cfgFailed order dev store work aoeErrBadcmd
        [.unknownCfgCommand (work.cfg order).command] := by
  simp only [isCfgRead, isCfgSet, Bool.or_eq_false_iff] at read set
  obtain ⟨⟨notRead, notMatch⟩, notPartial⟩ := read
  obtain ⟨notIfEmpty, notSet⟩ := set
  unfold qaoedProcessCFG cfgRefused
  dsimp only
  rw [notRead, notMatch, notPartial, notIfEmpty, notSet]
  rfl

/-- Every exit of `qaoed_processCFG`. -/
theorem qaoedProcessCFG_cases (order : ByteOrder) (env : Env) (dev : Aoedev Aclhdr Iface)
    (store : List UInt8) (work : Workentry) :
    qaoedProcessCFG order env dev store work = cfgNoXmit dev store ∨
    (isCfgRead (work.cfg order).command = true ∧ cfgRefused dev (work.cfg order) = false ∧
      qaoedProcessCFG order env dev store work = cfgWithString order env dev store work) ∨
    (isCfgSet (work.cfg order).command = true ∧ cfgRefused dev (work.cfg order) = false ∧
      (work.cfg order).stringLength order ≤ 1024 ∧
      ((work.cfg order).command = aoeCfgSetIfEmpty → dev.cfgLen = 0) ∧
      qaoedProcessCFG order env dev store work = cfgAcknowledged order dev store work) ∨
    (isCfgRead (work.cfg order).command = false ∧ ∃ code logged,
      qaoedProcessCFG order env dev store work =
        cfgFailed order dev store work code logged) := by
  cases refused : cfgRefused dev (work.cfg order) with
  | true => exact Or.inl (qaoedProcessCFG_refused refused)
  | false =>
      cases read : isCfgRead (work.cfg order).command with
      | true =>
          have command := read
          simp only [isCfgRead, Bool.or_eq_true, beq_iff_eq] at command
          rcases command with (plain | exactly) | partly
          · exact Or.inr (Or.inl ⟨rfl, rfl, qaoedProcessCFG_read refused plain⟩)
          · rcases qaoedProcessCFG_match refused (Or.inl exactly) with sends | silent
            · exact Or.inr (Or.inl ⟨rfl, rfl, sends⟩)
            · exact Or.inl silent
          · rcases qaoedProcessCFG_match refused (Or.inr partly) with sends | silent
            · exact Or.inr (Or.inl ⟨rfl, rfl, sends⟩)
            · exact Or.inl silent
      | false =>
          right
          right
          cases set : isCfgSet (work.cfg order).command with
          | true =>
              have command := set
              simp only [isCfgSet, Bool.or_eq_true, beq_iff_eq] at command
              rcases command with ifEmpty | always
              · rw [qaoedProcessCFG_setIfEmpty refused ifEmpty]
                split
                · next accepted => exact Or.inl ⟨rfl, rfl, accepted.2, fun _ => accepted.1, rfl⟩
                · exact Or.inr ⟨rfl, _, _, rfl⟩
              · rw [qaoedProcessCFG_set refused always]
                split
                · next fits =>
                    refine Or.inl ⟨rfl, rfl, fits, ?_, rfl⟩
                    intro other
                    rw [always] at other
                    cases other
                · exact Or.inr ⟨rfl, _, _, rfl⟩
          | false => exact Or.inr ⟨rfl, _, _, qaoedProcessCFG_unknown read set⟩

end ProcessCFG

/-! ## What every reply takes over from its request -/

structure IsReply (order : ByteOrder) (dev : Aoedev Aclhdr Iface) (work : Workentry)
    (hdr : AoeHdr) : Prop where
  hDest : hdr.hDest = (work.hdr order).hSource
  hProto : hdr.hProto = (work.hdr order).hProto
  response : HasFlag hdr.verFlags aoeFlagRsp
  shelf : hdr.shelf = htons order dev.shelf
  slot : hdr.slot = dev.slot
  cmd : hdr.cmd = (work.hdr order).cmd
  tag : hdr.tag = (work.hdr order).tag

section Reply

variable {order : ByteOrder} {dev : Aoedev Aclhdr Iface} {work : Workentry} {hdr : AoeHdr}

theorem isReply_createpkt (order : ByteOrder) (dev : Aoedev Aclhdr Iface) (work : Workentry) :
    IsReply order dev work (qaoedCreatepkt order dev work) where
  hDest := rfl
  hProto := rfl
  response := hasFlag_or_right _ _
  shelf := rfl
  slot := rfl
  cmd := rfl
  tag := rfl

theorem IsReply.setSource (reply : IsReply order dev work hdr) :
    IsReply order dev work (setSource work hdr) := by
  unfold Device.setSource
  cases work.ifentry.hwaddr with
  | none => exact reply
  | some hwaddr =>
      exact ⟨reply.hDest, reply.hProto, reply.response, reply.shelf, reply.slot, reply.cmd,
        reply.tag⟩

theorem IsReply.mark (reply : IsReply order dev work hdr) (flag error : UInt8) :
    IsReply order dev work { hdr with verFlags := hdr.verFlags ||| flag, error := error } :=
  ⟨reply.hDest, reply.hProto, reply.response.or flag, reply.shelf, reply.slot, reply.cmd,
    reply.tag⟩

theorem isReply_xmit (reply : Sent) (pktLen : Nat) (isReply : IsReply order dev work reply.aoehdr) :
    IsReply order dev work (qaoedXmit work reply pktLen).aoehdr := by
  cases reply with
  | ata hdr data => exact isReply.setSource
  | cfg hdr data => exact isReply.setSource

/-- Whatever answers an ATA request goes through `qaoed_xmit`. -/
theorem xmit_of_processATA {env : Env} {store : List UInt8} {sent : Sent}
    (member : sent ∈ (qaoedProcessATA order env dev store work).sent) :
    ∃ hdr data len, sent = qaoedXmit work (.ata hdr data) len := by
  rcases qaoedProcessATA_cases order env dev store work with
    ⟨_, exit⟩ | ⟨_, _, exit⟩ | ⟨_, _, exit⟩ | ⟨_, _, exit⟩
  all_goals
    rw [exit] at member
    have frame := List.mem_singleton.mp member
  · exact ⟨_, _, _, frame⟩
  · obtain ⟨hdr, data, len, xmit, _⟩ := qaoedTransfer_xmit env store work (work.ata order)
      (ataReply order dev work) sizeofAoeAtahdr
    exact ⟨_, _, _, frame.trans xmit⟩
  · unfold qaoedIdentify at frame
    exact ⟨_, _, _, frame⟩
  · exact ⟨_, _, _, frame⟩

theorem xmit_of_processCFG {env : Env} {store : List UInt8} {sent : Sent}
    (member : sent ∈ (qaoedProcessCFG order env dev store work).sent) :
    ∃ hdr data len, sent = qaoedXmit work (.cfg hdr data) len := by
  rcases qaoedProcessCFG_cases order env dev store work with
    exit | ⟨_, _, exit⟩ | ⟨_, _, _, _, exit⟩ | ⟨_, _, _, exit⟩
  all_goals rw [exit] at member
  · cases member
  · exact ⟨_, _, _, List.mem_singleton.mp member⟩
  · exact ⟨_, _, _, List.mem_singleton.mp member⟩
  · exact ⟨_, _, _, List.mem_singleton.mp member⟩

theorem isReply_transfer {env : Env} {store : List UInt8} {request reply : AoeAtahdr}
    {replyLen : Nat} (isReply : IsReply order dev work reply.aoehdr) :
    IsReply order dev work (qaoedTransfer env store work request reply replyLen).2.aoehdr := by
  obtain ⟨hdr, data, len, xmit, marked⟩ := qaoedTransfer_xmit env store work request reply replyLen
  rw [xmit]
  apply isReply_xmit
  rcases marked with rfl | rfl | rfl
  · exact isReply
  · exact isReply.mark aoeFlagErr _
  · exact isReply.mark aoeFlagErr _

theorem isReply_processATA {env : Env} {store : List UInt8} {sent : Sent}
    (member : sent ∈ (qaoedProcessATA order env dev store work).sent) :
    IsReply order dev work sent.aoehdr := by
  have start := isReply_createpkt order dev work
  rcases qaoedProcessATA_cases order env dev store work with
    ⟨_, exit⟩ | ⟨_, _, exit⟩ | ⟨_, _, exit⟩ | ⟨_, _, exit⟩
  all_goals
    rw [exit] at member
    rw [List.mem_singleton.mp member]
  · apply isReply_xmit
    exact start
  · exact isReply_transfer start
  · unfold qaoedIdentify
    apply isReply_xmit
    exact start
  · apply isReply_xmit
    exact start

theorem isReply_processCFG {env : Env} {store : List UInt8} {sent : Sent}
    (member : sent ∈ (qaoedProcessCFG order env dev store work).sent) :
    IsReply order dev work sent.aoehdr := by
  have start := isReply_createpkt order dev work
  rcases qaoedProcessCFG_cases order env dev store work with
    exit | ⟨_, _, exit⟩ | ⟨_, _, _, _, exit⟩ | ⟨_, code, logged, exit⟩
  · rw [exit] at member
    cases member
  all_goals
    rw [exit] at member
    rw [List.mem_singleton.mp member]
  · apply isReply_xmit
    exact start
  · apply isReply_xmit
    exact start
  · apply isReply_xmit
    exact start.mark aoeFlagErr ((cfgReply order dev work).aoehdr.error ||| code)

/-- Every frame that handling a request sends replies to that request. -/
theorem isReply_processwork {env : Env} {store : List UInt8} {sent : Sent}
    (member : sent ∈ (qaoedProcesswork order env dev store work).sent) :
    IsReply order dev work sent.aoehdr := by
  unfold qaoedProcesswork at member
  dsimp only at member
  split at member
  · split at member
    · exact isReply_processATA member
    · cases member
  · split at member
    · split at member
      · exact isReply_processCFG member
      · cases member
    · cases member

end Reply

end Qaoed.Device
