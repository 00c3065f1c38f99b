import Qaoed.Device.State

/-!
# Request handlers

The handlers of `devices.c` with the `read`, `write` and `lseek` they rest on.
Allocation succeeds here. What else the operating system and the allocator
answer while one request is handled is a parameter of the handler.
-/

namespace Qaoed.Device

open Qaoed.Library
open Qaoed.Library.ByteOrder
open Qaoed.Frame

/-- The answers of the environment to one request. -/
structure Env where
  /-- Whether `lseek` succeeds. -/
  seekOk : Bool
  /-- The most bytes the following `read` or `write` moves; `none` if it fails. -/
  cap : Option Nat
  /-- What the memory that `realloc` adds held before. -/
  heap : Mem
  /-- What lies behind `dev->cfg` in memory. -/
  tail : Mem

/-- How many of `len` bytes the operating system moves. -/
def Env.moved (env : Env) (len : Nat) : Nat :=
  match env.cap with
  | none => 0
  | some cap => min cap len

/-- Whether a transfer of `len` bytes is carried out in full. -/
def Env.Complete (env : Env) (len : Nat) : Prop :=
  env.seekOk = true ∧ env.moved len = len

/-! ## Access to the backing store -/

/-- `qaoed_file_read`: the return value and the buffer afterwards. -/
def qaoedFileRead (env : Env) (store : List UInt8) (buff : List UInt8) (len pos : Nat) :
    Int × List UInt8 :=
  if env.seekOk = false then (-1, buff)
  else
    match env.cap with
    | none => (-1, buff)
    | some cap =>
        let got := slice store pos (min cap len)
        (got.length, got ++ buff.drop got.length)

/-- `qaoed_file_write`: the return value and the store afterwards. A write
behind the end of a file leaves a gap of zero bytes. -/
def qaoedFileWrite (env : Env) (store : List UInt8) (buff : List UInt8) (pos : Nat) :
    Int × List UInt8 :=
  if env.seekOk = false then (-1, store)
  else
    match env.cap with
    | none => (-1, store)
    | some cap =>
        let put := buff.take cap
        (put.length, writeAt 0 store pos put)

/-! ## Replies -/

inductive LogRecord where
  | shortAta (source : SixBytes) (ifname : CString)
  | shortCfg (source : SixBytes) (ifname : CString)
  | unknownCommand (cmd : UInt8) (source : SixBytes) (ifname : CString)
  | unknownCfgCommand (cmd : UInt8)
  deriving DecidableEq, Repr

/-- What one call of a handler leaves behind: the device, the backing store, the
frames sent, the records logged, and the calls of `qaoed_workdestroy`. -/
structure Outcome (Iface : Type) where
  dev : Aoedev Aclhdr Iface
  store : List UInt8
  sent : List Sent
  logged : List LogRecord
  workdestroys : Nat

variable {Iface : Type}

/-- The header of a reply: the request's own, addressed to its source. -/
def qaoedCreatepkt (order : ByteOrder) (dev : Aoedev Aclhdr Iface) (work : Workentry) : AoeHdr :=
  let request := work.hdr order
  { request with
    hDest := request.hSource
    hSource := SixBytes.zero
    verFlags := request.verFlags ||| 0x10 ||| aoeFlagRsp
    shelf := htons order dev.shelf
    slot := dev.slot }

/-- The source address is filled in if the interface has one. -/
def setSource (work : Workentry) (hdr : AoeHdr) : AoeHdr :=
  match work.ifentry.hwaddr with
  | none => hdr
  | some hwaddr => { hdr with hSource := hwaddr }

/-- The first `pktLen` bytes of the reply go to the socket. -/
def qaoedXmit (work : Workentry) (reply : Sent) (pktLen : Nat) : Sent :=
  match reply with
  | .ata hdr data =>
      .ata { hdr with aoehdr := setSource work hdr.aoehdr } (data.take (pktLen - sizeofAoeAtahdr))
  | .cfg hdr data =>
      .cfg { hdr with aoehdr := setSource work hdr.aoehdr } (data.take (pktLen - sizeofAoeCfghdr))

/-! ## ATA requests -/

def isAtaRead (cmdstat : UInt8) : Bool := cmdstat == winRead || cmdstat == winReadExt

def isAtaWrite (cmdstat : UInt8) : Bool := cmdstat == winWrite || cmdstat == winWriteExt

/-- The address in the `lba` field, masked to the announced width. -/
def qaoedLBA (request : AoeAtahdr) : Nat :=
  let ppos := request.lba.toBytes.zipIdx.foldl (fun ppos byte => ppos ||| byte.1.toNat <<< (byte.2 * 8)) 0
  if request.flags &&& aoeAtaflagLba48 ≠ 0 then
    ppos &&& 0x0000ffffffffffff
  else
    ppos &&& 0x0fffffff

/-- The number of bytes a request asks to transfer. -/
def transferLen (request : AoeAtahdr) : Nat := request.nsect.toNat * 512

/-- The reply after `error_xmit` of `qaoed_transfer` has marked it. -/
def markFailed (reply : AoeAtahdr) : AoeAtahdr :=
  { reply with
    aoehdr.verFlags := reply.aoehdr.verFlags ||| aoeFlagErr
    cmdstat := reply.cmdstat ||| errStat
    errFeature := reply.errFeature ||| abrtErr }

/-- `qaoed_transfer`: the store afterwards and the frame sent. -/
def qaoedTransfer (env : Env) (store : List UInt8) (work : Workentry)
    (request reply : AoeAtahdr) (replyLen : Nat) : List UInt8 × Sent :=
  let ppos := qaoedLBA request * 512
  let len := transferLen request
  if isAtaRead request.cmdstat then
    let replyLen := replyLen + len
    let buff := bytesAt env.heap 0 len
    let (n, data) := qaoedFileRead env store buff len ppos
    if n ≤ 0 then (store, qaoedXmit work (.ata (markFailed reply) data) replyLen)
    else (store, qaoedXmit work (.ata reply data) replyLen)
  else if isAtaWrite request.cmdstat then
    let (n, store) := qaoedFileWrite env store (bytesAt work.aoepkt sizeofAoeAtahdr len) ppos
    if n ≤ 0 then (store, qaoedXmit work (.ata (markFailed reply) []) replyLen)
    else (store, qaoedXmit work (.ata reply []) replyLen)
  else
    let reply := { reply with aoehdr.error := reply.aoehdr.error ||| aoeErrBadarg }
    (store, qaoedXmit work (.ata (markFailed reply) []) replyLen)

def cpuToLe16 (order : ByteOrder) (value : UInt16) : UInt16 :=
  match order with
  | .little => value
  | .big => swab16 value

/-- Store a value in the little-endian order that `cpu_to_le32` and
`cpu_to_le64` arrange on every host. -/
def leBytes (count : Nat) (value : Int) : List UInt8 :=
  (List.range count).map (byteOf (value % 2 ^ (8 * count)).toNat)

/-- The fields of `struct hd_driveid` that are filled in, each with its offset. -/
def driveidFields (order : ByteOrder) (dev : Aoedev Aclhdr Iface) : List (Nat × List UInt8) :=
  let name := (dev.devicename.getD []).take 19
  [(54, [0x31, 0x32, 0x33, 0x34, 0x35, 0x36, 0x37, 0x38, 0x39, 0]),
    (20, name ++ List.replicate (19 - name.length) 0),
    (108, leBytes 2 (dev.size / 16384)),
    (110, leBytes 2 255),
    (112, leBytes 2 64),
    (99, [(cpuToLe16 order 2).toUInt8]),
    (120, leBytes 4 (if dev.size > maxatalba then maxatalba else dev.size)),
    (166, leBytes 2 0x0400),
    (172, leBytes 2 0x0400),
    (200, leBytes 8 dev.size)]

/-- The `struct hd_driveid` of an identify reply. -/
def driveid (order : ByteOrder) (dev : Aoedev Aclhdr Iface) : List UInt8 :=
  (driveidFields order dev).foldl (fun id field => writeAt 0 id field.1 field.2)
    (List.replicate 512 0)

/-- `qaoed_identify`: the frame sent. -/
def qaoedIdentify (order : ByteOrder) (dev : Aoedev Aclhdr Iface) (work : Workentry)
    (reply : AoeAtahdr) : Sent :=
  let replyLen := sizeofAoeAtahdr + 512
  qaoedXmit work (.ata reply (driveid order dev)) replyLen

/-- The access-list switch of `qaoed_processATA`: whether it leaves for `error_xmit`. -/
def ataRefused (dev : Aoedev Aclhdr Iface) (request : AoeAtahdr) : Bool :=
  if isAtaRead request.cmdstat || request.cmdstat == winIdentify then
    aclRefuses dev.racl request.aoehdr.hSource
  else if isAtaWrite request.cmdstat then
    aclRefuses dev.wacl request.aoehdr.hSource
  else
    false

/-- The reply as it stands before the command is looked at. -/
def ataReply (order : ByteOrder) (dev : Aoedev Aclhdr Iface) (work : Workentry) : AoeAtahdr :=
  { work.ata order with
    aoehdr := qaoedCreatepkt order dev work
    errFeature := 0
    cmdstat := readyStat }

/-- What `error_xmit` of `qaoed_processATA` leaves behind. -/
def ataErrorXmit (order : ByteOrder) (dev : Aoedev Aclhdr Iface) (store : List UInt8)
    (work : Workentry) : Outcome Iface :=
  let reply := { ataReply order dev work with
    errFeature := abrtErr
    cmdstat := errStat ||| readyStat }
  ⟨dev, store, [qaoedXmit work (.ata reply []) sizeofAoeAtahdr], [], 1⟩

def qaoedProcessATA (order : ByteOrder) (env : Env) (dev : Aoedev Aclhdr Iface)
    (store : List UInt8) (work : Workentry) : Outcome Iface :=
  let request := work.ata order
  let replyLen := sizeofAoeAtahdr
  let reply := ataReply order dev work
  if ataRefused dev request then ataErrorXmit order dev store work
  else if isAtaRead request.cmdstat || isAtaWrite request.cmdstat then
    let (store, sent) := qaoedTransfer env store work request reply replyLen
    ⟨dev, store, [sent], [], 1⟩
  else if request.cmdstat == winIdentify then
    ⟨dev, store, [qaoedIdentify order dev work reply], [], 1⟩
  else ataErrorXmit order dev store work

/-! ## CFG requests -/

/-- An `int` assigned to an `unsigned short`. -/
def toU16 (value : Int) : UInt16 := UInt16.ofNat (value % 65536).toNat

/-- The sector count announced for an interface: unsigned arithmetic, kept in a byte. -/
def maxsectOf (mtu : Int) : UInt8 := UInt8.ofNat (sizeT (mtu - sizeofAoeAtahdr) / 512)

/-- The access-list switch of `qaoed_processCFG`: whether it leaves for `no_xmit`. -/
def cfgRefused (dev : Aoedev Aclhdr Iface) (request : AoeCfghdr) : Bool :=
  if request.command == aoeCfgRead || request.command == aoeCfgMatch ||
      request.command == aoeCfgMatchPartial then
    aclRefuses dev.cfgracl request.aoehdr.hSource
  else if request.command == aoeCfgSetIfEmpty || request.command == aoeCfgSet then
    aclRefuses dev.cfgsetacl request.aoehdr.hSource
  else
    false

/-- The reply as it stands before the command is looked at. -/
def cfgReply (order : ByteOrder) (dev : Aoedev Aclhdr Iface) (work : Workentry) : AoeCfghdr where
  aoehdr := qaoedCreatepkt order dev work
  queuelen := htons order 20
  firmware := htons order 0x400a
  maxsect := maxsectOf work.ifentry.mtu
  aoeverCmd := (work.cfg order).command ||| 0x10
  cfgLen := 0

/-- `goto no_xmit`. -/
def cfgNoXmit (dev : Aoedev Aclhdr Iface) (store : List UInt8) : Outcome Iface :=
  ⟨dev, store, [], [], 1⟩

/-- The reply with the stored string. A string of length zero adds nothing, so
the three commands that send it agree on the length of the reply. -/
def cfgWithString (order : ByteOrder) (env : Env) (dev : Aoedev Aclhdr Iface)
    (store : List UInt8) (work : Workentry) : Outcome Iface :=
  let reply := { cfgReply order dev work with cfgLen := htons order (toU16 dev.cfgLen) }
  let replyLen :=
    if dev.cfgLen > 0 then sizeofAoeCfghdr + dev.cfgLen.toNat else sizeofAoeCfghdr
  let stored := bytesAt (dev.cfg.mem env.tail) 0 dev.cfgLen.toNat
  ⟨dev, store, [qaoedXmit work (.cfg reply stored) replyLen], [], 1⟩

/-- The string of the request becomes the stored one. -/
def cfgStore (order : ByteOrder) (dev : Aoedev Aclhdr Iface) (work : Workentry) :
    Aoedev Aclhdr Iface :=
  let requested := (work.cfg order).stringLength order
  { dev with
    cfg := dev.cfg.memcpy (bytesAt work.aoepkt sizeofAoeCfghdr requested)
    cfgLen := requested }

def cfgAcknowledged (order : ByteOrder) (dev : Aoedev Aclhdr Iface) (store : List UInt8)
    (work : Workentry) : Outcome Iface :=
  let reply := cfgReply order dev work
  ⟨cfgStore order dev work, store, [qaoedXmit work (.cfg reply []) sizeofAoeCfghdr], [], 1⟩

def cfgFailed (order : ByteOrder) (dev : Aoedev Aclhdr Iface) (store : List UInt8)
    (work : Workentry) (code : UInt8) (logged : List LogRecord) : Outcome Iface :=
  let reply := cfgReply order dev work
  let reply := { reply with
    aoehdr.verFlags := reply.aoehdr.verFlags ||| aoeFlagErr
    aoehdr.error := reply.aoehdr.error ||| code }
  ⟨dev, store, [qaoedXmit work (.cfg reply []) sizeofAoeCfghdr], logged, 1⟩

def qaoedProcessCFG (order : ByteOrder) (env : Env) (dev : Aoedev Aclhdr Iface)
    (store : List UInt8) (work : Workentry) : Outcome Iface :=
  let request := work.cfg order
  let stored := dev.cfg.mem env.tail
  let requested := request.stringLength order
  if cfgRefused dev request then cfgNoXmit dev store
  else if request.command == aoeCfgRead then cfgWithString order env dev store work
  else if request.command == aoeCfgMatch then
    -- The length is compared without `ntohs`.
    if (request.cfgLen.toNat : Int) = dev.cfgLen ∧
        bytesAt stored 0 dev.cfgLen.toNat = bytesAt work.aoepkt sizeofAoeCfghdr dev.cfgLen.toNat then
      cfgWithString order env dev store work
    else cfgNoXmit dev store
  else if request.command == aoeCfgMatchPartial then
    if bytesAt stored 0 requested = bytesAt work.aoepkt sizeofAoeCfghdr requested then
      cfgWithString order env dev store work
    else cfgNoXmit dev store
  else if request.command == aoeCfgSetIfEmpty then
    if dev.cfgLen = 0 ∧ requested ≤ 1024 then cfgAcknowledged order dev store work
    else cfgFailed order dev store work aoeErrCfgSet []
  else if request.command == aoeCfgSet then
    if requested ≤ 1024 then cfgAcknowledged order dev store work
    else cfgFailed order dev store work aoeErrBadarg []
  else
    cfgFailed order dev store work aoeErrBadcmd [.unknownCfgCommand request.command]

/-! ## The worker's entry point -/

/-- `qaoed_processwork` for an entry as `processpacket` and `qaoed_dobcast` make
it: neither the entry nor its `aoepkt` is ever NULL there. -/
def qaoedProcesswork (order : ByteOrder) (env : Env) (dev : Aoedev Aclhdr Iface)
    (store : List UInt8) (work : Workentry) : Outcome Iface :=
  let hdr := work.hdr order
  if hdr.cmd == aoeCmdAta then
    if sizeT work.packetLen ≥ sizeofAoeAtahdr then qaoedProcessATA order env dev store work
    else ⟨dev, store, [], [.shortAta hdr.hSource work.ifentry.ifname], 1⟩
  else if hdr.cmd == aoeCmdCfg then
    if sizeT work.packetLen ≥ sizeofAoeCfghdr then qaoedProcessCFG order env dev store work
    else ⟨dev, store, [], [.shortCfg hdr.hSource work.ifentry.ifname], 1⟩
  else ⟨dev, store, [], [.unknownCommand hdr.cmd hdr.hSource work.ifentry.ifname], 1⟩

end Qaoed.Device
