import Qaoed.Library.ByteOrder
import Qaoed.Library.ByteRange

/-!
# ATA over Ethernet headers

The packed structures of `eth.h` and `aoe.h`. An integer field holds the value
the host loads from the two or four bytes of the frame, so that the byte-order
conversions of the program stay visible.
-/

namespace Qaoed.Frame

open Qaoed.Library
open Qaoed.Library.ByteOrder

/-- The memory a pointer leads to, by offset from it. -/
abbrev Mem := Nat → UInt8

/-- An array of six bytes: an ethernet address, or the `lba` field. -/
structure SixBytes where
  b0 : UInt8
  b1 : UInt8
  b2 : UInt8
  b3 : UInt8
  b4 : UInt8
  b5 : UInt8
  deriving DecidableEq, Repr

namespace SixBytes

def ofMem (mem : Mem) (offset : Nat) : SixBytes :=
  ⟨mem offset, mem (offset + 1), mem (offset + 2), mem (offset + 3), mem (offset + 4),
    mem (offset + 5)⟩

def toBytes (six : SixBytes) : List UInt8 :=
  [six.b0, six.b1, six.b2, six.b3, six.b4, six.b5]

def zero : SixBytes := ⟨0, 0, 0, 0, 0, 0⟩

end SixBytes

/-! ## Constants -/

def ethPAoe : UInt16 := 0x88a2

/-- Bit field in `ver_flags`. -/
def aoeFlagRsp : UInt8 := 0x08
def aoeFlagErr : UInt8 := 0x04

def aoeErrBadcmd : UInt8 := 1
def aoeErrBadarg : UInt8 := 2
def aoeErrCfgSet : UInt8 := 4

def aoeCmdAta : UInt8 := 0
def aoeCmdCfg : UInt8 := 1

def aoeCfgRead : UInt8 := 0
def aoeCfgMatch : UInt8 := 1
def aoeCfgMatchPartial : UInt8 := 2
def aoeCfgSetIfEmpty : UInt8 := 3
def aoeCfgSet : UInt8 := 4

def maxatalba : Int := 0x0fffffff
def aoeAtaflagLba48 : UInt8 := 0x40

def errStat : UInt8 := 0x01
def readyStat : UInt8 := 0x40
def abrtErr : UInt8 := 0x04

def winRead : UInt8 := 0x20
def winReadExt : UInt8 := 0x24
def winWrite : UInt8 := 0x30
def winWriteExt : UInt8 := 0x34
def winIdentify : UInt8 := 0xec

/-- `sizeof (struct aoe_hdr)`. -/
def sizeofAoeHdr : Nat := 24
/-- `sizeof (struct aoe_atahdr)`. -/
def sizeofAoeAtahdr : Nat := 36
/-- `sizeof (struct aoe_cfghdr)`. -/
def sizeofAoeCfghdr : Nat := 32

/-- All bits of `flag` are set in `flags`. -/
def HasFlag (flags flag : UInt8) : Prop := flags &&& flag = flag

instance (flags flag : UInt8) : Decidable (HasFlag flags flag) :=
  inferInstanceAs (Decidable (_ = _))

theorem hasFlag_or_right (flags flag : UInt8) : HasFlag (flags ||| flag) flag := by
  apply UInt8.toBitVec_inj.mp
  ext index small
  simp only [UInt8.toBitVec_and, UInt8.toBitVec_or, BitVec.getElem_and, BitVec.getElem_or]
  grind

theorem HasFlag.or {flags flag : UInt8} (set : HasFlag flags flag) (other : UInt8) :
    HasFlag (flags ||| other) flag := by
  have bits := congrArg UInt8.toBitVec set
  apply UInt8.toBitVec_inj.mp
  ext index small
  have bit := congrArg (fun vector => vector.getLsbD index) bits
  simp only [UInt8.toBitVec_and, UInt8.toBitVec_or, BitVec.getElem_and, BitVec.getElem_or,
    BitVec.getLsbD_eq_getElem small] at bit ⊢
  grind

/-- An `int` where the compiler converts it to `size_t`. -/
def sizeT (value : Int) : Nat := (value % 2 ^ 64).toNat

/-! ## Structures -/

structure AoeHdr where
  hDest : SixBytes
  hSource : SixBytes
  hProto : UInt16
  verFlags : UInt8
  error : UInt8
  shelf : UInt16
  slot : UInt8
  cmd : UInt8
  tag : UInt32
  deriving DecidableEq, Repr

structure AoeAtahdr where
  aoehdr : AoeHdr
  flags : UInt8
  errFeature : UInt8
  nsect : UInt8
  cmdstat : UInt8
  lba : SixBytes
  notused : UInt8 × UInt8
  deriving DecidableEq, Repr

structure AoeCfghdr where
  aoehdr : AoeHdr
  queuelen : UInt16
  firmware : UInt16
  maxsect : UInt8
  aoeverCmd : UInt8
  cfgLen : UInt16
  deriving DecidableEq, Repr

namespace AoeHdr

/-- The header a buffer starts with. -/
def ofMem (order : ByteOrder) (mem : Mem) : AoeHdr where
  hDest := SixBytes.ofMem mem 0
  hSource := SixBytes.ofMem mem 6
  hProto := load16 order (mem 12) (mem 13)
  verFlags := mem 14
  error := mem 15
  shelf := load16 order (mem 16) (mem 17)
  slot := mem 18
  cmd := mem 19
  tag := load32 order (mem 20) (mem 21) (mem 22) (mem 23)

def toBytes (order : ByteOrder) (hdr : AoeHdr) : List UInt8 :=
  hdr.hDest.toBytes ++ hdr.hSource.toBytes ++ store16 order hdr.hProto ++
    [hdr.verFlags, hdr.error] ++ store16 order hdr.shelf ++ [hdr.slot, hdr.cmd] ++
    store32 order hdr.tag

@[simp]
theorem toBytes_length (order : ByteOrder) (hdr : AoeHdr) :
    (hdr.toBytes order).length = sizeofAoeHdr := by
  simp only [toBytes, SixBytes.toBytes, List.length_append, List.length_cons, List.length_nil,
    store16_length, store32_length, sizeofAoeHdr]

/-- A header is read back from any buffer its bytes were copied to. -/
theorem ofMem_toBytes {order : ByteOrder} {hdr : AoeHdr} {rest : List UInt8} {mem : Mem}
    (holds : Holds mem (hdr.toBytes order ++ rest)) : ofMem order mem = hdr := by
  have twoBytes (value : UInt16) : ∃ a b, store16 order value = [a, b] := by
    cases order <;> exact ⟨_, _, rfl⟩
  have fourBytes (value : UInt32) : ∃ a b c d, store32 order value = [a, b, c, d] := by
    cases order <;> exact ⟨_, _, _, _, rfl⟩
  obtain ⟨p0, p1, protoBytes⟩ := twoBytes hdr.hProto
  obtain ⟨s0, s1, shelfBytes⟩ := twoBytes hdr.shelf
  obtain ⟨t0, t1, t2, t3, tagBytes⟩ := fourBytes hdr.tag
  have proto := load16_store16 order hdr.hProto protoBytes
  have shelf := load16_store16 order hdr.shelf shelfBytes
  have tag := load32_store32 order hdr.tag tagBytes
  rw [toBytes, protoBytes, shelfBytes, tagBytes] at holds
  simp only [SixBytes.toBytes, List.cons_append, List.nil_append] at holds
  have byte (index : Nat) (inside : index < 24) := holds index (by
    simp only [List.length_cons]
    omega)
  unfold ofMem SixBytes.ofMem
  simp only [byte 0 (by decide), byte 1 (by decide), byte 2 (by decide), byte 3 (by decide),
    byte 4 (by decide), byte 5 (by decide), byte 6 (by decide), byte 7 (by decide),
    byte 8 (by decide), byte 9 (by decide), byte 10 (by decide), byte 11 (by decide),
    byte 12 (by decide), byte 13 (by decide), byte 14 (by decide), byte 15 (by decide),
    byte 16 (by decide), byte 17 (by decide), byte 18 (by decide), byte 19 (by decide),
    byte 20 (by decide), byte 21 (by decide), byte 22 (by decide), byte 23 (by decide),
    List.getElem_cons_zero, List.getElem_cons_succ, Nat.reduceAdd, proto, shelf, tag]

/-- A header depends on its own bytes only. -/
theorem ofMem_congr {order : ByteOrder} {mem mem' : Mem}
    (agree : ∀ index, index < sizeofAoeHdr → mem index = mem' index) :
    ofMem order mem = ofMem order mem' := by
  unfold sizeofAoeHdr at agree
  simp (disch := decide) only [ofMem, SixBytes.ofMem, Nat.reduceAdd, agree]

end AoeHdr

namespace AoeAtahdr

def ofMem (order : ByteOrder) (mem : Mem) : AoeAtahdr where
  aoehdr := AoeHdr.ofMem order mem
  flags := mem 24
  errFeature := mem 25
  nsect := mem 26
  cmdstat := mem 27
  lba := SixBytes.ofMem mem 28
  notused := (mem 34, mem 35)

def toBytes (order : ByteOrder) (hdr : AoeAtahdr) : List UInt8 :=
  hdr.aoehdr.toBytes order ++ [hdr.flags, hdr.errFeature, hdr.nsect, hdr.cmdstat] ++
    hdr.lba.toBytes ++ [hdr.notused.1, hdr.notused.2]

@[simp]
theorem toBytes_length (order : ByteOrder) (hdr : AoeAtahdr) :
    (hdr.toBytes order).length = sizeofAoeAtahdr := by
  simp only [toBytes, SixBytes.toBytes, List.length_append, List.length_cons, List.length_nil,
    AoeHdr.toBytes_length, sizeofAoeHdr, sizeofAoeAtahdr]

theorem ofMem_congr {order : ByteOrder} {mem mem' : Mem}
    (agree : ∀ index, index < sizeofAoeAtahdr → mem index = mem' index) :
    ofMem order mem = ofMem order mem' := by
  have header : AoeHdr.ofMem order mem = AoeHdr.ofMem order mem' :=
    AoeHdr.ofMem_congr fun index inside => agree index (Nat.lt_trans inside (by decide))
  unfold sizeofAoeAtahdr at agree
  simp (disch := decide) only [ofMem, SixBytes.ofMem, Nat.reduceAdd, agree, header]

end AoeAtahdr

namespace AoeCfghdr

def ofMem (order : ByteOrder) (mem : Mem) : AoeCfghdr where
  aoehdr := AoeHdr.ofMem order mem
  queuelen := load16 order (mem 24) (mem 25)
  firmware := load16 order (mem 26) (mem 27)
  maxsect := mem 28
  aoeverCmd := mem 29
  cfgLen := load16 order (mem 30) (mem 31)

def toBytes (order : ByteOrder) (hdr : AoeCfghdr) : List UInt8 :=
  hdr.aoehdr.toBytes order ++ store16 order hdr.queuelen ++ store16 order hdr.firmware ++
    [hdr.maxsect, hdr.aoeverCmd] ++ store16 order hdr.cfgLen

@[simp]
theorem toBytes_length (order : ByteOrder) (hdr : AoeCfghdr) :
    (hdr.toBytes order).length = sizeofAoeCfghdr := by
  simp only [toBytes, List.length_append, List.length_cons, List.length_nil,
    AoeHdr.toBytes_length, store16_length, sizeofAoeHdr, sizeofAoeCfghdr]

theorem ofMem_congr {order : ByteOrder} {mem mem' : Mem}
    (agree : ∀ index, index < sizeofAoeCfghdr → mem index = mem' index) :
    ofMem order mem = ofMem order mem' := by
  have header : AoeHdr.ofMem order mem = AoeHdr.ofMem order mem' :=
    AoeHdr.ofMem_congr fun index inside => agree index (Nat.lt_trans inside (by decide))
  unfold sizeofAoeCfghdr at agree
  simp (disch := decide) only [ofMem, agree, header]

/-- The announced string length, as `ntohs (request->cfg_len)`. -/
def stringLength (order : ByteOrder) (hdr : AoeCfghdr) : Nat := (ntohs order hdr.cfgLen).toNat

/-- The command in the low nibble of `aoever_cmd`. -/
def command (hdr : AoeCfghdr) : UInt8 := hdr.aoeverCmd &&& 0x0f

end AoeCfghdr

/-! ## Transmitted frames -/

/-- A frame handed to the socket: a header with the bytes that follow it. -/
inductive Sent where
  | ata (hdr : AoeAtahdr) (data : List UInt8)
  | cfg (hdr : AoeCfghdr) (data : List UInt8)
  deriving DecidableEq, Repr

namespace Sent

def aoehdr : Sent → AoeHdr
  | .ata hdr _ => hdr.aoehdr
  | .cfg hdr _ => hdr.aoehdr

/-- The bytes on the wire. -/
def bytes (order : ByteOrder) : Sent → List UInt8
  | .ata hdr data => hdr.toBytes order ++ data
  | .cfg hdr data => hdr.toBytes order ++ data

/-- The length of the frame on the wire. -/
def length : Sent → Nat
  | .ata _ data => sizeofAoeAtahdr + data.length
  | .cfg _ data => sizeofAoeCfghdr + data.length

theorem bytes_length (order : ByteOrder) (sent : Sent) : (sent.bytes order).length = sent.length := by
  cases sent with
  | ata hdr data => rw [bytes, List.length_append, AoeAtahdr.toBytes_length, length]
  | cfg hdr data => rw [bytes, List.length_append, AoeCfghdr.toBytes_length, length]

/-- A receiver reads back the header that was sent. -/
theorem ofMem_bytes {order : ByteOrder} {sent : Sent} {mem : Mem}
    (holds : Holds mem (sent.bytes order)) : AoeHdr.ofMem order mem = sent.aoehdr := by
  cases sent with
  | ata hdr data =>
      rw [bytes, AoeAtahdr.toBytes, List.append_assoc, List.append_assoc, List.append_assoc] at holds
      exact AoeHdr.ofMem_toBytes holds
  | cfg hdr data =>
      rw [bytes, AoeCfghdr.toBytes, List.append_assoc, List.append_assoc, List.append_assoc,
        List.append_assoc] at holds
      exact AoeHdr.ofMem_toBytes holds

end Sent

end Qaoed.Frame
