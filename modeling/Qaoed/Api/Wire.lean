import Qaoed.Api.Handlers
import Qaoed.Library.ByteRange
import Qaoed.Library.Framing

/-!
# Requests and replies as bytes

The header and the structures of `api.h` as they lie in the memory of a host, whose
byte order is a parameter. A structure is read at the offsets of its fields, also
where the bytes of a string go on behind its field.
-/

namespace Qaoed.Api

open Qaoed.Device
open Qaoed.Frame
open Qaoed.Library
open Qaoed.Library.ByteOrder
open Qaoed.Config

/-! ## Fields -/

def byteAt (bytes : List UInt8) (offset : Nat) : UInt8 := bytes[offset]?.getD 0

/-- The bytes in front of the first zero byte. -/
def cstringAt (bytes : List UInt8) (offset : Nat) : CString :=
  (bytes.drop offset).takeWhile fun byte => byte != 0

def ushortAt (order : ByteOrder) (bytes : List UInt8) (offset : Nat) : UInt16 :=
  load16 order (byteAt bytes offset) (byteAt bytes (offset + 1))

def uintAt (order : ByteOrder) (bytes : List UInt8) (offset : Nat) : UInt32 :=
  load32 order (byteAt bytes offset) (byteAt bytes (offset + 1)) (byteAt bytes (offset + 2))
    (byteAt bytes (offset + 3))

def intAt (order : ByteOrder) (bytes : List UInt8) (offset : Nat) : Int :=
  ((uintAt order bytes offset).toNat : Int).bmod (2 ^ 32)

def storeInt (order : ByteOrder) (value : Int) : List UInt8 :=
  store32 order (UInt32.ofNat (value % 2 ^ 32).toNat)

/-! ## The header -/

/-- `struct apihdr`, with the byte that is left out between its fields. -/
structure ApiHdr where
  cmd : UInt8
  type : UInt8
  error : UInt8
  pad : UInt8
  argLen : UInt32
  deriving DecidableEq, Repr

def sizeofApihdr : Nat := 8

def ApiHdr.store (order : ByteOrder) (apiHdr : ApiHdr) : List UInt8 :=
  [apiHdr.cmd, apiHdr.type, apiHdr.error, apiHdr.pad] ++ store32 order apiHdr.argLen

def ApiHdr.load (order : ByteOrder) (bytes : List UInt8) : ApiHdr :=
  ⟨byteAt bytes 0, byteAt bytes 1, byteAt bytes 2, byteAt bytes 3, uintAt order bytes 4⟩

theorem store32_eq (order : ByteOrder) (value : UInt32) :
    ∃ b0 b1 b2 b3, store32 order value = [b0, b1, b2, b3] := by
  cases order with
  | little => exact ⟨_, _, _, _, rfl⟩
  | big => exact ⟨_, _, _, _, rfl⟩

/-- A header announces the bytes of the argument behind it. -/
def apihdr (order : ByteOrder) : Framing ApiHdr UInt8 where
  size := sizeofApihdr
  encode := ApiHdr.store order
  decode := ApiHdr.load order
  announced apiHdr := apiHdr.argLen.toNat
  size_pos := by decide
  encode_length apiHdr := by
    rw [ApiHdr.store, List.length_append, store32_length]
    rfl
  decode_encode apiHdr := by
    obtain ⟨b0, b1, b2, b3, stored⟩ := store32_eq order apiHdr.argLen
    have loaded := load32_store32 order apiHdr.argLen stored
    obtain ⟨cmd, type, error, pad, argLen⟩ := apiHdr
    rw [ApiHdr.store, stored, ApiHdr.load, ApiHdr.mk.injEq]
    exact ⟨rfl, rfl, rfl, rfl, loaded⟩

def REQUEST : UInt8 := 0
def REPLY : UInt8 := 1

def ApiError.code : ApiError → UInt8
  | .allok => 0
  | .failure => 2

/-- The number of a command. -/
def Request.cmd : Request → UInt8
  | .status => 0
  | .interfacesList => 1
  | .interfacesStatus _ => 2
  | .interfacesSetmtu _ => 5
  | .targetList => 6
  | .targetAdd _ => 8
  | .targetDel _ => 9
  | .targetSetacl _ => 11
  | .aclList => 12
  | .unhandled cmd => cmd

/-- The header of a reply: that of the request, made over. -/
def Reply.hdr (cmd pad : UInt8) (reply : Reply) : ApiHdr :=
  ⟨cmd, REPLY, ApiError.code reply.error, pad, UInt32.ofNat reply.argLen⟩

/-! ## Arguments of requests -/

def InterfaceCmd.load (order : ByteOrder) (arg : List UInt8) : InterfaceCmd :=
  ⟨cstringAt arg 0, intAt order arg 20⟩

def TargetInfo.load (order : ByteOrder) (arg : List UInt8) : TargetInfo where
  devicename := cstringAt arg 0
  shelf := ushortAt order arg 120
  slot := byteAt arg 122
  ifname := cstringAt arg 123
  writecache := intAt order arg 144
  broadcast := intAt order arg 148

/-- Where the name of the list for an operation begins. -/
def aclOffset : AclOp → Nat
  | .write => 152
  | .read => 172
  | .cfgset => 192
  | .cfgread => 212

def TargetInfoDetailed.load (order : ByteOrder) (arg : List UInt8) : TargetInfoDetailed where
  info := TargetInfo.load order arg
  wacl := cstringAt arg (aclOffset .write)
  racl := cstringAt arg (aclOffset .read)
  cfgsetacl := cstringAt arg (aclOffset .cfgset)
  cfgracl := cstringAt arg (aclOffset .cfgread)

/-- The request that `processAPIrequest` sees: each handler casts the argument to its
own structure. -/
def Request.load (order : ByteOrder) (cmd : UInt8) (arg : List UInt8) : Request :=
  if cmd = 0 then .status
  else if cmd = 1 then .interfacesList
  else if cmd = 2 then .interfacesStatus (InterfaceCmd.load order arg)
  else if cmd = 5 then .interfacesSetmtu (InterfaceCmd.load order arg)
  else if cmd = 6 then .targetList
  else if cmd = 8 then .targetAdd (TargetInfo.load order arg)
  else if cmd = 9 then .targetDel (TargetInfo.load order arg)
  else if cmd = 11 then .targetSetacl (TargetInfoDetailed.load order arg)
  else if cmd = 12 then .aclList
  else .unhandled cmd

end Qaoed.Api
