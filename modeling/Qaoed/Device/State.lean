import Qaoed.Frame.Header

/-!
# Devices, access lists and interfaces

The records of `qaoed.h`, `acl.h` and `logging.h` as far as the program logic
reads them. A device is generic in what its access-list and interface pointers
lead to: the request handlers follow them, the configuration code compares them.
-/

namespace Qaoed.Device

open Qaoed.Library
open Qaoed.Frame

/-- A string, without its terminating zero byte. -/
abbrev CString := List UInt8

inductive Logtype where
  | err
  | syslog
  | file
  deriving DecidableEq, Repr

structure Logging where
  name : CString
  logtype : Logtype
  deriving DecidableEq, Repr

/-! ## Access lists -/

def aclAccept : UInt8 := 1
def aclReject : UInt8 := 2
def aclError : UInt8 := 255

structure Aclentry where
  rule : UInt8
  hDest : SixBytes
  deriving DecidableEq, Repr

structure Aclhdr where
  name : CString
  defaultpolicy : UInt8
  acl : List Aclentry
  log : Option Logging
  deriving DecidableEq, Repr

/-- The first row for the address decides, and the default policy if there is none. -/
def aclmatch (acl : Aclhdr) (hAddr : SixBytes) : UInt8 :=
  go acl.acl
where
  go : List Aclentry → UInt8
    | [] => acl.defaultpolicy
    | aclrow :: next => if hAddr = aclrow.hDest then aclrow.rule else go next

/-- The test before `goto error_xmit`: a list is attached and does not accept. -/
def aclRefuses (acl : Option Aclhdr) (hSource : SixBytes) : Bool :=
  match acl with
  | none => false
  | some acl => aclmatch acl hSource != aclAccept

/-- What a request needs: no list is attached, or the list accepts the source. -/
def Permits (acl : Option Aclhdr) (hSource : SixBytes) : Prop :=
  ∀ list, acl = some list → aclmatch list hSource = aclAccept

theorem aclRefuses_eq_false_iff (acl : Option Aclhdr) (hSource : SixBytes) :
    aclRefuses acl hSource = false ↔ Permits acl hSource := by
  cases acl with
  | none => simp [aclRefuses, Permits]
  | some list => simp [aclRefuses, Permits]

/-- A source that an attached list does not accept is refused. -/
theorem aclRefuses_of_attached {acl : Option Aclhdr} {list : Aclhdr} {hSource : SixBytes}
    (attached : acl = some list) (rejected : aclmatch list hSource ≠ aclAccept) :
    aclRefuses acl hSource = true := by
  rw [attached]
  simpa [aclRefuses] using rejected

/-! ## The configuration string -/

/-- `char cfg[1024]`. -/
structure CfgBuf where
  bytes : List UInt8
  size : bytes.length = 1024

namespace CfgBuf

/-- `memcpy` to the start of the buffer; the bytes behind the source stay. -/
def memcpy (buf : CfgBuf) (source : List UInt8) : CfgBuf where
  bytes := (source ++ buf.bytes.drop source.length).take 1024
  size := by
    have full := buf.size
    rw [List.length_take, List.length_append, List.length_drop]
    omega

/-- The memory that starts at the buffer: `tail` is what lies behind it. -/
def mem (buf : CfgBuf) (tail : Mem) : Mem :=
  fun index => (buf.bytes[index]?).getD (tail (index - 1024))

theorem bytesAt_mem (buf : CfgBuf) (tail : Mem) {len : Nat} (small : len ≤ 1024) :
    bytesAt (buf.mem tail) 0 len = buf.bytes.take len := by
  apply List.ext_getElem?
  intro index
  rw [bytesAt_getElem?, List.getElem?_take, Nat.zero_add]
  by_cases inside : index < len
  · have valid : index < buf.bytes.length := by
      rw [buf.size]
      omega
    rw [if_pos inside, if_pos inside, mem, List.getElem?_eq_getElem valid, Option.getD_some]
  · rw [if_neg inside, if_neg inside]

/-- A source that fits is the start of the buffer afterwards. -/
theorem memcpy_take (buf : CfgBuf) {source : List UInt8} (fits : source.length ≤ 1024) :
    (buf.memcpy source).bytes.take source.length = source := by
  rw [memcpy, List.take_take, Nat.min_eq_left fits, List.take_left']
  rfl

/-- Copying the same source again changes nothing. -/
theorem memcpy_again (buf : CfgBuf) (source : List UInt8) :
    (buf.memcpy source).memcpy source = buf.memcpy source := by
  have same : (source ++ ((source ++ buf.bytes.drop source.length).take 1024).drop
      source.length).take 1024 = (source ++ buf.bytes.drop source.length).take 1024 := by
    rw [List.drop_take, List.drop_left' rfl, List.take_append, List.take_append, List.take_take,
      Nat.min_self]
  unfold memcpy
  simp only [same]

def zero : CfgBuf := ⟨List.replicate 1024 0, List.length_replicate⟩

end CfgBuf

/-! ## Interfaces, devices and work entries -/

structure Ifst where
  ifname : CString
  hwaddr : Option SixBytes
  mtu : Int
  buffsize : Int
  log : Option Logging
  deriving DecidableEq, Repr

structure Aoedev (Acl Iface : Type) where
  devicename : Option CString
  size : Int
  shelf : UInt16
  slot : UInt8
  interface : Option Iface
  wacl : Option Acl
  racl : Option Acl
  cfgsetacl : Option Acl
  cfgracl : Option Acl
  cfgLen : Int
  cfg : CfgBuf

/-- A request in the hands of a worker. `aoepkt` is the memory that starts with
the frame; only the first `packetLen` bytes of it were received. -/
structure Workentry where
  aoepkt : Mem
  packetLen : Int
  ifentry : Ifst

namespace Workentry

/-- The bytes of the frame that arrived. -/
def received (work : Workentry) : List UInt8 := bytesAt work.aoepkt 0 work.packetLen.toNat

/-- The frame read as each of the three header structures. -/
def hdr (order : ByteOrder) (work : Workentry) : AoeHdr := AoeHdr.ofMem order work.aoepkt
def ata (order : ByteOrder) (work : Workentry) : AoeAtahdr := AoeAtahdr.ofMem order work.aoepkt
def cfg (order : ByteOrder) (work : Workentry) : AoeCfghdr := AoeCfghdr.ofMem order work.aoepkt

@[simp]
theorem ata_aoehdr (order : ByteOrder) (work : Workentry) :
    (work.ata order).aoehdr = work.hdr order := rfl

@[simp]
theorem cfg_aoehdr (order : ByteOrder) (work : Workentry) :
    (work.cfg order).aoehdr = work.hdr order := rfl

end Workentry

end Qaoed.Device
