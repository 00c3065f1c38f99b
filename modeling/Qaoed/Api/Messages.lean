import Qaoed.Config.Load

/-!
# Requests and replies

The structures of `api.h`. A request comes with the structure its command takes;
a reply is a header and the bytes that are sent behind it.
-/

namespace Qaoed.Api

open Qaoed.Device
open Qaoed.Frame
open Qaoed.Config

structure QaoedStatus where
  numTargets : Nat
  numInterfaces : Nat
  numThreads : Nat
  deriving DecidableEq, Repr

structure TargetInfo where
  devicename : CString
  shelf : UInt16
  slot : UInt8
  ifname : CString
  writecache : Int
  broadcast : Int
  deriving DecidableEq, Repr

/-- The structure without the values that are only reported. -/
structure TargetInfoDetailed where
  info : TargetInfo
  wacl : CString
  racl : CString
  cfgsetacl : CString
  cfgracl : CString
  deriving DecidableEq, Repr

structure AclInfo where
  name : CString
  aclnumber : Nat
  defaultpolicy : UInt8
  deriving DecidableEq, Repr

structure IfInfo where
  name : CString
  hwaddr : SixBytes
  mtu : Int
  deriving DecidableEq, Repr

def sizeofQaoedStatus : Nat := 12
def sizeofTargetInfo : Nat := 152
def sizeofTargetInfoDetailed : Nat := 1284
def sizeofInterfaceCmd : Nat := 24
def sizeofAclInfo : Nat := 128
def sizeofIfInfo : Nat := 32

/-- The commands that have a handler, with their arguments. -/
inductive Request where
  | status
  | interfacesList
  | interfacesStatus (ifcmd : InterfaceCmd)
  | interfacesSetmtu (ifcmd : InterfaceCmd)
  | targetList
  | targetAdd (target : TargetInfo)
  | targetDel (target : TargetInfo)
  | targetSetacl (target : TargetInfoDetailed)
  | aclList
  | unhandled (cmd : UInt8)
  deriving DecidableEq, Repr

inductive Argument where
  | nothing
  | status (status : QaoedStatus)
  | interfaces (ifinfolist : List IfInfo)
  | interface (ifinfo : IfInfo)
  | ifcmd (ifcmd : InterfaceCmd)
  | targets (tglist : List TargetInfo)
  | target (target : TargetInfo)
  | detailed (target : TargetInfoDetailed)
  | acls (aclinfo : List AclInfo)
  deriving DecidableEq, Repr

/-- A header, and how many bytes of which structure are sent behind it. -/
structure Reply where
  error : ApiError
  argLen : Nat
  sent : Nat
  arg : Argument
  deriving DecidableEq, Repr

/-- A reply that is a header only. -/
def Reply.header (error : ApiError) : Reply := ⟨error, 0, 0, .nothing⟩

/-- The interface of a name. -/
def referenceint (name : CString) (intlist : List Interface) : Option Nat :=
  (Config.referenceint name (intlist.map Interface.toIfst)).map Fin.val

/-- The test of both loops that look for the devices of a request. -/
def TargetInfo.selects (target : TargetInfo) (intlist : List Interface) (device : Devconf) : Bool :=
  (device.slot == target.slot && device.shelf == target.shelf) &&
    (target.ifname.isEmpty || device.interface == referenceint target.ifname intlist)

end Qaoed.Api
