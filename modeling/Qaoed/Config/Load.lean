import Qaoed.Config.Sections

/-!
# Loading a configuration

`qaoed_loadconfig` for the tree that `readconfig` made of the file: the walks one
after the other, the default values, and the checks of the result.
-/

namespace Qaoed.Config

open Qaoed.Device
open Qaoed.Frame
open Qaoed.Library

/-- A configured interface, with the number of devices that count on it. -/
structure Interface extends Ifst where
  refcnt : Int
  deriving DecidableEq, Repr

/-- `struct qconfig`. Devices refer to access lists and interfaces by position. -/
structure Conf where
  loglist : List Logconf
  intlist : List Interface
  devdefault : Option Devconf
  devices : List Devconf
  acllist : List Aclconf

/-- What the operating system answers while a configuration is loaded. -/
structure LoadEnv where
  /-- Whether the file of a logging target can be opened. -/
  logOpens : Nat → Bool
  interfaces : Nat → OpenEnv
  stat : CString → Option Mode

/-! ## Global options and logging -/

def globalKeyword (lvalue : CString) : Bool :=
  lvalue == text "log-level" || lvalue == text "include" || lvalue == text "apisocket"

/-- `readglobal`: whether it returns a configuration. -/
def readglobal (c : Cfg) : Bool := c.assignments.all fun statement => globalKeyword statement.1

def createdefaultlog : Logconf := ⟨some (text "default"), .syslog⟩

/-- The logging targets, and whether the last one leads back to the first: that is what
`createLOG` makes of a list without a default target. -/
def createLOG (c : Cfg) : Except Stop (List Logconf × Bool) := do
  let found ← findLOG [] c
  let loglist := if found.isEmpty then [createdefaultlog] else found
  let log ← referencelog (text "default") loglist
  return (loglist, log.isNone)

def logstart (opens : Bool) (log : Logconf) : Bool :=
  match log.logtype with
  | .syslog => true
  | .file => opens
  | .err => false

/-- `openlogs` goes round and round in a list that leads back to its start. -/
def openlogs (env : LoadEnv) (loglist : List Logconf) (leadsBack : Bool) : Except Stop Unit :=
  if loglist.zipIdx.all fun log => logstart (env.logOpens log.2) log.1 then
    if leadsBack then .error .hang else .ok ()
  else .error .null

/-! ## Default values -/

/-- What the default section has for a value the device leaves out. -/
def inherited (dflt device : Devconf) : Devconf :=
  { device with
    shelf := if device.shelf = 0xffff then dflt.shelf else device.shelf
    slot := if device.slot = 0xff then dflt.slot else device.slot
    writecache := if device.writecache = -1 then dflt.writecache else device.writecache
    broadcast := if device.broadcast = -1 then dflt.broadcast else device.broadcast
    interface := device.interface.or dflt.interface
    wacl := device.wacl.or dflt.wacl
    racl := device.racl.or dflt.racl
    cfgracl := device.cfgracl.or dflt.cfgracl
    cfgsetacl := device.cfgsetacl.or dflt.cfgsetacl
    log := device.log.or dflt.log }

/-- Values that are still missing. -/
def completed (defaultlog : Option Logging) (device : Devconf) : Devconf :=
  { device with
    log := device.log.or defaultlog
    writecache := if device.writecache = -1 then 1 else device.writecache
    broadcast := if device.broadcast = -1 then 1 else device.broadcast }

/-- `qaoed_devdefaults`: the device and the default device, which counts its slot up
when the slot is taken. The target named `default` is only looked up for a device
that has no other. -/
def qaoedDevdefaults (loglist : List Logconf) (devdefault : Option Devconf) (device : Devconf) :
    Except Stop (Devconf × Option Devconf) :=
  let merged := (devdefault.map fun dflt => inherited dflt device).getD device
  let counted := devdefault.map fun dflt =>
    if device.slot = 0xff then { dflt with slot := dflt.slot + 1 } else dflt
  let defaultlog :=
    if merged.log.isNone then referencelog (text "default") loglist else .ok none
  defaultlog.map fun defaultlog => (completed defaultlog merged, counted)

def qaoedDefaultconfig (loglist : List Logconf) :
    Option Devconf → List Devconf → Except Stop (List Devconf × Option Devconf)
  | devdefault, [] => .ok ([], devdefault)
  | devdefault, device :: next => do
      let (device, devdefault) ← qaoedDevdefaults loglist devdefault device
      let (devices, devdefault) ← qaoedDefaultconfig loglist devdefault next
      return (device :: devices, devdefault)

/-! ## The interfaces -/

def Ifconf.toIfst (ifent : Ifconf) (ifname : CString) : Ifst :=
  ⟨ifname, none, ifent.mtu, ifent.buffsize, ifent.log⟩

/-- The interfaces in front of the first one without a name. -/
def namedPart : List Ifconf → List Ifst
  | [] => []
  | ifent :: next =>
      match ifent.ifname with
      | none => []
      | some ifname => ifent.toIfst ifname :: namedPart next

/-- The interfaces are opened one after the other; at one without a name the loop
copies from a NULL pointer, if it gets there. -/
def openConfigured (env : LoadEnv) (ifconfs : List Ifconf) : Except Stop (List Interface) :=
  match openAll env.interfaces (namedPart ifconfs) with
  | none => .error .null
  | some intlist =>
      if intlist.length < ifconfs.length then .error .crash
      else .ok (intlist.map fun ifst => ⟨ifst, 0⟩)

/-! ## The configuration as the checks see it -/

def Aclconf.toAclhdr (acl : Aclconf) : Aclhdr :=
  ⟨acl.name.getD [], acl.defaultpolicy, acl.acl, acl.log⟩

/-- A device with the access lists that its pointers lead to. -/
def Devconf.deref (acllist : List Aclconf) (device : Devconf) : Aoedev Aclhdr Nat :=
  let follow (acl : Option Nat) := (acl.bind (acllist[·]?)).map Aclconf.toAclhdr
  { device.toAoedev with
    wacl := follow device.wacl
    racl := follow device.racl
    cfgsetacl := follow device.cfgsetacl
    cfgracl := follow device.cfgracl }

def Conf.toQconfig (conf : Conf) : Qconfig Nat where
  devices := conf.devices.map (Devconf.deref conf.acllist)
  intlist := conf.intlist.map Interface.toIfst
  acllist := conf.acllist.map Aclconf.toAclhdr

/-! ## `qaoed_loadconfig` -/

/-- `return(NULL)` unless a condition holds. -/
def require (condition : Prop) [Decidable condition] : Except Stop Unit :=
  if condition then .ok () else .error .null

/-- Of the default devices the first one counts. -/
def qaoedLoadconfig (env : LoadEnv) (c : Cfg) : Except Stop Conf := do
  require (c ≠ .null)
  require (readglobal c = true)
  let (loglist, leadsBack) ← createLOG c
  openlogs env loglist leadsBack
  let ifconfs ← findINT loglist c
  require (ifconfs ≠ [])
  let acllist ← findACL loglist c
  let (dflts, acllist) ← findDFLT loglist ifconfs acllist c
  let (devlist, acllist) ← findDEV loglist ifconfs acllist c
  require (devlist ≠ [])
  let (devices, devdefault) ← qaoedDefaultconfig loglist dflts.head? devlist
  let intlist ← openConfigured env ifconfs
  let conf : Conf := ⟨loglist, intlist, devdefault, devices, acllist⟩
  require (qaoedValidateconfig env.stat conf.toQconfig = 0)
  return conf

end Qaoed.Config
