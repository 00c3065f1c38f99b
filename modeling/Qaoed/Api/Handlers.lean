import Qaoed.Api.Messages
import Qaoed.Api.Startup
import Qaoed.Library.RwLock

/-!
# The handlers of the API thread

Each handler on a configuration, with what the operating system answers to it: the
configuration it leaves, its calls on the two list locks in their order, and the
replies it sends. A handler that follows a NULL pointer takes the daemon down.
-/

namespace Qaoed.Api

open Qaoed.Device
open Qaoed.Frame
open Qaoed.Library
open Qaoed.Config

inductive Lock where
  | devlistlock
  | intlistlock
  deriving DecidableEq, Repr

/-- What the operating system answers to a handler. -/
structure ApiEnv where
  malloc : Bool
  /-- Two readings of an interface's MTU. -/
  mtu : Option Int
  mtuAgain : Option Int
  /-- The return value of `pthread_cancel`. -/
  cancel : Int
  start : StartEnv
  deriving DecidableEq, Repr

/-- What a handler did until it returned or was `stopped`. A handler that stops while
it reads the configuration leaves the one it started with. -/
structure Outcome where
  conf : Conf
  locks : List (LockCall Lock)
  sent : List Reply
  stopped : Option Stop

/-- The calls around a section that reads a list, or changes it. -/
def readLocked (lock : Lock) : List (LockCall Lock) := [.rdlock lock, .unlock lock]

def writeLocked (lock : Lock) : List (LockCall Lock) := [.wrlock lock, .unlock lock]

/-! ## Reports -/

/-- The interfaces are counted under a lock of the device list, and a lock of the
interface list is given up. -/
def processStatusRequest (conf : Conf) : Outcome :=
  let numTargets := conf.devices.length
  let numInterfaces := conf.intlist.length
  let status : QaoedStatus := ⟨numTargets, numInterfaces, numInterfaces + numTargets + 2⟩
  ⟨conf,
    [.rdlock .devlistlock, .unlock .devlistlock, .rdlock .devlistlock, .unlock .intlistlock],
    [⟨.allok, sizeofQaoedStatus, sizeofQaoedStatus, .status status⟩], none⟩

def targetInfo (intlist : List Interface) (device : Devconf) : Except Stop TargetInfo :=
  follow device.devicename fun devicename =>
    follow (device.interface.bind (intlist[·]?)) fun interface =>
      .ok ⟨devicename, device.shelf, device.slot, interface.ifname, device.writecache,
        device.broadcast⟩

def processTargetList (env : ApiEnv) (conf : Conf) : Outcome :=
  let repsize := conf.devices.length * sizeofTargetInfo
  if !env.malloc then ⟨conf, readLocked .devlistlock, [], none⟩
  else
    match conf.devices.mapM (targetInfo conf.intlist) with
    | .error stop => ⟨conf, [.rdlock .devlistlock], [], some stop⟩
    | .ok tglist =>
        ⟨conf, readLocked .devlistlock, [⟨.allok, repsize, repsize, .targets tglist⟩], none⟩

def aclInfo (acl : Aclconf) : Except Stop AclInfo :=
  follow acl.name fun name => .ok ⟨name, acl.aclnum, acl.defaultpolicy⟩

/-- Access lists have no lock. -/
def processAclList (env : ApiEnv) (conf : Conf) : Outcome :=
  let repsize := conf.acllist.length * sizeofAclInfo
  if !env.malloc then ⟨conf, [], [], none⟩
  else
    match conf.acllist.mapM aclInfo with
    | .error stop => ⟨conf, [], [], some stop⟩
    | .ok aclinfo => ⟨conf, [], [⟨.allok, repsize, repsize, .acls aclinfo⟩], none⟩

def ifInfo (interface : Interface) : IfInfo :=
  ⟨interface.ifname, interface.hwaddr.getD .zero, interface.mtu⟩

def processIntList (env : ApiEnv) (conf : Conf) : Outcome :=
  let repsize := conf.intlist.length * sizeofIfInfo
  if !env.malloc then ⟨conf, readLocked .intlistlock, [], none⟩
  else
    ⟨conf, readLocked .intlistlock,
      [⟨.allok, repsize, repsize, .interfaces (conf.intlist.map ifInfo)⟩], none⟩

/-- A structure of one size is announced, and as many bytes are sent as another one has. -/
def processInterfaceStatus (conf : Conf) (ifcmd : InterfaceCmd) : Outcome :=
  let reply := match (referenceint ifcmd.ifname conf.intlist).bind (conf.intlist[·]?) with
    | none => (ApiError.failure, IfInfo.mk [] .zero 0)
    | some interface => (ApiError.allok, ifInfo interface)
  ⟨conf, [], [⟨reply.1, sizeofIfInfo, sizeofInterfaceCmd, .interface reply.2⟩], none⟩

/-! ## Setting an MTU -/

def processInterfaceSetmtu (env : ApiEnv) (conf : Conf) (ifcmd : InterfaceCmd) : Outcome :=
  let (intlist, reply) := Config.processInterfaceSetmtu (conf.intlist.map Interface.toIfst)
    ⟨ifcmd, env.mtu, env.mtuAgain⟩
  let counted := conf.intlist.zipWith (fun interface ifent => ⟨ifent, interface.refcnt⟩) intlist
  ⟨{ conf with intlist := counted }, [],
    [⟨reply.error, sizeofInterfaceCmd, sizeofInterfaceCmd, .ifcmd reply.ifcmd⟩], none⟩

/-! ## Setting access lists -/

/-- The list that a request names for an operation. -/
def TargetInfoDetailed.acl (target : TargetInfoDetailed) : AclOp → CString
  | .write => target.wacl
  | .read => target.racl
  | .cfgset => target.cfgsetacl
  | .cfgread => target.cfgracl

/-- A device whose access lists are replaced, the access lists, and the error to reply. -/
structure Setting where
  device : Devconf
  acllist : List Aclconf
  error : ApiError

/-- The part of the handler for one operation: the list of the device is dropped, and
the one that is named looked up. -/
def setAcl (target : TargetInfoDetailed) (setting : Setting) (op : AclOp) : Except Stop Setting :=
  let dropped := aclrefdown (op.get setting.device) setting.acllist
  if target.acl op = [] then .ok ⟨op.set setting.device none, dropped, setting.error⟩
  else do
    let acl ← referenceacl (target.acl op) dropped
    return ⟨op.set setting.device acl, aclrefup acl dropped,
      if acl.isNone then .failure else setting.error⟩

/-- A device that the request selects goes through all four parts. -/
def setDevice (target : TargetInfoDetailed) (intlist : List Interface) (setting : Setting) :
    Except Stop Setting :=
  if target.info.selects intlist setting.device then AclOp.all.foldlM (setAcl target) setting
  else .ok setting

/-- The loop over the devices. -/
def setAcls (target : TargetInfoDetailed) (intlist : List Interface) :
    List Devconf → List Aclconf → ApiError → Except Stop (List Devconf × List Aclconf × ApiError)
  | [], acllist, error => .ok ([], acllist, error)
  | device :: next, acllist, error => do
      let setting ← setDevice target intlist ⟨device, acllist, error⟩
      let (devices, acllist, error) ← setAcls target intlist next setting.acllist setting.error
      return (setting.device :: devices, acllist, error)

def processTargetSetacl (conf : Conf) (target : TargetInfoDetailed) : Outcome :=
  match setAcls target conf.intlist conf.devices conf.acllist .allok with
  | .error stop => ⟨conf, [], [], some stop⟩
  | .ok (devices, acllist, error) =>
      ⟨{ conf with devices := devices, acllist := acllist }, [],
        [⟨error, sizeofTargetInfoDetailed, sizeofTargetInfoDetailed, .detailed target⟩], none⟩

/-! ## Removing a target -/

/-- The loop that unlinks: the devices that stay, and the loop variable behind the loop. -/
def unlinkSelected (selects : Devconf → Bool) : List Devconf → List Devconf × Option Devconf
  | [] => ([], none)
  | device :: next =>
      let (rest, cursor) := unlinkSelected selects next
      (if selects device then rest else device :: rest, cursor)

/-- The interface whose count is lowered is the one of the loop variable. -/
def processTargetDel (env : ApiEnv) (conf : Conf) (target : TargetInfo) : Outcome :=
  let selects := target.selects conf.intlist
  let cnt := conf.devices.countP selects
  if cnt > 1 then ⟨conf, writeLocked .devlistlock, [.header .failure], none⟩
  else if cnt = 0 then ⟨conf, writeLocked .devlistlock, [.header .failure], none⟩
  else
    let (devices, device) := unlinkSelected selects conf.devices
    let conf := { conf with devices := devices }
    if env.cancel = -1 then ⟨conf, writeLocked .devlistlock, [.header .failure], none⟩
    else
      match follow device fun device => qaoedIntrefdown device.interface conf.intlist with
      | .error stop => ⟨conf, writeLocked .devlistlock, [], some stop⟩
      | .ok intlist =>
          ⟨{ conf with intlist := intlist }, writeLocked .devlistlock, [.header .allok], none⟩

/-! ## Adding a target -/

def newDevice (intlist : List Interface) (target : TargetInfo) : Devconf where
  devicename := some target.devicename
  size := 0
  shelf := target.shelf
  slot := target.slot
  interface := if target.ifname = [] then none else referenceint target.ifname intlist
  wacl := none
  racl := none
  cfgsetacl := none
  cfgracl := none
  cfgLen := 0
  cfg := CfgBuf.zero
  writecache := target.writecache
  broadcast := target.broadcast
  log := none

/-- The loop that looks for a device with the slot and shelf of the new one. -/
def slotTaken (newdevice : Devconf) : List Devconf → Except Stop Bool
  | [] => .ok false
  | device :: next =>
      if device.slot = newdevice.slot ∧ device.shelf = newdevice.shelf then
        if device.interface = newdevice.interface then .ok true
        else
          follow device.devicename fun devicename =>
            follow newdevice.devicename fun newname =>
              if devicename ≠ newname then .ok true else slotTaken newdevice next
      else slotTaken newdevice next

/-- Default values are taken from the configuration, and counted in it, before the
device is checked. -/
def processTargetAdd (env : ApiEnv) (conf : Conf) (target : TargetInfo) : Outcome :=
  if !env.malloc then ⟨conf, [], [.header .failure], none⟩
  else
    match qaoedDevdefaults conf.loglist conf.devdefault (newDevice conf.intlist target) with
    | .error stop => ⟨conf, [], [], some stop⟩
    | .ok (newdevice, devdefault) =>
        let conf := { conf with devdefault := devdefault }
        match slotTaken newdevice conf.devices with
        | .error stop => ⟨conf, [.rdlock .devlistlock], [], some stop⟩
        | .ok true => ⟨conf, readLocked .devlistlock, [], none⟩
        | .ok false =>
            match qaoedStartdevice env.start newdevice conf.intlist with
            | .error stop => ⟨conf, readLocked .devlistlock, [], some stop⟩
            | .ok (none, intlist) =>
                ⟨{ conf with intlist := intlist }, readLocked .devlistlock,
                  [⟨.failure, sizeofTargetInfo, sizeofTargetInfo, .target target⟩], none⟩
            | .ok (some newdevice, intlist) =>
                let conf := { conf with devices := conf.devices ++ [newdevice], intlist := intlist }
                let locks := readLocked .devlistlock ++ writeLocked .devlistlock
                match targetInfo intlist newdevice with
                | .error stop => ⟨conf, locks, [], some stop⟩
                | .ok target =>
                    ⟨conf, locks, [⟨.allok, sizeofTargetInfo, sizeofTargetInfo, .target target⟩], none⟩

/-! ## The API thread -/

/-- Commands without a handler are named on the terminal, and that is all. -/
def processAPIrequest (env : ApiEnv) (conf : Conf) : Request → Outcome
  | .status => processStatusRequest conf
  | .interfacesList => processIntList env conf
  | .interfacesStatus ifcmd => processInterfaceStatus conf ifcmd
  | .interfacesSetmtu ifcmd => processInterfaceSetmtu env conf ifcmd
  | .targetList => processTargetList env conf
  | .targetAdd target => processTargetAdd env conf target
  | .targetDel target => processTargetDel env conf target
  | .targetSetacl target => processTargetSetacl conf target
  | .aclList => processAclList env conf
  | .unhandled _ => ⟨conf, [], [], none⟩

/-- A request with the answers of the operating system to its handler. -/
structure Call where
  env : ApiEnv
  request : Request
  deriving DecidableEq, Repr

/-- The daemon as the API thread sees it. -/
structure Daemon where
  conf : Conf
  stopped : Option Stop

/-- A daemon that was taken down handles no more requests. -/
def handle (daemon : Daemon) (call : Call) : Outcome :=
  match daemon.stopped with
  | some stop => ⟨daemon.conf, [], [], some stop⟩
  | none => processAPIrequest call.env daemon.conf call.request

def apiThread : Mealy Daemon Call Outcome where
  next daemon call := ⟨(handle daemon call).conf, (handle daemon call).stopped⟩
  out := handle

/-- The system grants whatever a handler asks for. -/
def grantingEnv : ApiEnv :=
  ⟨true, some 1500, some 1500, 0, ⟨true, true, some (.other 1048576), 0, true, true, true⟩⟩

end Qaoed.Api
