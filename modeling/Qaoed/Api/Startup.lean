import Qaoed.Config.Load
import Qaoed.Device.Capacity

/-!
# Starting devices

`qaoed_startdevice` opens what a device exports and starts its worker, which
raises the count of the device's interface. `qaoed_devices` does so for every
configured device before requests of API clients are handled.
-/

namespace Qaoed.Api

open Qaoed.Device
open Qaoed.Config

/-! ## The count of an interface -/

/-- Move the count of the interface that a pointer leads to. -/
def intref (step : Int) (interface : Option Nat) (intlist : List Interface) :
    Except Stop (List Interface) :=
  follow interface fun position =>
    .ok (intlist.modify position fun interface => { interface with refcnt := interface.refcnt + step })

def qaoedIntrefup (interface : Option Nat) (intlist : List Interface) :
    Except Stop (List Interface) := intref 1 interface intlist

def qaoedIntrefdown (interface : Option Nat) (intlist : List Interface) :
    Except Stop (List Interface) := intref (-1) interface intlist

/-! ## One device -/

/-- What the operating system answers while a device is started. -/
structure StartEnv where
  opens : Bool
  fdopens : Bool
  stat : Option FileStat
  /-- What `arch_getsize` leaves in `mediasize`. -/
  mediasize : Int
  mutexInit : Bool
  condInit : Bool
  threadCreated : Bool
  deriving DecidableEq, Repr

/-- Whether the worker runs, and the interfaces. -/
def qaoedStartworker (env : StartEnv) (device : Devconf) (intlist : List Interface) :
    Except Stop (Bool × List Interface) :=
  if !env.mutexInit then .ok (false, intlist)
  else if !env.condInit then .ok (false, intlist)
  else do
    let raised ← qaoedIntrefup device.interface intlist
    if env.threadCreated then return (true, raised)
    else
      let lowered ← qaoedIntrefdown device.interface raised
      return (false, lowered)

/-- The device with its size, unless -1 is returned, and the interfaces. -/
def qaoedStartdevice (env : StartEnv) (device : Devconf) (intlist : List Interface) :
    Except Stop (Option Devconf × List Interface) :=
  if device.devicename.isNone then .ok (none, intlist)
  else if !env.opens then .ok (none, intlist)
  else if !env.fdopens then .ok (none, intlist)
  else
    match env.stat with
    | none => .ok (none, intlist)
    | some fstat => do
        let size : Int :=
          match fstat with
          | .blk => env.mediasize
          | .chr => env.mediasize
          | .other stSize => stSize / 512
        let device := { device with size := size }
        let (started, intlist) ← qaoedStartworker env device intlist
        return (if started then some device else none, intlist)

/-! ## All devices -/

def startAll : (Nat → StartEnv) → List Devconf → List Interface →
    Except Stop (Option (List Devconf) × List Interface)
  | _, [], intlist => .ok (some [], intlist)
  | env, device :: next, intlist => do
      match ← qaoedStartdevice (env 0) device intlist with
      | (none, intlist) => return (none, intlist)
      | (some device, intlist) =>
          let (next, intlist) ← startAll (fun count => env (count + 1)) next intlist
          return (next.map (device :: ·), intlist)

/-- `qaoed_devices`: the configuration with its devices started, unless -1 is returned. -/
def qaoedDevices (env : Nat → StartEnv) (conf : Conf) : Except Stop (Option Conf) :=
  if conf.devices.isEmpty then .ok none
  else do
    let (devices, intlist) ← startAll env conf.devices conf.intlist
    return devices.map fun devices => { conf with devices := devices, intlist := intlist }

end Qaoed.Api
