import Qaoed.Api.InterfaceCounts
import Qaoed.Config.PlanPolicy
import Qaoed.Network.Guarded
import Qaoed.Rcfg.PlannedFile

/-!
# The server that a configuration file asks for

From the text of a configuration to the threads that serve: the file is read and loaded, the
devices are started, and listeners and workers take their turns. What hosts can do to the files
and configuration strings of the devices is what the plan in the file lets them.
-/

namespace Qaoed.Daemon

open Qaoed.Api hiding Request StartEnv
open Qaoed.Config
open Qaoed.Device
open Qaoed.Frame
open Qaoed.Library
open Qaoed.Network
open Qaoed.Rcfg

/-! ## Starting -/

/-- The devices as the workers use them. -/
def serverSite (conf : Conf) (files : CString → List UInt8) : Site Nat :=
  ⟨conf.devices.map (Devconf.deref conf.acllist), files⟩

section Plan

variable (order : ByteOrder) (plan : Plan)

end Plan

/-! ## The devices of the plan -/

section Devices

variable {plan : Plan} {conf started : Conf} {intlist : List Ifst}

end Devices

end Qaoed.Daemon
