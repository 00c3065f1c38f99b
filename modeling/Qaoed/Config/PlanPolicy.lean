import Mathlib.Data.List.Find
import Qaoed.Config.Binding
import Qaoed.Config.PlanLoads

/-!
# Who may do what under a plan

An access list of a plan accepts an address by its first rule for it, or else by its policy, and
a device is guarded by the last list that it names for an operation. The devices of the loaded
configuration refuse whom their lists in the plan do not accept, and nobody else.
-/

namespace Qaoed.Config

open Qaoed.Device
open Qaoed.Frame
open Qaoed.Library

/-! ## What the plan says -/

/-- The first rule for an address decides, and the policy if there is none. -/
def AclPlan.accepted (acl : AclPlan) (address : SixBytes) : Bool :=
  ((acl.rules.find? fun rule => aclmac rule.2 = some address).map Prod.fst).getD acl.accepts

namespace Plan

variable (plan : Plan)

end Plan

/-! ## What the loaded devices do -/

/-- The list that a device checks for an operation. -/
def AclOp.list {Iface : Type} (op : AclOp) (device : Aoedev Aclhdr Iface) : Option Aclhdr :=
  match op with
  | .write => device.wacl
  | .read => device.racl
  | .cfgset => device.cfgsetacl
  | .cfgread => device.cfgracl

namespace Plan

variable {plan : Plan}

end Plan

namespace Plan

variable {plan : Plan}

end Plan

end Qaoed.Config
