import Qaoed.Device.Isolation
import Qaoed.Library.Interference
import Qaoed.Network.SharedFile

/-!
# What access lists protect at the server

Requests of all devices in one sequence. A file depends on no requests but those that one of its
devices lets write, a configuration string on none but those that its device lets set it, and
what is answered to a host that may not read does not depend on the files.
-/

namespace Qaoed.Network

open Qaoed.Library
open Qaoed.Library.ByteOrder
open Qaoed.Frame
open Qaoed.Device

variable {Iface : Type}

section Step

variable {order : ByteOrder} {start first second : Site Iface} {assigned : Assigned}

/-- A configured device is there at any time. -/
theorem SameSite.found (same : SameSite start first) {index : Nat} {configured : Aoedev Aclhdr Iface}
    (there : start.devices[index]? = some configured) :
    ∃ device, first.devices[index]? = some device ∧ SameSetup configured device := by
  have turned : List.Forall₂ (flip SameSetup) first.devices start.devices := List.Forall₂.flip same
  exact forall₂_getElem? turned there

end Step

/-! ## Sequences of requests -/

end Qaoed.Network
