import Qaoed.Device.AccessControl
import Qaoed.Library.Interference

/-!
# Hosts that share a device

All hosts on the network use one device through one queue. The access lists keep them
apart: a host that may neither write nor set the configuration string is not noticed by the
others, and one that is refused whatever it asks for does not notice them.
-/

namespace Qaoed.Device

open Qaoed.Library
open Qaoed.Frame

variable {Iface : Type}

/-- The host may neither write nor set the configuration string. -/
def onlyReads (dev : Aoedev Aclhdr Iface) (host : SixBytes) : Bool :=
  aclRefuses dev.wacl host && aclRefuses dev.cfgsetacl host

/-- The host may neither read, nor ask for the configuration string, nor set it. -/
def refused (dev : Aoedev Aclhdr Iface) (host : SixBytes) : Bool :=
  aclRefuses dev.racl host && aclRefuses dev.cfgracl host && aclRefuses dev.cfgsetacl host

/-- The host that sent a request. -/
def source (order : ByteOrder) (request : Request) : SixBytes := (request.work.hdr order).hSource

theorem not_permits {acl : Option Aclhdr} {host : SixBytes} (refuses : aclRefuses acl host = true) :
    ¬ Permits acl host := by
  rw [← aclRefuses_eq_false_iff, Bool.not_eq_false]
  exact refuses

theorem SameSetup.onlyReads {dev dev' : Aoedev Aclhdr Iface} (same : SameSetup dev dev')
    (host : SixBytes) : onlyReads dev' host = onlyReads dev host := by
  rw [Device.onlyReads, Device.onlyReads, same.wacl, same.cfgsetacl]

theorem SameSetup.symm {dev dev' : Aoedev Aclhdr Iface} (same : SameSetup dev dev') :
    SameSetup dev' dev := by
  obtain ⟨_, _, rfl⟩ := same
  exact ⟨dev.cfg, dev.cfgLen, rfl⟩

/-! ## Hosts that are not noticed -/

section Readers

variable {order : ByteOrder} {server : Server Iface} {request : Request}

/-- A request of such a host leaves device and store as they are. -/
theorem served_onlyReads (reads : onlyReads server.dev (source order request) = true) :
    (served (qaoedProcesswork order)).next server request = server := by
  obtain ⟨wacl, cfgsetacl⟩ := (Bool.and_eq_true _ _).mp reads
  have sameStore : (qaoedProcesswork order request.env server.dev server.store
      request.work).store = server.store := by
    by_contra changed
    exact not_permits wacl (qaoedProcesswork_store changed).2.2
  have sameDev : (qaoedProcesswork order request.env server.dev server.store
      request.work).dev = server.dev := by
    by_contra changed
    exact not_permits cfgsetacl (qaoedProcesswork_cfg changed).2.2
  show Server.mk _ _ = server
  rw [handle, sameStore, sameDev]

end Readers

/-- Hosts that may neither write nor set the configuration string leave no trace: without
their requests every run ends with the same device and store, and answers the others alike. -/
theorem readers_leaveNoTrace (order : ByteOrder) (dev : Aoedev Aclhdr Iface) (store : List UInt8)
    (requests : List Request) :
    (served (qaoedProcesswork order)).run ⟨dev, store⟩ requests =
        (served (qaoedProcesswork order)).run ⟨dev, store⟩
          (requests.filter fun request => !onlyReads dev (source order request)) ∧
      (served (qaoedProcesswork order)).outputsOn
          (fun request => !onlyReads dev (source order request)) ⟨dev, store⟩ requests =
        (served (qaoedProcesswork order)).outputs ⟨dev, store⟩
          (requests.filter fun request => !onlyReads dev (source order request)) := by
  have purged := (served (qaoedProcesswork order)).purge
    (fun request => !onlyReads dev (source order request))
    (fun first second => first = second ∧ SameSetup dev first.dev) ⟨dev, store⟩ ⟨dev, store⟩
    requests ⟨rfl, SameSetup.refl dev⟩
  refine (purged ?_ ?_ ?_).imp_left And.left
  · rintro first _ request ⟨rfl, setup⟩ reads
    rw [Bool.not_eq_false', ← setup.onlyReads] at reads
    rw [served_onlyReads reads]
    exact ⟨rfl, setup⟩
  · rintro first _ request ⟨rfl, setup⟩ _
    exact ⟨rfl, setup.trans (qaoedProcesswork_sameSetup order _ _ _ _)⟩
  · rintro first _ request ⟨rfl, _⟩ _
    rfl

/-! ## Hosts that do not notice -/

section Refused

variable {order : ByteOrder} {env : Env} {dev dev' : Aoedev Aclhdr Iface}
  {store store' : List UInt8} {work : Workentry}

/-- The answer to an ATA request does not depend on the configuration string. -/
theorem qaoedProcessATA_sent_sameSetup (same : SameSetup dev dev') :
    (qaoedProcessATA order env dev' store work).sent =
      (qaoedProcessATA order env dev store work).sent := by
  obtain ⟨cfg, cfgLen, rfl⟩ := same
  have refusal (request : AoeAtahdr) :
      ataRefused { dev with cfg := cfg, cfgLen := cfgLen } request = ataRefused dev request := rfl
  unfold qaoedProcessATA
  dsimp only
  rw [refusal]
  split_ifs <;> rfl

/-- Neither does the answer to a configuration request if both lists refuse its source. -/
theorem qaoedProcessCFG_sent_sameSetup (same : SameSetup dev dev')
    (read : aclRefuses dev.cfgracl (work.hdr order).hSource = true)
    (set : aclRefuses dev.cfgsetacl (work.hdr order).hSource = true) :
    (qaoedProcessCFG order env dev' store' work).sent =
      (qaoedProcessCFG order env dev store work).sent := by
  have readAsks (dev : Aoedev Aclhdr Iface)
      (reads : isCfgRead (work.cfg order).command = true) := cfgRefused_read dev reads
  have setAsks (dev : Aoedev Aclhdr Iface)
      (sets : isCfgSet (work.cfg order).command = true) := cfgRefused_set dev sets
  simp only [Workentry.cfg_aoehdr] at readAsks setAsks
  cases reads : isCfgRead (work.cfg order).command with
  | true =>
      rw [qaoedProcessCFG_refused ((readAsks dev' reads).trans (same.cfgracl ▸ read)),
        qaoedProcessCFG_refused ((readAsks dev reads).trans read)]
      rfl
  | false =>
      cases sets : isCfgSet (work.cfg order).command with
      | true =>
          rw [qaoedProcessCFG_refused ((setAsks dev' sets).trans (same.cfgsetacl ▸ set)),
            qaoedProcessCFG_refused ((setAsks dev sets).trans set)]
          rfl
      | false =>
          obtain ⟨_, _, rfl⟩ := same
          rw [qaoedProcessCFG_unknown reads sets, qaoedProcessCFG_unknown reads sets]
          rfl

theorem qaoedProcesswork_sent_refused (same : SameSetup dev dev')
    (refuses : refused dev (work.hdr order).hSource = true) :
    (qaoedProcesswork order env dev' store' work).sent =
      (qaoedProcesswork order env dev store work).sent := by
  obtain ⟨lists, set⟩ := (Bool.and_eq_true _ _).mp refuses
  obtain ⟨read, cfgread⟩ := (Bool.and_eq_true _ _).mp lists
  unfold qaoedProcesswork
  dsimp only
  split_ifs
  · rw [qaoedProcessATA_congr (same.racl ▸ read) rfl rfl, qaoedProcessATA_sent_sameSetup same]
  · rfl
  · exact qaoedProcessCFG_sent_sameSetup same cfgread set
  · rfl
  · rfl

end Refused

/-- Such a host is answered as if it had a device to itself that is set up alike, whatever that
device has for a configuration string and in its file. -/
theorem answers_alone (order : ByteOrder) {dev other : Aoedev Aclhdr Iface}
    (alike : SameSetup dev other) (store store' : List UInt8) {host : SixBytes}
    (refuses : refused dev host = true) (requests : List Request) :
    (served (qaoedProcesswork order)).outputsOn (fun request => source order request = host)
        ⟨dev, store⟩ requests =
      (served (qaoedProcesswork order)).outputs ⟨other, store'⟩
        (requests.filter fun request => source order request = host) := by
  have purged := (served (qaoedProcesswork order)).purge
    (fun request => source order request = host)
    (fun first second => SameSetup first.dev second.dev ∧ SameSetup dev first.dev)
    ⟨dev, store⟩ ⟨other, store'⟩ requests ⟨alike, SameSetup.refl dev⟩
  refine (purged ?_ ?_ ?_).2
  · rintro first second request ⟨alike, setup⟩ _
    have next := qaoedProcesswork_sameSetup order request.env first.dev first.store request.work
    exact ⟨next.symm.trans alike, setup.trans next⟩
  · rintro first second request ⟨alike, setup⟩ _
    have next := qaoedProcesswork_sameSetup order request.env first.dev first.store request.work
    have other := qaoedProcesswork_sameSetup order request.env second.dev second.store request.work
    exact ⟨(next.symm.trans alike).trans other, setup.trans next⟩
  · rintro first second request ⟨alike, setup⟩ own
    have here : refused first.dev (request.work.hdr order).hSource = true := by
      rw [refused, setup.racl, setup.cfgracl, setup.cfgsetacl]
      rw [← of_decide_eq_true own] at refuses
      exact refuses
    exact (qaoedProcesswork_sent_refused alike here).symm

/-- A host that is refused whatever it asks for learns nothing: in any two runs in which it asks
for the same it gets the same answers, whatever the files and the configuration strings are and
whatever other hosts ask for. -/
theorem refused_isolated (order : ByteOrder) {dev other : Aoedev Aclhdr Iface}
    (alike : SameSetup dev other) (store store' : List UInt8) {host : SixBytes}
    (refuses : refused dev host = true) {requests requests' : List Request}
    (own : (requests.filter fun request => source order request = host) =
      requests'.filter fun request => source order request = host) :
    (served (qaoedProcesswork order)).outputsOn (fun request => source order request = host)
        ⟨dev, store⟩ requests =
      (served (qaoedProcesswork order)).outputsOn (fun request => source order request = host)
        ⟨other, store'⟩ requests' := by
  have refuses' : refused other host = true := by
    rw [refused, alike.racl, alike.cfgracl, alike.cfgsetacl]
    exact refuses
  rw [answers_alone order alike store store' refuses requests,
    answers_alone order (SameSetup.refl other) store' store' refuses' requests', own]

/-- A device whose lists refuse everybody. -/
def closedDevice : Aoedev Aclhdr Unit :=
  { oneSector.dev with
    racl := some ⟨[], aclReject, [], none⟩
    cfgracl := some ⟨[], aclReject, [], none⟩
    cfgsetacl := some ⟨[], aclReject, [], none⟩ }

/-- A frame of zero bytes from the host with this last byte in its address. -/
def zeroFrame (last : UInt8) : Request :=
  ⟨⟨fun index => if index = 11 then last else 0, 36, ⟨[], none, 1500, 1518, none⟩⟩,
    ⟨true, none, fun _ => 0, fun _ => 0⟩⟩

/-- The same device with another configuration string. -/
def labelledDevice : Aoedev Aclhdr Unit := { closedDevice with cfgLen := 5 }

theorem refused_isolated_closed :
    (served (qaoedProcesswork .little)).outputsOn
        (fun request => source .little request = SixBytes.zero) ⟨closedDevice, []⟩
        [zeroFrame 1, zeroFrame 0] =
      (served (qaoedProcesswork .little)).outputsOn
        (fun request => source .little request = SixBytes.zero)
        ⟨labelledDevice, List.replicate 512 7⟩ [zeroFrame 0, zeroFrame 2] :=
  refused_isolated .little ⟨_, _, rfl⟩ _ _ (by decide) (by rfl)

end Qaoed.Device
