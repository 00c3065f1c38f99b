import Qaoed.Device.Correlation
import Qaoed.Device.ErrorIndication
import Qaoed.Network.Serial

/-!
# Everything that is asked is answered

Which requests a device answers is decided by the request and by its access lists, but for the
two commands that compare the configuration string. The server keeps to it whatever its threads
do: each device answers what it is asked on an interface, in the order in which it is asked.
-/

namespace Qaoed.Network

open Qaoed.Library
open Qaoed.Library.ByteOrder
open Qaoed.Frame
open Qaoed.Device

variable {Iface : Type}

/-- Whether a device answers a request; `none` if its configuration string decides. -/
def promised (order : ByteOrder) (device : Aoedev Aclhdr Iface) (entry : Workentry) : Option Bool :=
  if (entry.hdr order).cmd = aoeCmdAta then
    some (decide (sizeofAoeAtahdr ≤ sizeT entry.packetLen))
  else if (entry.hdr order).cmd = aoeCmdCfg ∧ sizeofAoeCfghdr ≤ sizeT entry.packetLen then
    if cfgRefused device (entry.cfg order) then some false
    else if (entry.cfg order).command = aoeCfgMatch ∨
        (entry.cfg order).command = aoeCfgMatchPartial then none
    else some true
  else some false

/-- What was sent for a request: one frame or none, as promised, and in the name of the device. -/
structure Keeps (order : ByteOrder) (device : Aoedev Aclhdr Iface) (entry : Workentry)
    (sent : List Sent) : Prop where
  answered : promised order device entry = some true → sent.length = 1
  ignored : promised order device entry = some false → sent = []
  once : sent.length ≤ 1
  correlated : ∀ frame ∈ sent, CorrelatedHdr order device entry frame.aoehdr

/-- What the worker of a device has sent for the frames of one listener. -/
def Service.answersTo (state : Service Iface) (listener device : Nat) : List (List Sent) :=
  ((state.handled.zip state.sent).filter fun answered =>
    state.madeBy listener answered.1.work && decide (answered.1.device = device)).map Prod.snd

section Promises

variable {order : ByteOrder} {dev dev' : Aoedev Aclhdr Iface} {entry : Workentry}

theorem promised_congr (same : SameSetup dev dev') (entry : Workentry) :
    promised order dev' entry = promised order dev entry := by
  obtain ⟨_, _, rfl⟩ := same
  rfl

theorem CorrelatedHdr.congr (same : SameSetup dev dev') {hdr : AoeHdr}
    (correlated : CorrelatedHdr order dev' entry hdr) : CorrelatedHdr order dev entry hdr := by
  obtain ⟨_, _, rfl⟩ := same
  exact { correlated with }

theorem Keeps.congr (same : SameSetup dev dev') {sent : List Sent}
    (keeps : Keeps order dev' entry sent) : Keeps order dev entry sent where
  answered promise := keeps.answered ((promised_congr same entry).trans promise)
  ignored promise := keeps.ignored ((promised_congr same entry).trans promise)
  once := keeps.once
  correlated frame member := CorrelatedHdr.congr same (keeps.correlated frame member)

/-- How many frames are sent for a request. -/
theorem qaoedProcesswork_promised (env : Env) (store : List UInt8) :
    (promised order dev entry = some true →
      (qaoedProcesswork order env dev store entry).sent.length = 1) ∧
    (promised order dev entry = some false →
      (qaoedProcesswork order env dev store entry).sent.length = 0) := by
  unfold promised
  by_cases ata : (entry.hdr order).cmd = aoeCmdAta
  · rw [if_pos ata]
    by_cases checked : sizeofAoeAtahdr ≤ sizeT entry.packetLen
    · simp [qaoedProcesswork_ata ata checked, qaoedProcessATA_sent_length, checked]
    · unfold qaoedProcesswork
      simp [ata, checked]
  · rw [if_neg ata]
    by_cases cfg : (entry.hdr order).cmd = aoeCmdCfg ∧ sizeofAoeCfghdr ≤ sizeT entry.packetLen
    · rw [if_pos cfg, qaoedProcesswork_ofCfg cfg.1 cfg.2, qaoedProcessCFG_sent_length]
      cases refused : cfgRefused dev (entry.cfg order) with
      | true => simp
      | false =>
          by_cases compares : (entry.cfg order).command = aoeCfgMatch ∨
              (entry.cfg order).command = aoeCfgMatchPartial
          · simp [compares]
          · obtain ⟨notExactly, notPartly⟩ := not_or.mp compares
            have found : CfgMatches order env dev entry :=
              ⟨fun exactly => absurd exactly notExactly, fun partly => absurd partly notPartly⟩
            simp [compares, found]
    · rw [if_neg cfg]
      refine ⟨nofun, ?_⟩
      intro _
      rcases qaoedProcesswork_cases order env dev store entry with
        ⟨command, _, _⟩ | ⟨command, checked, _⟩ | ⟨_, exit⟩
      · exact absurd command ata
      · exact absurd ⟨command, checked⟩ cfg
      · rw [exit]
        rfl

theorem keeps_processwork (env : Env) (store : List UInt8) :
    Keeps order dev entry (qaoedProcesswork order env dev store entry).sent where
  answered := (qaoedProcesswork_promised env store).1
  ignored promise := List.length_eq_zero_iff.mp ((qaoedProcesswork_promised env store).2 promise)
  once := qaoedProcesswork_sent_length order env dev store entry
  correlated _ := correlatedHdr_sent

end Promises

section Answered

variable {order : ByteOrder} {start site : Site Iface}

/-- The answers of a run keep what the devices promise at its start. -/
theorem outputs_keeps (same : SameSite start site) (requests : List Assigned)
    (placed : ∀ assigned ∈ requests, assigned.device < start.devices.length) :
    List.Forall₂ (fun assigned sent => ∀ device, start.devices[assigned.device]? = some device →
        Keeps order device assigned.request.work sent)
      requests ((serve order).outputs site requests) := by
  induction requests generalizing site with
  | nil => exact .nil
  | cons assigned rest ih =>
      rw [Mealy.outputs_cons]
      refine .cons ?_ (ih (serve_sameSite same assigned) fun other member =>
        placed other (List.mem_cons_of_mem _ member))
      intro device there
      have inside : assigned.device < site.devices.length := by
        rw [← List.Forall₂.length_eq same]
        exact placed assigned List.mem_cons_self
      have found := List.getElem?_eq_getElem inside
      obtain ⟨other, first, setup⟩ := forall₂_getElem? same found
      cases there.symm.trans first
      unfold serve
      dsimp only
      rw [found]
      exact Keeps.congr setup (keeps_processwork _ _)

/-- A relation along two lists holds along the entries that are picked in the first one. -/
theorem forall₂_filter_zip {α β : Type*} {related : α → β → Prop} {first : List α}
    {second : List β} (all : List.Forall₂ related first second) (picks : α → Bool) :
    List.Forall₂ (fun item other => related item other ∧ picks item = true) (first.filter picks)
      (((first.zip second).filter fun pair => picks pair.1).map Prod.snd) := by
  induction all with
  | nil => exact .nil
  | @cons head head' rest rest' here _ ih =>
      rw [List.zip_cons_cons]
      cases picked : picks head with
      | true =>
          rw [List.filter_cons_of_pos picked, List.filter_cons_of_pos (by exact picked)]
          exact .cons ⟨here, picked⟩ ih
      | false =>
          rw [List.filter_cons_of_neg (by simp [picked]), List.filter_cons_of_neg (by simp [picked])]
          exact ih

end Answered

/-- On each interface each device answers the frames it is to handle, in their order: exactly
one frame for each request that it promises to answer and none for one that it does not, with
the tag of the request and the address of the device. Once the server is quiet none is left. A
worker that is woken with an empty queue would answer its last frame again. -/
theorem service_answered (order : ByteOrder) (start : Site Iface) (listeners : Nat)
    (actions : List ServiceAction) (state : Service Iface)
    (wakes : EveryStep (serviceStep order) WakesForWork (serviceStart start listeners) actions)
    (reached : runSteps (serviceStep order) (serviceStart start listeners) actions = some state)
    (listener device : Nat) (found : Aoedev Aclhdr Iface)
    (there : start.devices[device]? = some found) :
    ∃ entries, entries <+: due order start actions listener device ∧
      (state.Quiet → entries = due order start actions listener device) ∧
      List.Forall₂ (Keeps order found) entries (state.answersTo listener device) := by
  have inv := service_reached order start listeners actions state wakes reached
  have serial := inv.serial fun listener device =>
    runSteps_works actions (sameSite_refl start) reached listener device
  have placed := (List.getElem?_eq_some_iff.mp there).1
  refine ⟨state.handledFrom listener device, serial.inOrder listener device placed,
    fun quiet => serial.complete quiet listener device placed, ?_⟩
  have kept := @outputs_keeps _ order _ _ (sameSite_refl start)
    (state.handled.map Handled.assigned) (by
      intro assigned member
      obtain ⟨handled, known, rfl⟩ := List.mem_map.mp member
      exact (inv.request handled known).1)
  rw [← inv.sent, List.forall₂_map_left_iff] at kept
  rw [Service.handledFrom, Service.handledBy, List.filter_filter, List.forall₂_map_left_iff]
  refine (forall₂_filter_zip kept fun handled =>
    state.madeBy listener handled.work && decide (handled.device = device)).imp ?_
  rintro handled sent ⟨keeps, picked⟩
  obtain ⟨_, here⟩ := (Bool.and_eq_true _ _).mp picked
  refine keeps found ?_
  rw [Handled.assigned, of_decide_eq_true here]
  exact there

/-- Both devices answer the query. -/
theorem service_answered_query :
    ∃ state, runSteps (serviceStep .little) (serviceStart twoSlots 1) queryRun = some state ∧
      ∃ entries, entries <+: due .little twoSlots queryRun 0 1 ∧
        (state.Quiet → entries = due .little twoSlots queryRun 0 1) ∧
        List.Forall₂ (Keeps .little { oneSector.dev with slot := 2 }) entries
          (state.answersTo 0 1) := by
  have runs : (runSteps (serviceStep .little) (serviceStart twoSlots 1) queryRun).isSome = true :=
    rfl
  obtain ⟨state, reached⟩ := Option.isSome_iff_exists.mp runs
  refine ⟨state, reached, service_answered .little twoSlots 1 queryRun state ?_ reached 0 1 _ rfl⟩
  exact everyStep_of_always fun action member state => queryRun_wakes state action member

end Qaoed.Network
