import Qaoed.Device.AccessControl
import Qaoed.Device.SectorStore
import Qaoed.Network.Serial

/-!
# Devices that share a file

Devices with the same name are ways to one file. Their workers read and write it without
telling each other, and still a reader finds in each sector what was written last, by
whichever device, and at the least what was acknowledged before its request arrived.
-/

namespace Qaoed.Network

open Qaoed.Library
open Qaoed.Library.ByteOrder
open Qaoed.Frame
open Qaoed.Device

variable {Iface : Type}

/-! ## Writes to a file -/

/-- A request that `qaoed_processwork` takes for a permitted write. -/
def writes (order : ByteOrder) (device : Aoedev Aclhdr Iface) (request : Request) : Bool :=
  (request.work.hdr order).cmd == aoeCmdAta &&
    decide (sizeofAoeAtahdr ≤ sizeT request.work.packetLen) &&
    isAtaWrite (request.work.ata order).cmdstat &&
    !aclRefuses device.wacl (request.work.hdr order).hSource

/-- What an assigned request asks to write to a file. -/
def fileWrite? (order : ByteOrder) (start : Site Iface) (file : CString) (assigned : Assigned) :
    Option (BlockWrite (List UInt8)) :=
  (start.devices[assigned.device]?).bind fun device =>
    if target device = file ∧ writes order device assigned.request = true then
      blockWrite? order assigned.request
    else none

/-- The writes to a file among the requests, through all its devices. -/
def fileWrites (order : ByteOrder) (start : Site Iface) (file : CString)
    (requests : List Assigned) : List (BlockWrite (List UInt8)) :=
  requests.filterMap (fileWrite? order start file)

/-- A write that the device permits stays inside the file and is carried out in full. -/
def Orderly (order : ByteOrder) (start : Site Iface) (assigned : Assigned) : Prop :=
  ∀ device, start.devices[assigned.device]? = some device →
    writes order device assigned.request = true →
      SectorRequest order device (start.files (target device)).length assigned.request

/-- A read of sectors of the file of a device, carried out in full. -/
structure ReadsSectors (order : ByteOrder) (start : Site Iface) (device : Aoedev Aclhdr Iface)
    (assigned : Assigned) : Prop where
  placed : start.devices[assigned.device]? = some device
  cmd : (assigned.request.work.hdr order).cmd = aoeCmdAta
  checked : sizeofAoeAtahdr ≤ sizeT assigned.request.work.packetLen
  read : isAtaRead (assigned.request.work.ata order).cmdstat = true
  sector : SectorRequest order device (start.files (target device)).length assigned.request

/-- What was sent for a read: sector by sector what is in a map of sectors. -/
def Delivers (order : ByteOrder) (request : Request) (sectors : Nat → List UInt8)
    (sent : Option (List Sent)) : Prop :=
  ∃ hdr data, sent = some [.ata hdr data] ∧
    data.length = (request.work.ata order).nsect.toNat * 512 ∧
      ∀ index < (request.work.ata order).nsect.toNat,
        blockAt 512 data index = sectors (firstSector (request.work.ata order) + index)

/-- The devices with the name of a file are ways to one store of sectors: the file is the one from
the start with all writes that were handled, in their order, a file without writes is as it was,
and what a read is answered with in each sector is what the last write handled before it, through
whichever of the devices, left there. -/
structure OneStore (order : ByteOrder) (start : Site Iface) (state : Service Iface) : Prop where
  files : ∀ file, (state.site.files file).length = (start.files file).length ∧
    blockAt 512 (state.site.files file) = BlockWrite.replay (blockAt 512 (start.files file))
      (fileWrites order start file (state.handled.map Handled.assigned))
  untouched : ∀ file, fileWrites order start file (state.handled.map Handled.assigned) = [] →
    state.site.files file = start.files file
  reads : ∀ earlier read later device, state.handled = earlier ++ read :: later →
    ReadsSectors order start device read.assigned →
    Delivers order read.request
      (BlockWrite.latest (blockAt 512 (start.files (target device)))
        (fileWrites order start (target device) (earlier.map Handled.assigned)))
      state.sent[earlier.length]?

section Step

variable {order : ByteOrder} {start site : Site Iface} {assigned : Assigned}

theorem writes_congr {dev dev' : Aoedev Aclhdr Iface} (same : SameSetup dev dev')
    (request : Request) : writes order dev' request = writes order dev request := by
  rw [writes, writes, same.wacl]

theorem sectorRequest_congr {dev dev' : Aoedev Aclhdr Iface} (same : SameSetup dev dev')
    {size : Nat} {request : Request} (sector : SectorRequest order dev size request) :
    SectorRequest order dev' size request := by
  obtain ⟨cfg, cfgLen, rfl⟩ := same
  exact { sector with permitted := sector.permitted }

theorem target_congr {dev dev' : Aoedev Aclhdr Iface} (same : SameSetup dev dev') :
    target dev' = target dev := by
  obtain ⟨_, _, rfl⟩ := same
  rfl

/-- A request that is no permitted write leaves the file as it is. -/
theorem qaoedProcesswork_store_of_not_writes {device : Aoedev Aclhdr Iface} {request : Request}
    (store : List UInt8) (other : writes order device request = false) :
    (qaoedProcesswork order request.env device store request.work).store = store := by
  by_contra changed
  obtain ⟨cmd, write, permits⟩ := qaoedProcesswork_store changed
  have admitted := (aclRefuses_eq_false_iff _ _).mpr permits
  by_cases checked : sizeofAoeAtahdr ≤ sizeT request.work.packetLen
  · simp [writes, cmd, write, admitted, checked] at other
  · refine changed ?_
    unfold qaoedProcesswork
    dsimp only
    rw [cmd, if_pos (beq_self_eq_true _), if_neg checked]

/-- A step of the server is a step of the sector map of every file. -/
theorem serve_files (same : SameSite start site)
    (sizes : ∀ file, (site.files file).length = (start.files file).length)
    (orderly : Orderly order start assigned) (file : CString) :
    (((serve order).next site assigned).files file).length = (start.files file).length ∧
      blockAt 512 (((serve order).next site assigned).files file) =
        BlockWrite.replay (blockAt 512 (site.files file))
          (fileWrite? order start file assigned).toList := by
  unfold serve fileWrite?
  dsimp only
  split
  · next missing =>
      have none : start.devices[assigned.device]? = none := by
        rw [List.getElem?_eq_none_iff] at missing ⊢
        rwa [List.Forall₂.length_eq same]
      rw [none]
      exact ⟨sizes file, rfl⟩
  · next device found =>
      obtain ⟨other, there, setup⟩ := forall₂_getElem? same found
      rw [there, Option.bind_some, ← target_congr setup]
      dsimp only
      cases permitted : writes order other assigned.request with
      | false =>
          rw [if_neg (by simp)]
          have kept := qaoedProcesswork_store_of_not_writes (site.files (target device))
            ((writes_congr setup _).trans permitted)
          rw [kept, Function.update_eq_self]
          exact ⟨sizes file, rfl⟩
      | true =>
          have sector := sectorRequest_congr setup (orderly other there permitted)
          rw [← target_congr setup, ← sizes (target device)] at sector
          have parts := permitted
          simp only [writes, Bool.and_eq_true, beq_iff_eq, decide_eq_true_eq] at parts
          obtain ⟨⟨⟨cmd, checked⟩, _⟩, _⟩ := parts
          obtain ⟨_, length, blocks⟩ := @served_refines _ _ ⟨device, _⟩ _ sector
          rw [qaoedProcesswork_ata cmd checked]
          by_cases here : target device = file
          · subst here
            rw [Function.update_self, if_pos ⟨rfl, rfl⟩]
            exact ⟨length.trans (sizes _), blocks⟩
          · rw [Function.update_of_ne (Ne.symm here), if_neg (by simp [here])]
            exact ⟨sizes file, rfl⟩

/-- A request that asks for no write to a file leaves it as it is. -/
theorem serve_untouched (same : SameSite start site) {file : CString}
    (none : fileWrite? order start file assigned = none) :
    ((serve order).next site assigned).files file = site.files file := by
  unfold serve
  dsimp only
  split
  · rfl
  · next device found =>
      obtain ⟨other, there, setup⟩ := forall₂_getElem? same found
      by_cases here : target device = file
      · subst here
        have other : writes order device assigned.request = false := by
          rw [writes_congr setup, ← Bool.not_eq_true]
          intro permitted
          have write : isAtaWrite (assigned.request.work.ata order).cmdstat = true := by
            simp only [writes, Bool.and_eq_true] at permitted
            exact permitted.1.2
          simp [fileWrite?, there, target_congr setup, permitted, blockWrite?, write] at none
        exact (Function.update_self _ _ _).trans (qaoedProcesswork_store_of_not_writes _ other)
      · exact Function.update_of_ne (Ne.symm here) _ _

/-- What a read is answered with is in the file. -/
theorem serve_reads {device : Aoedev Aclhdr Iface} (same : SameSite start site)
    (sizes : ∀ file, (site.files file).length = (start.files file).length)
    (reads : ReadsSectors order start device assigned) :
    Delivers order assigned.request (blockAt 512 (site.files (target device)))
      (some ((serve order).out site assigned)) := by
  have inside : assigned.device < site.devices.length := by
    rw [← List.Forall₂.length_eq same]
    exact (List.getElem?_eq_some_iff.mp reads.placed).1
  have found := List.getElem?_eq_getElem inside
  obtain ⟨other, there, setup⟩ := forall₂_getElem? same found
  cases reads.placed.symm.trans there
  have sector := sectorRequest_congr setup reads.sector
  rw [← sizes] at sector
  have served := @served_read _ _ ⟨_, _⟩ _ sector reads.read
  have length := @slice_sectors_length _ _ ⟨_, _⟩ _ sector
  unfold serve
  dsimp only
  rw [found]
  dsimp only
  rw [qaoedProcesswork_ata reads.cmd reads.checked, target_congr setup]
  refine ⟨_, _, congrArg some (congrArg Outcome.sent served), length, ?_⟩
  intro index small
  rw [transferLen, Nat.mul_comm _ 512]
  exact blockAt_slice 512 _ _ small

end Step

/-! ## Runs -/

section Runs

variable {order : ByteOrder} {start : Site Iface}

/-- Served requests replay their writes in the sector map of every file. -/
theorem serve_run (requests : List Assigned)
    (orderly : ∀ assigned ∈ requests, Orderly order start assigned) :
    SameSite start ((serve order).run start requests) ∧
      ∀ file, (((serve order).run start requests).files file).length = (start.files file).length ∧
        blockAt 512 (((serve order).run start requests).files file) =
          BlockWrite.replay (blockAt 512 (start.files file))
            (fileWrites order start file requests) := by
  induction requests using List.reverseRecOn with
  | nil => exact ⟨sameSite_refl start, fun file => ⟨rfl, rfl⟩⟩
  | append_singleton earlier assigned ih =>
      obtain ⟨same, files⟩ := ih fun assigned member => orderly assigned (List.mem_append_left _ member)
      have last := orderly assigned (List.mem_append_right _ (List.mem_singleton_self assigned))
      rw [Mealy.run_snoc]
      refine ⟨serve_sameSite same assigned, ?_⟩
      intro file
      obtain ⟨length, blocks⟩ := serve_files same (fun file => (files file).1) last file
      have more : fileWrites order start file (earlier ++ [assigned]) =
          fileWrites order start file earlier ++ (fileWrite? order start file assigned).toList := by
        rw [fileWrites, List.filterMap_append, fileWrites]
        cases write : fileWrite? order start file assigned with
        | none => simp [write]
        | some block => simp [write]
      rw [blocks, (files file).2, more, BlockWrite.replay_append]
      exact ⟨length, rfl⟩

theorem serve_run_untouched (requests : List Assigned) {file : CString}
    (none : fileWrites order start file requests = []) :
    ((serve order).run start requests).files file = start.files file := by
  have step (site : Site Iface) (assigned : Assigned) (member : assigned ∈ requests)
      (kept : SameSite start site ∧ site.files file = start.files file) :
      SameSite start ((serve order).next site assigned) ∧
        ((serve order).next site assigned).files file = start.files file := by
    have nothing := List.filterMap_eq_nil_iff.mp none assigned member
    exact ⟨serve_sameSite kept.1 assigned, (serve_untouched kept.1 nothing).trans kept.2⟩
  exact ((serve order).run_invariant _ ⟨sameSite_refl start, rfl⟩ step).2

/-- Histories only grow. -/
theorem handled_grows {state final : Service Iface} {more : List ServiceAction}
    (continued : runSteps (serviceStep order) state more = some final) :
    state.handled <+: final.handled := by
  refine runSteps_preserved (fun reached => state.handled <+: reached.handled)
    (List.prefix_refl _) ?_ continued
  intro before action after grown taken
  cases moves_of_step taken with
  | dropped listener entry _ => exact grown
  | arrive listener entry idle => exact grown
  | insert listener qe holds found stepped => exact grown
  | finish listener holds => exact grown
  | turn device turn found stepped => exact grown
  | process device env found stepped holds entry => exact grown.trans (List.prefix_append _ _)

end Runs

/-- What was handled is one store of sectors behind each file. -/
theorem ServiceInv.oneStore {order : ByteOrder} {start : Site Iface} {state : Service Iface}
    (inv : ServiceInv order start state)
    (orderly : ∀ handled ∈ state.handled, Orderly order start handled.assigned) :
    OneStore order start state := by
  have all (requests : List Handled) (part : requests ⊆ state.handled) (assigned : Assigned)
      (member : assigned ∈ requests.map Handled.assigned) : Orderly order start assigned := by
    obtain ⟨handled, here, rfl⟩ := List.mem_map.mp member
    exact orderly handled (part here)
  refine ⟨fun file => ?_, fun file none => ?_, ?_⟩
  · rw [inv.site]
    exact (serve_run _ (all state.handled (List.Subset.refl _))).2 file
  · rw [inv.site]
    exact serve_run_untouched _ none
  · intro earlier read later device position reads
    have part : earlier ⊆ state.handled := position ▸ List.subset_append_left _ _
    obtain ⟨same, files⟩ := serve_run _ (all earlier part)
    have delivered := serve_reads same (fun file => (files file).1) reads
    rw [(files _).2, BlockWrite.replay_eq_latest] at delivered
    have index : earlier.length = (earlier.map Handled.assigned).length := by simp
    rw [inv.sent, position, List.map_append, List.map_cons, index, Mealy.outputs_getElem?]
    exact delivered

/-- A request that arrives after others were handled is handled after them. -/
theorem ServiceInv.handled_before {order : ByteOrder} {start : Site Iface}
    {state final : Service Iface} (inv : ServiceInv order start state)
    (grown : state.handled <+: final.handled) {earlier later : List Handled} {request : Handled}
    (position : final.handled = earlier ++ request :: later)
    (arrived : state.works.length ≤ request.work) : state.handled <+: earlier := by
  have front : earlier <+: final.handled := position ▸ List.prefix_append _ _
  rcases List.prefix_or_prefix_of_prefix grown front with inEarlier | ⟨rest, split⟩
  · exact inEarlier
  · cases rest with
    | nil => rw [← split, List.append_nil]
    | cons first rest =>
        rw [← split, position, List.prefix_append_right_inj] at grown
        obtain ⟨rfl, _⟩ := List.cons_prefix_cons.mp grown
        -- the request itself would be among what was handled before it arrived
        obtain ⟨_, made, there, _⟩ :=
          inv.request first (split ▸ List.mem_append_right _ List.mem_cons_self)
        have inside := (List.getElem?_eq_some_iff.mp there).1
        omega

/-- All devices with the name of a file implement one store of sectors, whatever the threads
do, and a request that arrives after an answer was sent is handled after the request that was
answered. The writes that are let through have to fit into the file and to be carried out in full,
and no worker may be woken with an empty queue. -/
theorem service_store (order : ByteOrder) (start : Site Iface) (listeners : Nat)
    (actions : List ServiceAction) (state : Service Iface)
    (wakes : EveryStep (serviceStep order) WakesForWork (serviceStart start listeners) actions)
    (reached : runSteps (serviceStep order) (serviceStart start listeners) actions = some state)
    (more : List ServiceAction) (final : Service Iface)
    (wakesMore : EveryStep (serviceStep order) WakesForWork state more)
    (continued : runSteps (serviceStep order) state more = some final)
    (orderly : ∀ handled ∈ final.handled, Orderly order start handled.assigned) :
    OneStore order start final ∧ ∀ earlier request later,
      final.handled = earlier ++ request :: later → state.works.length ≤ request.work →
        state.handled <+: earlier := by
  have inv := service_reached order start listeners actions state wakes reached
  have whole : runSteps (serviceStep order) (serviceStart start listeners) (actions ++ more) =
      some final := by
    rw [runSteps_append, reached]
    exact continued
  have invFinal := service_reached order start listeners _ final
    (everyStep_append wakes reached wakesMore) whole
  exact ⟨invFinal.oneStore orderly, fun earlier request later position arrived =>
    inv.handled_before (handled_grows continued) position arrived⟩

/-! ## Two ways to one sector -/

/-- Both devices export a file of one sector. -/
def twoPaths : Site Unit := { twoSlots with files := fun _ => List.replicate 512 0 }

/-- A request for the first sector through the device with a slot. -/
def sectorFrame (slot cmdstat : UInt8) : Workentry where
  aoepkt := fun index =>
    ([0, 0, 0, 0, 0, 0, 2, 0, 0, 0, 0, 1, 0x88, 0xa2, 0x10, 0, 0, 1, slot, 0, 0, 0, 0, 7,
      0, 0, 1, cmdstat, 0, 0, 0, 0, 0, 0, 0, 0][index]?).getD 7
  packetLen := 548
  ifentry := ⟨[], none, 1500, 1518, none⟩

def wholeSector : Env := ⟨true, some 512, fun _ => 0, fun _ => 0⟩

def writeRun : List ServiceAction :=
  [.arrive 0 (sectorFrame 1 winWrite), .insert 0 0, .finish 0, .turn 0 .lock, .turn 0 .unlink,
    .process 0 wholeSector]

def readRun : List ServiceAction :=
  [.arrive 0 (sectorFrame 2 winRead), .insert 0 0, .finish 0, .turn 1 .lock, .turn 1 .unlink,
    .process 1 wholeSector]

theorem sectorFrame_sector {device : Aoedev Aclhdr Unit} {slot cmdstat : UInt8}
    (unlisted : device.racl = none ∧ device.wacl = none)
    (transfer : isAtaRead cmdstat = true ∨ isAtaWrite cmdstat = true) :
    SectorRequest .little device 512 ⟨sectorFrame slot cmdstat, wholeSector⟩ := by
  have first : firstSector ((sectorFrame slot cmdstat).ata .little) = 0 := by
    have flags : ((sectorFrame slot cmdstat).ata .little).flags = 0 := rfl
    have lba : ((sectorFrame slot cmdstat).ata .little).lba = SixBytes.zero := rfl
    rw [firstSector, flags, lba]
    decide
  have count : ((sectorFrame slot cmdstat).ata .little).nsect = 1 := rfl
  have length : transferLen ((sectorFrame slot cmdstat).ata .little) = 512 := by
    rw [transferLen, count]
    decide
  refine ⟨transfer, ⟨?_, ?_⟩, Nat.le_refl 1, ?_, ?_, ?_⟩
  · intro _
    rw [unlisted.1]
    exact fun _ attached => by cases attached
  · intro _
    rw [unlisted.2]
    exact fun _ attached => by cases attached
  · rw [first, count]
    decide
  · intro _
    rw [length]
    exact Int.le_refl 548
  · rw [length]
    exact ⟨rfl, rfl⟩

set_option maxRecDepth 8192 in
/-- What is written through the first device is read through the second one. -/
theorem service_store_twoPaths :
    ∃ state final, runSteps (serviceStep .little) (serviceStart twoPaths 1) writeRun = some state ∧
      runSteps (serviceStep .little) state readRun = some final ∧
      (OneStore .little twoPaths final ∧ ∀ earlier request later,
        final.handled = earlier ++ request :: later → state.works.length ≤ request.work →
          state.handled <+: earlier) ∧
      Delivers .little ⟨sectorFrame 2 winRead, wholeSector⟩
        (BlockWrite.latest (blockAt 512 (List.replicate 512 0))
          (fileWrites .little twoPaths [] [⟨0, ⟨sectorFrame 1 winWrite, wholeSector⟩⟩]))
        final.sent[1]? := by
  have runs : ((runSteps (serviceStep .little) (serviceStart twoPaths 1) writeRun).bind fun state =>
      runSteps (serviceStep .little) state readRun).map Service.handled =
        some [⟨0, 0, ⟨sectorFrame 1 winWrite, wholeSector⟩⟩,
          ⟨1, 1, ⟨sectorFrame 2 winRead, wholeSector⟩⟩] := rfl
  obtain ⟨final, both, handled⟩ := Option.map_eq_some_iff.mp runs
  obtain ⟨state, reached, continued⟩ := Option.bind_eq_some_iff.mp both
  have never (actions : List ServiceAction) (known : actions = writeRun ∨ actions = readRun)
      (start : Service Unit) : EveryStep (serviceStep .little) WakesForWork start actions := by
    refine everyStep_of_always ?_
    rcases known with rfl | rfl
    all_goals
      intro action member state
      simp only [writeRun, readRun, List.mem_cons, List.not_mem_nil, or_false] at member
      rcases member with rfl | rfl | rfl | rfl | rfl | rfl
      all_goals trivial
  have stored := service_store .little twoPaths 1 writeRun state (never _ (Or.inl rfl) _) reached
    readRun final (never _ (Or.inr rfl) _) continued ?_
  · refine ⟨state, final, reached, continued, stored, ?_⟩
    refine stored.1.reads [⟨0, 0, ⟨sectorFrame 1 winWrite, wholeSector⟩⟩]
      ⟨1, 1, ⟨sectorFrame 2 winRead, wholeSector⟩⟩ [] { oneSector.dev with slot := 2 } handled ?_
    exact ⟨rfl, rfl, by decide, rfl, sectorFrame_sector ⟨rfl, rfl⟩ (Or.inl rfl)⟩
  · intro request member device placed _
    rw [handled] at member
    rcases List.mem_pair.mp member with rfl | rfl
    · cases placed
      exact sectorFrame_sector ⟨rfl, rfl⟩ (Or.inr rfl)
    · cases placed
      exact sectorFrame_sector ⟨rfl, rfl⟩ (Or.inl rfl)

end Qaoed.Network
