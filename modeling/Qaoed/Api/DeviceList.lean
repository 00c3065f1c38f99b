import Qaoed.Api.InterfaceCounts
import Qaoed.Library.Transition

/-!
# The device list in memory

Devices are linked in three functions: `parseDEV` and `processTARGET_ADD` put a new one
behind the last one, each with assignments of its own, and `processTARGET_DEL` takes one
out. The list is doubly linked after any of them, and holds what was added and not removed.
-/

namespace Qaoed.Api

open Qaoed.Device
open Qaoed.Library
open Qaoed.Config

/-- The list, and the blocks that devices were allocated in. -/
structure DeviceMemory where
  list : DoublyLinked Devconf
  used : List Nat

/-- No device yet: `conf->devices` is NULL. -/
def DeviceMemory.empty : DeviceMemory := ⟨⟨fun _ => none, none⟩, []⟩

section Memory

variable (malloc : List Nat → Nat) (rubbish : Nat → DNode Devconf)

/-! ## Devices of the configuration -/

/-- The entry for the next section, in a block that holds whatever was in memory there. -/
def newEntry (memory : DeviceMemory) : Option (DoublyLinked Devconf) :=
  let dev := malloc memory.used
  match memory.list.head with
  | none =>
      -- First entry
      let devlist := { memory.list.store dev (rubbish dev) with head := some dev }
      some (devlist.modify dev fun node => { node with prev := none })
  | some first =>
      (memory.list.lastFrom memory.used.length first).map fun last =>
        let devlist := memory.list.store dev (rubbish dev)
        let devlist := devlist.modify last fun node => { node with next := some dev }
        let devlist := devlist.modify dev fun node => { node with prev := some last }
        devlist.modify dev fun node => { node with next := none }

/-- `parseDEV` on a list in memory. The pointer to the next device is set to NULL with the
default values, and NULL is returned for a section that does not parse. -/
def parseDEVLinked (loglist : List Logconf) (intlist : List Ifconf)
    (state : DeviceMemory × List Aclconf) (c : Cfg) :
    Except Stop (DeviceMemory × List Aclconf) :=
  let block := malloc state.1.used
  follow (newEntry malloc rubbish state.1) fun devlist => do
    let (dev, acllist) ← devStatements loglist intlist state.2 blankDEV c
    let devlist := match dev with
      | none => { devlist with head := none }
      | some dev => devlist.modify block fun node => { node with item := dev, next := none }
    return (⟨devlist, state.1.used ++ [block]⟩, acllist)

def findDEVLinked (loglist : List Logconf) (intlist : List Ifconf) (acllist : List Aclconf)
    (c : Cfg) : Except Stop (DeviceMemory × List Aclconf) :=
  c.find (text "device") (parseDEVLinked malloc rubbish loglist intlist) id (.empty, acllist)

/-! ## Requests -/

/-- What `processTARGET_ADD` does to the list once the device is started. -/
def addDevice (memory : DeviceMemory) (device : Devconf) : Option DeviceMemory :=
  let newdevice := malloc memory.used
  let list := memory.list.store newdevice (rubbish newdevice)
  let list := list.modify newdevice fun _ => ⟨device, none, none⟩
  (list.linkLast memory.used.length newdevice).map fun list => ⟨list, memory.used ++ [newdevice]⟩

/-- What requests do to the list. -/
inductive ListStep where
  | add (newdevice : Devconf)
  | del (env : ApiEnv) (intlist : List Interface) (target : TargetInfo)

def listStep (memory : DeviceMemory) : ListStep → Option DeviceMemory
  | .add newdevice => addDevice malloc rubbish memory newdevice
  | .del env intlist target =>
      (processTargetDelLinked memory.used.length env memory.list intlist target).map fun removed =>
        { memory with list := removed.list }

end Memory

/-! ## What was added and removed -/

/-- A book of the devices: those that were added, each in its block, and the blocks of
those that were removed. -/
structure Ledger where
  used : List Nat
  added : List (Nat × Devconf)
  removed : List Nat

namespace Ledger

/-- The devices that were added and not removed, in order of addition. -/
def present (ledger : Ledger) : List (Nat × Devconf) :=
  ledger.added.filter fun entry => entry.1 ∉ ledger.removed

/-- A target is removed if it is the only one that the request selects. -/
def step (malloc : List Nat → Nat) (ledger : Ledger) : ListStep → Ledger
  | .add newdevice =>
      { ledger with
        used := ledger.used ++ [malloc ledger.used]
        added := ledger.added ++ [(malloc ledger.used, newdevice)] }
  | .del _ intlist target =>
      if selected ledger.present intlist target = 1 then
        { ledger with
          removed := ledger.removed ++
            (ledger.present.filter fun entry => target.selects intlist entry.2).map Prod.fst }
      else ledger

/-- Devices are in different blocks, each of which was handed out. -/
structure Proper (ledger : Ledger) : Prop where
  nodup : (ledger.added.map Prod.fst).Nodup
  added : ∀ block ∈ ledger.added.map Prod.fst, block ∈ ledger.used
  removed : ∀ block ∈ ledger.removed, block ∈ ledger.used

variable {ledger : Ledger} {malloc : List Nat → Nat}

theorem Proper.present_used (proper : Proper ledger) :
    ∀ block ∈ ledger.present.map Prod.fst, block ∈ ledger.used := by
  intro block member
  obtain ⟨entry, here, rfl⟩ := List.mem_map.mp member
  exact proper.added _ (List.mem_map_of_mem (List.mem_of_mem_filter here))

/-- There are at most as many devices as blocks. -/
theorem Proper.length_le (proper : Proper ledger) : ledger.present.length ≤ ledger.used.length := by
  have nodup : (ledger.present.map Prod.fst).Nodup :=
    proper.nodup.sublist (List.filter_sublist.map _)
  have smaller := nodup.length_le_of_subset proper.present_used
  rwa [List.length_map] at smaller

theorem present_add (proper : Proper ledger) (fresh : ∀ used, malloc used ∉ used)
    (newdevice : Devconf) :
    (ledger.step malloc (.add newdevice)).present =
      ledger.present ++ [(malloc ledger.used, newdevice)] := by
  have notRemoved : malloc ledger.used ∉ ledger.removed := fun member =>
    fresh _ (proper.removed _ member)
  have last : [(malloc ledger.used, newdevice)].filter (fun entry => decide (entry.1 ∉ ledger.removed)) =
      [(malloc ledger.used, newdevice)] := List.filter_cons_of_pos (decide_eq_true notRemoved)
  rw [present, step]
  dsimp only
  rw [List.filter_append, last, ← present]

theorem present_del (proper : Proper ledger) {env : ApiEnv} {intlist : List Interface}
    {target : TargetInfo} (one : selected ledger.present intlist target = 1) :
    (ledger.step malloc (.del env intlist target)).present =
      spared ledger.present intlist target := by
  rw [step, if_pos one, spared, present]
  dsimp only
  conv_rhs => rw [present, List.filter_filter]
  refine List.filter_congr fun entry member => ?_
  -- A block stands for one device.
  have same : entry.1 ∈ ((ledger.present.filter fun entry =>
      target.selects intlist entry.2).map Prod.fst) ↔
      entry.1 ∉ ledger.removed ∧ target.selects intlist entry.2 = true := by
    rw [List.mem_map]
    constructor
    · rintro ⟨other, selects, block⟩
      obtain ⟨here, selects⟩ := List.mem_filter.mp selects
      obtain ⟨memberOther, stays⟩ := List.mem_filter.mp here
      cases List.inj_on_of_nodup_map proper.nodup memberOther member block
      exact ⟨of_decide_eq_true stays, selects⟩
    · rintro ⟨stays, selects⟩
      exact ⟨entry, List.mem_filter.mpr ⟨List.mem_filter.mpr
        ⟨member, decide_eq_true stays⟩, selects⟩, rfl⟩
  simp only [List.mem_append, same]
  by_cases removed : entry.1 ∈ ledger.removed
  · simp [removed]
  · simp [removed]

theorem Proper.step (proper : Proper ledger) (fresh : ∀ used, malloc used ∉ used)
    (action : ListStep) : Proper (ledger.step malloc action) := by
  cases action with
  | add newdevice =>
      have notAdded : malloc ledger.used ∉ ledger.added.map Prod.fst := fun member =>
        fresh _ (proper.added _ member)
      refine ⟨?_, ?_, ?_⟩
      · rw [Ledger.step, List.map_append, List.nodup_append]
        refine ⟨proper.nodup, List.nodup_singleton _, ?_⟩
        rintro block member _ last rfl
        rw [List.mem_singleton.mp last] at member
        exact notAdded member
      · intro block member
        rw [Ledger.step, List.map_append, List.mem_append] at member
        rcases member with old | new
        · exact List.mem_append_left _ (proper.added block old)
        · exact List.mem_append_right _ new
      · exact fun block member => List.mem_append_left _ (proper.removed block member)
  | del env intlist target =>
      rw [Ledger.step]
      split_ifs
      · refine ⟨proper.nodup, proper.added, fun block member => ?_⟩
        rcases List.mem_append.mp member with old | new
        · exact proper.removed block old
        · obtain ⟨entry, here, rfl⟩ := List.mem_map.mp new
          exact proper.present_used _ (List.mem_map_of_mem (List.mem_of_mem_filter here))
      · exact proper

end Ledger

/-! ## The list in memory keeps the book -/

/-- The devices in the list are those of the book. -/
structure Keeps (memory : DeviceMemory) (ledger : Ledger) : Prop where
  used : memory.used = ledger.used
  proper : ledger.Proper
  linked : memory.list.Linked ledger.present

section Appending

variable {malloc : List Nat → Nat} {rubbish : Nat → DNode Devconf} {memory : DeviceMemory}
  {ledger : Ledger} {device : Devconf} {nodes : List (Nat × Devconf)}

/-- The assignments of `parseDEV` append an entry. -/
theorem newEntry_linked (linked : memory.list.Linked nodes)
    (fresh : malloc memory.used ∉ nodes.map Prod.fst) (enough : nodes.length ≤ memory.used.length) :
    ∃ devlist, newEntry malloc rubbish memory = some devlist ∧
      ∀ dev, (devlist.modify (malloc memory.used) fun node =>
        { node with item := dev, next := none }).Linked (nodes ++ [(malloc memory.used, dev)]) := by
  have apart (other : Nat) (member : other ∈ nodes.map Prod.fst) : other ≠ malloc memory.used :=
    fun same => fresh (same ▸ member)
  unfold newEntry
  cases head : memory.list.head with
  | none =>
      have none := DoublyLinked.lastOf_of_null linked head
      refine ⟨_, rfl, fun dev => linked.append fresh ?_ ?_ ?_⟩
      · rw [head]
        rfl
      · simp [DoublyLinked.modify_heap, DoublyLinked.store_heap, none]
      · intro other member
        have apart := apart other member
        rw [DoublyLinked.modify_other _ apart, DoublyLinked.modify_other _ apart, none]
        simp [DoublyLinked.store_other _ apart]
  | some first =>
      obtain ⟨last, atEnd, inside⟩ := DoublyLinked.exists_lastOf linked head
      have walk : memory.list.lastFrom memory.used.length first = some last :=
        (linked.lastFrom head enough).trans atEnd
      have lastApart := apart last inside
      dsimp only
      rw [walk, Option.map_some]
      refine ⟨_, rfl, fun dev => linked.append fresh ?_ ?_ ?_⟩
      · rw [head]
        exact head
      · simp [DoublyLinked.modify_heap, DoublyLinked.store_heap, atEnd, lastApart]
      · intro other member
        have apart := apart other member
        rw [DoublyLinked.modify_other _ apart, DoublyLinked.modify_other _ apart,
          DoublyLinked.modify_other _ apart, DoublyLinked.modify_heap,
          DoublyLinked.store_other _ apart, atEnd]
        simp only [Option.some.injEq]

/-- So do those of `processTARGET_ADD`, which walks over the list once the new device is in
memory. -/
theorem addDevice_linked (linked : memory.list.Linked nodes)
    (fresh : malloc memory.used ∉ nodes.map Prod.fst) (enough : nodes.length ≤ memory.used.length) :
    ∃ list, addDevice malloc rubbish memory device =
        some ⟨list, memory.used ++ [malloc memory.used]⟩ ∧
      list.Linked (nodes ++ [(malloc memory.used, device)]) := by
  let stored := (memory.list.store (malloc memory.used) (rubbish (malloc memory.used))).modify
    (malloc memory.used) fun _ => ⟨device, none, none⟩
  have before : stored.Linked nodes := by
    refine (linked.store fresh (rubbish (malloc memory.used))).congr rfl fun other member => ?_
    refine DoublyLinked.modify_other _ ?_ _
    rintro rfl
    exact fresh member
  have here : stored.heap (malloc memory.used) = some ⟨device, none, none⟩ := by
    simp [stored, DoublyLinked.modify_heap, DoublyLinked.store_heap]
  obtain ⟨list, links, linked⟩ := before.linkLast fresh here enough
  refine ⟨list, ?_, linked⟩
  rw [addDevice, links]
  rfl

end Appending

/-! ## Runs -/

section Runs

variable {malloc : List Nat → Nat} {rubbish : Nat → DNode Devconf} {memory : DeviceMemory}
  {ledger : Ledger}

theorem Keeps.enough (keeps : Keeps memory ledger) :
    ledger.present.length ≤ memory.used.length := by
  rw [keeps.used]
  exact keeps.proper.length_le

theorem Keeps.fresh (keeps : Keeps memory ledger) (fresh : ∀ used, malloc used ∉ used) :
    malloc memory.used ∉ ledger.present.map Prod.fst := by
  intro member
  have used := keeps.proper.present_used _ member
  rw [← keeps.used] at used
  exact fresh _ used

/-- Every step succeeds, and the list is that of the book. -/
theorem Keeps.step (keeps : Keeps memory ledger) (fresh : ∀ used, malloc used ∉ used)
    (action : ListStep) :
    ∃ next, listStep malloc rubbish memory action = some next ∧
      Keeps next (ledger.step malloc action) := by
  have proper := keeps.proper.step fresh action
  cases action with
  | add newdevice =>
      obtain ⟨list, added, linked⟩ :=
        @addDevice_linked _ rubbish _ newdevice _ keeps.linked (keeps.fresh fresh) keeps.enough
      refine ⟨_, added, ?_, proper, ?_⟩
      · rw [keeps.used]
        rfl
      · rw [Ledger.present_add keeps.proper fresh, ← keeps.used]
        exact linked
  | del env intlist target =>
      by_cases one : selected ledger.present intlist target = 1
      · obtain ⟨list, linked, result⟩ :=
          processTargetDelLinked_selected env keeps.linked keeps.enough one
        have removed : listStep malloc rubbish memory (.del env intlist target) =
            some ⟨list, memory.used⟩ := by
          rw [listStep, result]
          split_ifs <;> rfl
        refine ⟨_, removed, ?_, proper, ?_⟩
        · rw [Ledger.step, if_pos one]
          exact keeps.used
        · rw [Ledger.present_del keeps.proper one]
          exact linked
      · have refused := @processTargetDelLinked_refused env _ _ _ _ _ keeps.linked keeps.enough one
        have same : ledger.step malloc (.del env intlist target) = ledger := by
          rw [Ledger.step, if_neg one]
        refine ⟨memory, ?_, ?_⟩
        · rw [listStep, refused]
          rfl
        · rw [same]
          exact keeps

theorem Keeps.run (keeps : Keeps memory ledger) (fresh : ∀ used, malloc used ∉ used)
    (steps : List ListStep) :
    ∃ final, runSteps (listStep malloc rubbish) memory steps = some final ∧
      Keeps final (steps.foldl (Ledger.step malloc) ledger) := by
  induction steps generalizing memory ledger with
  | nil => exact ⟨memory, rfl, keeps⟩
  | cons action steps ih =>
      obtain ⟨next, taken, keeps⟩ := @Keeps.step _ rubbish _ _ keeps fresh action
      rw [runSteps, taken]
      exact ih keeps

end Runs

/-! ## The configuration -/

section Sections

variable {malloc : List Nat → Nat} {rubbish : Nat → DNode Devconf} {loglist : List Logconf}
  {intlist : List Ifconf} {acllist acllist' : List Aclconf} {c : Cfg} {devlist : List Devconf}

/-- The list in memory has the devices of a list, in blocks that were handed out. -/
structure Represents (memory : DeviceMemory) (devlist : List Devconf) (nodes : List (Nat × Devconf)) :
    Prop where
  devices : nodes.map Prod.snd = devlist
  linked : memory.list.Linked nodes
  used : ∀ block ∈ nodes.map Prod.fst, block ∈ memory.used

theorem Represents.keeps {memory : DeviceMemory} {nodes : List (Nat × Devconf)}
    (represents : Represents memory devlist nodes) : Keeps memory ⟨memory.used, nodes, []⟩ := by
  refine ⟨rfl, ⟨represents.linked.nodup, represents.used, List.forall_mem_nil _⟩, ?_⟩
  have all : (Ledger.mk memory.used nodes []).present = nodes :=
    List.filter_eq_self.mpr fun entry _ => decide_eq_true List.not_mem_nil
  rw [all]
  exact represents.linked

theorem parseDEVLinked_represents (fresh : ∀ used, malloc used ∉ used)
    {state state' : List Devconf × List Aclconf} {memory : DeviceMemory} {nodes : List (Nat × Devconf)}
    (represents : Represents memory state.1 nodes)
    (parses : parseDEV loglist intlist state c = .ok state') :
    ∃ memory' nodes', parseDEVLinked malloc rubbish loglist intlist (memory, state.2) c =
        .ok (memory', state'.2) ∧ Represents memory' state'.1 nodes' := by
  obtain ⟨⟨dev, after⟩, statements, returned⟩ := bind_eq_ok.mp parses
  cases returned
  have notUsed : malloc memory.used ∉ nodes.map Prod.fst := fun member =>
    fresh _ (represents.used _ member)
  have enough : nodes.length ≤ memory.used.length := by
    have smaller := represents.linked.nodup.length_le_of_subset represents.used
    rwa [List.length_map] at smaller
  obtain ⟨entries, linking, linked⟩ :=
    @newEntry_linked malloc rubbish memory nodes represents.linked notUsed enough
  unfold parseDEVLinked
  rw [linking, follow]
  cases dev with
  | none =>
      exact ⟨_, [], bind_eq_ok.mpr ⟨_, statements, rfl⟩, rfl, .empty rfl, List.forall_mem_nil _⟩
  | some dev =>
      refine ⟨_, nodes ++ [(malloc memory.used, dev)], bind_eq_ok.mpr ⟨_, statements, rfl⟩, ?_,
        linked dev, ?_⟩
      · rw [List.map_append, represents.devices]
        rfl
      · intro block member
        rw [List.map_append, List.mem_append] at member
        rcases member with old | new
        · exact List.mem_append_left _ (represents.used block old)
        · exact List.mem_append_right _ new

/-- The list that the walk over the sections builds is the list of their devices. -/
theorem findDEVLinked_represents (fresh : ∀ used, malloc used ∉ used)
    (parses : findDEV loglist intlist acllist c = .ok (devlist, acllist')) :
    ∃ memory nodes, findDEVLinked malloc rubbish loglist intlist acllist c = .ok (memory, acllist') ∧
      Represents memory devlist nodes := by
  have empty : Represents .empty [] [] := ⟨rfl, .empty rfl, List.forall_mem_nil _⟩
  let related (state : List Devconf × List Aclconf) (other : DeviceMemory × List Aclconf) : Prop :=
    other.2 = state.2 ∧ ∃ nodes, Represents other.1 state.1 nodes
  have parsed {body : Cfg} {state : List Devconf × List Aclconf}
      {other : DeviceMemory × List Aclconf} {state' : List Devconf × List Aclconf} (start : related state other)
      (parses : parseDEV loglist intlist state body = .ok state') :
      ∃ other', parseDEVLinked malloc rubbish loglist intlist other body = .ok other' ∧
        related state' other' := by
    obtain ⟨memory, _⟩ := other
    obtain ⟨rfl, nodes, represents⟩ := start
    obtain ⟨memory', nodes', parsed, represents'⟩ :=
      @parseDEVLinked_represents _ rubbish _ _ _ fresh _ _ _ _ represents parses
    exact ⟨_, parsed, rfl, nodes', represents'⟩
  have closed {state : List Devconf × List Aclconf} {other : DeviceMemory × List Aclconf}
      (ends : related state other) : related (id state) (id other) := ends
  have start : related ([], acllist) (.empty, acllist) := ⟨rfl, [], empty⟩
  obtain ⟨⟨memory, _⟩, walks, rfl, nodes, represents⟩ :
      ∃ other', findDEVLinked malloc rubbish loglist intlist acllist c = .ok other' ∧
        related (devlist, acllist') other' :=
    BlockTree.find_simulates related @parsed @closed start parses
  exact ⟨memory, nodes, walks, represents⟩

end Sections

/-- Whatever blocks `malloc` hands out, if it never hands one out that is in use: for all
sections of devices that are read, and all requests after that, the list in memory is that
of the sections, then that of the devices that were added and not removed. -/
theorem deviceList_pointsBack (malloc : List Nat → Nat) (rubbish : Nat → DNode Devconf)
    (loglist : List Logconf) (intlist : List Ifconf) (acllist acllist' : List Aclconf) (c : Cfg)
    (devlist : List Devconf) (steps : List ListStep) (fresh : ∀ used, malloc used ∉ used)
    (parses : findDEV loglist intlist acllist c = .ok (devlist, acllist')) :
    ∃ built nodes, findDEVLinked malloc rubbish loglist intlist acllist c = .ok (built, acllist') ∧
      built.list.PointsBack nodes ∧ nodes.map Prod.snd = devlist ∧
      ∃ final, runSteps (listStep malloc rubbish) built steps = some final ∧
        final.list.PointsBack
          (steps.foldl (Ledger.step malloc) ⟨built.used, nodes, []⟩).present := by
  obtain ⟨built, nodes, walks, represents⟩ := findDEVLinked_represents fresh parses
  obtain ⟨final, reached, keeps⟩ := represents.keeps.run fresh steps
  exact ⟨built, nodes, walks, represents.linked.pointsBack, represents.devices, final, reached,
    keeps.linked.pointsBack⟩

/-- The block behind all that are in use. -/
def nextBlock (used : List Nat) : Nat := used.foldr max 0 + 1

theorem nextBlock_fresh (used : List Nat) : nextBlock used ∉ used := by
  have small : ∀ block ∈ used, block ≤ used.foldr max 0 := by
    induction used with
    | nil => exact List.forall_mem_nil _
    | cons first rest ih =>
        rw [List.forall_mem_cons]
        refine ⟨Nat.le_max_left _ _, fun block member => ?_⟩
        exact Nat.le_trans (ih block member) (Nat.le_max_right _ _)
  intro member
  exact absurd (small _ member) (Nat.not_succ_le_self _)

/-- Two sections of devices. -/
def twoSections : Cfg :=
  .block (text "device") (.assignment (text "slot") (text "1") .null)
    (.block (text "device") (.assignment (text "slot") (text "2") .null) .null)

def slotDevice (slot : UInt8) : Devconf := { blankDEV with slot := slot }

/-- A third device is added, then the one in the middle is removed. -/
def addAndRemove : List ListStep :=
  [.add { slotDevice 3 with shelf := 1 }, .del grantingEnv [] (slotRequest 0xffff 2 "")]

theorem deviceList_pointsBack_twoSections :
    ∃ built nodes, findDEVLinked nextBlock (fun _ => ⟨blankDEV, some 7, some 7⟩) [] [] [] twoSections =
        .ok (built, []) ∧
      built.list.PointsBack nodes ∧ nodes.map Prod.snd = [slotDevice 1, slotDevice 2] ∧
      ∃ final, runSteps (listStep nextBlock fun _ => ⟨blankDEV, some 7, some 7⟩) built addAndRemove =
          some final ∧
        final.list.PointsBack
          (addAndRemove.foldl (Ledger.step nextBlock) ⟨built.used, nodes, []⟩).present :=
  deviceList_pointsBack nextBlock _ [] [] [] [] twoSections _ addAndRemove nextBlock_fresh (by rfl)

end Qaoed.Api
