import Qaoed.Api.HandlerSpec
import Qaoed.Library.DoublyLinked

/-!
# Removing a target

`processTARGET_DEL` unlinks the device it selects with a loop, and then lowers the
count of the interface of the loop variable, which is NULL. In memory the device
list is doubly linked; the loop leaves it well linked wherever the device stood.
-/

namespace Qaoed.Api

open Qaoed.Device
open Qaoed.Library
open Qaoed.Config

/-! ## The list in memory -/

/-- What the handler leaves of a list in memory and of the interfaces, and its reply. -/
structure Removed where
  list : DoublyLinked Devconf
  intlist : List Interface
  sent : List Reply
  stopped : Option Stop

/-- The handler on a list in memory, with fuel for its two loops. -/
def processTargetDelLinked (fuel : Nat) (env : ApiEnv) (list : DoublyLinked Devconf)
    (intlist : List Interface) (target : TargetInfo) : Option Removed := do
  let selects := target.selects intlist
  let cnt ← list.countEach selects fuel list.head
  if cnt > 1 then return ⟨list, intlist, [.header .failure], none⟩
  else if cnt = 0 then return ⟨list, intlist, [.header .failure], none⟩
  else
    let (list, device) ← DoublyLinked.unlinkEach selects fuel list list.head
    if env.cancel = -1 then return ⟨list, intlist, [.header .failure], none⟩
    else
      match follow (device.bind list.heap) fun node =>
        qaoedIntrefdown node.item.interface intlist with
      | .error stop => return ⟨list, intlist, [], some stop⟩
      | .ok intlist => return ⟨list, intlist, [.header .allok], none⟩

section Linked

variable {env : ApiEnv} {list : DoublyLinked Devconf} {nodes : List (Nat × Devconf)}
  {intlist : List Interface} {target : TargetInfo} {fuel : Nat}

/-- The number of nodes that a request selects. -/
def selected (nodes : List (Nat × Devconf)) (intlist : List Interface) (target : TargetInfo) : Nat :=
  nodes.countP fun node => target.selects intlist node.2

/-- The nodes that a request does not select. -/
def spared (nodes : List (Nat × Devconf)) (intlist : List Interface) (target : TargetInfo) :
    List (Nat × Devconf) :=
  nodes.filter fun node => !target.selects intlist node.2

theorem processTargetDelLinked_refused (linked : list.Linked nodes)
    (enough : nodes.length ≤ fuel) (number : selected nodes intlist target ≠ 1) :
    processTargetDelLinked fuel env list intlist target =
      some ⟨list, intlist, [.header .failure], none⟩ := by
  have counted := linked.countEach (target.selects intlist) enough
  rw [← selected] at counted
  unfold processTargetDelLinked
  simp only [counted, Option.bind_eq_bind, Option.bind_some]
  by_cases several : selected nodes intlist target > 1
  · rw [if_pos several]
    rfl
  · rw [if_neg several, if_pos (by omega)]
    rfl

/-- The other devices stay well linked, and the loop variable is NULL. -/
theorem processTargetDelLinked_selected (env : ApiEnv) (linked : list.Linked nodes)
    (enough : nodes.length ≤ fuel) (number : selected nodes intlist target = 1) :
    ∃ list', list'.Linked (spared nodes intlist target) ∧
      processTargetDelLinked fuel env list intlist target =
        some (if env.cancel = -1 then ⟨list', intlist, [.header .failure], none⟩
          else ⟨list', intlist, [], some .crash⟩) := by
  have counted := linked.countEach (target.selects intlist) enough
  rw [← selected, number] at counted
  obtain ⟨list', ends, linked'⟩ := linked.unlinkEach (target.selects intlist) enough
  refine ⟨list', linked', ?_⟩
  unfold processTargetDelLinked
  simp only [counted, ends, Option.bind_eq_bind, Option.bind_some]
  by_cases failed : env.cancel = -1
  · simp [failed]
  · simp [failed, follow]

/-- On a well linked list the handler does what it does to the devices on it. -/
theorem processTargetDelLinked_refines (linked : list.Linked nodes) (enough : nodes.length ≤ fuel)
    {conf : Conf} (devices : conf.devices = nodes.map Prod.snd) :
    ∃ list' nodes', list'.Linked nodes' ∧
      (processTargetDel env conf target).conf.devices = nodes'.map Prod.snd ∧
      processTargetDelLinked fuel env list conf.intlist target =
        some ⟨list', (processTargetDel env conf target).conf.intlist,
          (processTargetDel env conf target).sent, (processTargetDel env conf target).stopped⟩ := by
  have number : matching conf target = selected nodes conf.intlist target := by
    rw [matching, devices, List.countP_map]
    rfl
  by_cases one : selected nodes conf.intlist target = 1
  · obtain ⟨list', linked', result⟩ := processTargetDelLinked_selected env linked enough one
    have kept : (without conf target).devices = (spared nodes conf.intlist target).map Prod.snd := by
      rw [without, devices, List.filter_map]
      rfl
    rw [result, processTargetDel_selected (number.trans one)]
    refine ⟨list', spared nodes conf.intlist target, linked', ?_, ?_⟩
    · split
      · exact kept
      · exact kept
    · split
      · rfl
      · rfl
  · rw [processTargetDelLinked_refused linked enough one,
      processTargetDel_refused (by rwa [number])]
    exact ⟨list, nodes, linked, devices, rfl⟩

end Linked

/-! ## One request -/

/-- The selected device is gone and its interface counts one device less; the other
devices and interfaces are as they were. -/
structure RemovesOne (nodes : List (Nat × Devconf)) (intlist : List Interface)
    (target : TargetInfo) (removed : Removed) : Prop where
  completes : removed.stopped = none
  list : removed.list.Linked (spared nodes intlist target)
  counts : ∀ node ∈ nodes, target.selects intlist node.2 = true →
    intref (-1) node.2.interface intlist = .ok removed.intlist
  reply : removed.sent = [.header .allok]

/-- The handler ends on a list in memory, and does to it what is asked: one device that
is selected, and whose thread is cancelled, is removed; otherwise nothing is done. -/
def DelCorrect (env : ApiEnv) (list : DoublyLinked Devconf) (nodes : List (Nat × Devconf))
    (intlist : List Interface) (target : TargetInfo) : Prop :=
  ∀ fuel ≥ nodes.length, ∃ removed,
    processTargetDelLinked fuel env list intlist target = some removed ∧
    (selected nodes intlist target = 1 → env.cancel = 0 →
      RemovesOne nodes intlist target removed) ∧
    (selected nodes intlist target ≠ 1 → removed = ⟨list, intlist, [.header .failure], none⟩)

theorem delCorrect_iff {env : ApiEnv} {list : DoublyLinked Devconf} {nodes : List (Nat × Devconf)}
    {intlist : List Interface} {target : TargetInfo} (linked : list.Linked nodes) :
    DelCorrect env list nodes intlist target ↔
      ¬ (selected nodes intlist target = 1 ∧ env.cancel = 0) := by
  constructor
  · rintro correct ⟨one, cancelled⟩
    obtain ⟨removed, result, removes, _⟩ := correct nodes.length le_rfl
    obtain ⟨list', _, crashes⟩ := processTargetDelLinked_selected env linked le_rfl one
    have failed : env.cancel ≠ -1 := by
      rw [cancelled]
      decide
    rw [crashes, if_neg failed] at result
    cases result
    cases (removes one cancelled).completes
  · intro allowed fuel enough
    by_cases one : selected nodes intlist target = 1
    · obtain ⟨list', _, result⟩ := processTargetDelLinked_selected env linked enough one
      exact ⟨_, result, fun _ cancelled => absurd ⟨one, cancelled⟩ allowed, fun other => absurd one other⟩
    · exact ⟨_, processTargetDelLinked_refused linked enough one, fun same => absurd same one,
        fun _ => rfl⟩

end Qaoed.Api
