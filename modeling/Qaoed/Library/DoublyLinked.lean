import Mathlib.Data.List.Nodup
import Mathlib.Logic.Function.Basic

/-!
# Doubly linked lists in a heap

A list is a heap of nodes and the address of its first node. It is well linked if
every node points to its two neighbours. A node is appended behind the last one, which a
loop looks for. Unlinking a node lets its neighbours point to each other; a loop may unlink
nodes on its way, since a node that was unlinked still leads on to the one behind it.
-/

namespace Qaoed.Library

structure DNode (α : Type*) where
  item : α
  prev : Option Nat
  next : Option Nat
  deriving DecidableEq, Repr

structure DoublyLinked (α : Type*) where
  heap : Nat → Option (DNode α)
  head : Option Nat

namespace DoublyLinked

variable {α : Type*}

/-- Change the node at an address. -/
def modify (list : DoublyLinked α) (address : Nat) (change : DNode α → DNode α) : DoublyLinked α :=
  { list with heap := Function.update list.heap address ((list.heap address).map change) }

/-- Let an address hold a node. -/
def store (list : DoublyLinked α) (address : Nat) (node : DNode α) : DoublyLinked α :=
  { list with heap := Function.update list.heap address (some node) }

/-- A loop that goes on to the last node. There is no result if a pointer leads nowhere, or
the fuel is used up. -/
def lastFrom (list : DoublyLinked α) : Nat → Nat → Option Nat
  | 0, _ => none
  | fuel + 1, address =>
      (list.heap address).bind fun node =>
        match node.next with
        | none => some address
        | some next => lastFrom list fuel next

/-- A node that points nowhere becomes the last one of the list. -/
def linkLast (list : DoublyLinked α) (fuel address : Nat) : Option (DoublyLinked α) :=
  match list.head with
  | none => some { list with head := some address }
  | some first =>
      (list.lastFrom fuel first).map fun last =>
        let list := list.modify last fun node => { node with next := some address }
        list.modify address fun node => { node with prev := some last }

/-- The nodes from an address on, up to a NULL pointer. -/
def traverse (list : DoublyLinked α) : Nat → Option Nat → Option (List (Nat × α))
  | _, none => some []
  | 0, some _ => none
  | fuel + 1, some address =>
      (list.heap address).bind fun node =>
        (traverse list fuel node.next).map fun nodes => (address, node.item) :: nodes

/-- The assignments that take a node out of the list. -/
def unlink (list : DoublyLinked α) (node : DNode α) : DoublyLinked α :=
  let list := match node.prev with
    | some before => list.modify before fun other => { other with next := node.next }
    | none => { list with head := node.next }
  match node.next with
  | some behind => list.modify behind fun other => { other with prev := node.prev }
  | none => list

/-- A loop over the list that counts nodes. There is no result if a pointer leads
nowhere, or the fuel is used up. -/
def countEach (selects : α → Bool) (list : DoublyLinked α) : Nat → Option Nat → Option Nat
  | _, none => some 0
  | 0, some _ => none
  | fuel + 1, some address =>
      (list.heap address).bind fun node =>
        (countEach selects list fuel node.next).map fun count =>
          if selects node.item then count + 1 else count

/-- A loop over the list that unlinks nodes, and its variable at the end. -/
def unlinkEach (selects : α → Bool) :
    Nat → DoublyLinked α → Option Nat → Option (DoublyLinked α × Option Nat)
  | _, list, none => some (list, none)
  | 0, _, some _ => none
  | fuel + 1, list, some address =>
      (list.heap address).bind fun node =>
        let list := if selects node.item then list.unlink node else list
        (list.heap address).bind fun node => unlinkEach selects fuel list node.next

/-! ## Well linked lists -/

def firstOf (nodes : List (Nat × α)) : Option Nat := nodes.head?.map Prod.fst

def lastOf (nodes : List (Nat × α)) : Option Nat := nodes.getLast?.map Prod.fst

/-- The list has these nodes, each of which points to its neighbours. -/
structure Linked (list : DoublyLinked α) (nodes : List (Nat × α)) : Prop where
  head : list.head = firstOf nodes
  nodup : (nodes.map Prod.fst).Nodup
  node : ∀ earlier address item later, nodes = earlier ++ (address, item) :: later →
    list.heap address = some ⟨item, lastOf earlier, firstOf later⟩

section Ends

variable {first second : List (Nat × α)} {address : Nat}

theorem firstOf_append : firstOf (first ++ second) = (firstOf first).or (firstOf second) := by
  unfold firstOf
  rw [List.head?_append]
  cases first.head? <;> rfl

theorem lastOf_append : lastOf (first ++ second) = (lastOf second).or (lastOf first) := by
  unfold lastOf
  rw [List.getLast?_append]
  cases second.getLast? <;> rfl

theorem mem_of_firstOf (here : firstOf first = some address) : address ∈ first.map Prod.fst := by
  obtain ⟨node, head, rfl⟩ := Option.map_eq_some_iff.mp here
  exact List.mem_map_of_mem (List.mem_of_mem_head? head)

theorem mem_of_lastOf (here : lastOf first = some address) : address ∈ first.map Prod.fst := by
  obtain ⟨node, last, rfl⟩ := Option.map_eq_some_iff.mp here
  exact List.mem_map_of_mem (List.mem_of_getLast? last)

/-- A node with another one behind it is not the last one. -/
theorem lastOf_ne {item : α} {next : Nat × α} {rest : List (Nat × α)}
    (distinct : ((first ++ (address, item) :: next :: rest).map Prod.fst).Nodup) :
    lastOf (first ++ (address, item) :: next :: rest) ≠ some address := by
  intro here
  rw [List.map_append, List.map_cons, List.nodup_append, List.nodup_cons] at distinct
  rw [lastOf_append, lastOf, List.getLast?_cons_cons, ← lastOf, Option.or_of_isSome] at here
  · exact distinct.2.1.1 (mem_of_lastOf here)
  · simp [lastOf]

end Ends

section Unlink

variable {list : DoublyLinked α} {nodes earlier later : List (Nat × α)} {address : Nat} {item : α}

theorem modify_heap (list : DoublyLinked α) (address other : Nat) (change : DNode α → DNode α) :
    (list.modify address change).heap other =
      (list.heap other).map fun node => if address = other then change node else node := by
  unfold modify
  dsimp only
  by_cases here : address = other
  · subst here
    rw [Function.update_self]
    simp only [if_true]
  · rw [Function.update_of_ne (Ne.symm here)]
    simp only [if_neg here, Option.map_id']

/-- What unlinking a node does to each other node. -/
theorem unlink_heap (list : DoublyLinked α) (node : DNode α) (address : Nat) :
    (list.unlink node).heap address = (list.heap address).map fun other =>
      ⟨other.item, if node.next = some address then node.prev else other.prev,
        if node.prev = some address then node.next else other.next⟩ := by
  obtain ⟨item, prev, next⟩ := node
  cases prev with
  | none =>
      cases next with
      | none => simp [unlink]
      | some behind =>
          simp only [unlink, modify_heap, Option.some.injEq, reduceCtorEq, if_false]
          congr 1
          funext other
          split <;> rfl
  | some before =>
      cases next with
      | none =>
          simp only [unlink, modify_heap, Option.some.injEq, reduceCtorEq, if_false]
          congr 1
          funext other
          split <;> rfl
      | some behind =>
          simp only [unlink, modify_heap, Option.map_map, Option.some.injEq]
          congr 1
          funext other
          simp only [Function.comp]
          split <;> split <;> rfl

@[simp]
theorem unlink_head (list : DoublyLinked α) (node : DNode α) :
    (list.unlink node).head = if node.prev = none then node.next else list.head := by
  obtain ⟨item, prev, next⟩ := node
  cases prev <;> cases next <;> rfl

/-- A node that is unlinked keeps its own pointers. -/
theorem unlink_self (linked : Linked list (earlier ++ (address, item) :: later)) :
    (list.unlink ⟨item, lastOf earlier, firstOf later⟩).heap address =
      some ⟨item, lastOf earlier, firstOf later⟩ := by
  have distinct := linked.nodup
  rw [List.map_append, List.map_cons, List.nodup_append] at distinct
  obtain ⟨_, behind, apart⟩ := distinct
  have notNext : firstOf later ≠ some address := fun here =>
    (List.nodup_cons.mp behind).1 (mem_of_firstOf here)
  have notPrev : lastOf earlier ≠ some address := fun here =>
    apart address (mem_of_lastOf here) address List.mem_cons_self rfl
  rw [unlink_heap, linked.node earlier address item later rfl, Option.map_some]
  simp only [if_neg notNext, if_neg notPrev]

/-- A node of two lists in a row stands in the first or in the second one. -/
theorem splits {before behind : List (Nat × α)} {node : Nat × α}
    (split : earlier ++ later = before ++ node :: behind) :
    (∃ rest, earlier = before ++ node :: rest ∧ behind = rest ++ later) ∨
      ∃ rest, later = rest ++ node :: behind ∧ before = earlier ++ rest := by
  rcases List.append_eq_append_iff.mp split with ⟨rest, rfl, rfl⟩ | ⟨rest, rfl, tail⟩
  · exact Or.inr ⟨rest, rfl, rfl⟩
  · cases rest with
    | nil => exact Or.inr ⟨[], tail.symm, (List.append_nil _).symm ▸ by simp⟩
    | cons first rest =>
        obtain ⟨rfl, rfl⟩ := List.cons.inj tail
        exact Or.inl ⟨rest, rfl, rfl⟩

/-- Unlinking a node leaves the others well linked. -/
theorem Linked.unlink (linked : Linked list (earlier ++ (address, item) :: later)) :
    Linked (list.unlink ⟨item, lastOf earlier, firstOf later⟩) (earlier ++ later) := by
  have distinct := linked.nodup
  rw [List.map_append, List.map_cons, List.nodup_append, List.nodup_cons] at distinct
  obtain ⟨front, ⟨_, back⟩, apart⟩ := distinct
  refine ⟨?_, ?_, ?_⟩
  · rw [unlink_head, linked.head, firstOf_append, firstOf_append]
    cases earlier with
    | nil => rfl
    | cons node rest =>
        rw [if_neg]
        · rfl
        · unfold lastOf
          rw [List.getLast?_cons]
          exact Option.some_ne_none _
  · rw [List.map_append, List.nodup_append]
    exact ⟨front, back, fun x inFront y inBack => apart x inFront y (List.mem_cons_of_mem _ inBack)⟩
  · intro before other thing behind split
    rw [unlink_heap]
    rcases splits split with ⟨rest, rfl, rfl⟩ | ⟨rest, rfl, rfl⟩
    · -- The node stands in front of the one that is unlinked.
      have found := linked.node before other thing (rest ++ (address, item) :: later) (by simp)
      have notNext : firstOf later ≠ some other := fun here =>
        apart other (by simp) other (List.mem_cons_of_mem _ (mem_of_firstOf here)) rfl
      rw [found, Option.map_some, if_neg notNext]
      cases rest with
      | nil =>
          have last : lastOf (before ++ [(other, thing)]) = some other := by simp [lastOf]
          rw [if_pos last]
          rfl
      | cons next rest =>
          rw [if_neg (lastOf_ne front)]
          rfl
    · -- The node stands behind the one that is unlinked.
      have found := linked.node (earlier ++ (address, item) :: rest) other thing behind (by simp)
      have notPrev : lastOf earlier ≠ some other := fun here =>
        apart other (mem_of_lastOf here) other (by simp) rfl
      rw [found, Option.map_some, if_neg notPrev]
      cases rest with
      | nil =>
          have next : firstOf ([] ++ (other, thing) :: behind) = some other := rfl
          rw [if_pos next, List.append_nil]
      | cons next rest =>
          have notFirst : firstOf (next :: rest ++ (other, thing) :: behind) ≠ some other := by
            rintro ⟨⟩
            rw [List.map_append, List.nodup_append] at back
            exact back.2.2 next.1 List.mem_cons_self next.1 List.mem_cons_self rfl
          rw [if_neg notFirst, lastOf_append, lastOf_append]
          simp [lastOf]

end Unlink

/-! ## Appending -/

section Append

variable {list list' : DoublyLinked α} {nodes earlier later : List (Nat × α)} {address : Nat} {item : α}

theorem store_heap (list : DoublyLinked α) (address other : Nat) (node : DNode α) :
    (list.store address node).heap other = if other = address then some node else list.heap other :=
  Function.update_apply _ _ _ _

theorem store_other (list : DoublyLinked α) {address other : Nat} (apart : other ≠ address)
    (node : DNode α) : (list.store address node).heap other = list.heap other :=
  Function.update_of_ne apart _ _

theorem modify_other (list : DoublyLinked α) {address other : Nat} (apart : other ≠ address)
    (change : DNode α → DNode α) : (list.modify address change).heap other = list.heap other :=
  Function.update_of_ne apart _ _

@[simp]
theorem store_head (list : DoublyLinked α) (address : Nat) (node : DNode α) :
    (list.store address node).head = list.head := rfl

@[simp]
theorem modify_head (list : DoublyLinked α) (address : Nat) (change : DNode α → DNode α) :
    (list.modify address change).head = list.head := rfl

/-- The list without nodes. -/
theorem Linked.empty (head : list.head = none) : Linked list [] := by
  refine ⟨head, List.nodup_nil, ?_⟩
  intro earlier address item later none
  exact absurd (List.append_eq_nil_iff.mp none.symm).2 (List.cons_ne_nil _ _)

/-- The list of one node. -/
theorem Linked.singleton {address : Nat} {item : α} (head : list.head = some address)
    (here : list.heap address = some ⟨item, none, none⟩) : Linked list [(address, item)] := by
  refine ⟨head, List.nodup_singleton _, ?_⟩
  intro earlier other thing later split
  cases earlier with
  | nil =>
      cases split
      exact here
  | cons first others =>
      have long := congrArg List.length split
      simp at long

/-- What is stored elsewhere leaves a list as it was. -/
theorem Linked.congr (linked : Linked list nodes) (head : list'.head = list.head)
    (heap : ∀ address ∈ nodes.map Prod.fst, list'.heap address = list.heap address) :
    Linked list' nodes := by
  refine ⟨head.trans linked.head, linked.nodup, ?_⟩
  rintro before address item behind rfl
  rw [heap address (by simp)]
  exact linked.node before address item behind rfl

theorem Linked.store (linked : Linked list nodes) (fresh : address ∉ nodes.map Prod.fst)
    (node : DNode α) : Linked (list.store address node) nodes := by
  refine linked.congr rfl fun other member => store_other _ ?_ _
  rintro rfl
  exact fresh member

/-- A new node that points back to the last one, which points to it, is the last one. -/
theorem Linked.append (linked : Linked list nodes) (fresh : address ∉ nodes.map Prod.fst)
    (head : list'.head = list.head.or (some address))
    (here : list'.heap address = some ⟨item, lastOf nodes, none⟩)
    (heap : ∀ other ∈ nodes.map Prod.fst, list'.heap other = (list.heap other).map fun node =>
      if lastOf nodes = some other then { node with next := some address } else node) :
    Linked list' (nodes ++ [(address, item)]) := by
  refine ⟨?_, ?_, ?_⟩
  · rw [head, linked.head, firstOf_append]
    rfl
  · rw [List.map_append, List.nodup_append]
    refine ⟨linked.nodup, List.nodup_singleton _, ?_⟩
    rintro other member _ last rfl
    rw [List.mem_singleton.mp last] at member
    exact fresh member
  · intro before other thing behind split
    rcases splits split with ⟨rest, rfl, rfl⟩ | ⟨rest, last, rfl⟩
    · -- A node that was there before, and may have been the last one.
      rw [heap other (by simp), linked.node before other thing rest rfl, Option.map_some]
      cases rest with
      | nil =>
          have last : lastOf (before ++ [(other, thing)]) = some other := by simp [lastOf]
          rw [if_pos last]
          rfl
      | cons next rest =>
          rw [if_neg (lastOf_ne linked.nodup)]
          rfl
    · -- The new node.
      cases rest with
      | nil =>
          cases last
          rw [here, List.append_nil]
          rfl
      | cons first rest =>
          have long := congrArg List.length last
          simp at long

end Append

/-! ## Loops -/

section Loops

variable {selects : α → Bool} {list : DoublyLinked α} {earlier later nodes : List (Nat × α)}
  {fuel : Nat}

theorem Linked.node_here {address : Nat} {item : α}
    (linked : Linked list (earlier ++ (address, item) :: later)) :
    list.heap address = some ⟨item, lastOf earlier, firstOf later⟩ :=
  linked.node earlier address item later rfl

/-- From any node on the loop ends at the last one. -/
theorem lastFrom_from {address : Nat} {item : α}
    (linked : Linked list (earlier ++ (address, item) :: later)) (enough : later.length < fuel) :
    list.lastFrom fuel address = lastOf ((address, item) :: later) := by
  induction later generalizing earlier address item fuel with
  | nil =>
      cases fuel with
      | zero => cases enough
      | succ fuel =>
          rw [lastFrom, linked.node_here]
          rfl
  | cons node rest ih =>
      obtain ⟨next, thing⟩ := node
      cases fuel with
      | zero => cases enough
      | succ fuel =>
          have onward : Linked list ((earlier ++ [(address, item)]) ++ (next, thing) :: rest) := by
            rwa [List.append_assoc]
          have last : lastOf ((address, item) :: (next, thing) :: rest) =
              lastOf ((next, thing) :: rest) := by
            rw [lastOf, List.getLast?_cons_cons]
            rfl
          rw [lastFrom, linked.node_here, last]
          exact ih onward (Nat.lt_of_succ_lt_succ enough)

/-- From any node on the list is traversed up to its end. -/
theorem traverse_from (linked : Linked list (earlier ++ later)) (enough : later.length ≤ fuel) :
    list.traverse fuel (firstOf later) = some later := by
  induction later generalizing earlier fuel with
  | nil =>
      cases fuel <;> rfl
  | cons node rest ih =>
      obtain ⟨address, item⟩ := node
      cases fuel with
      | zero => cases enough
      | succ fuel =>
          have onward : Linked list ((earlier ++ [(address, item)]) ++ rest) := by
            rwa [List.append_assoc]
          have first : firstOf ((address, item) :: rest) = some address := rfl
          rw [first, traverse, linked.node_here, Option.bind_some,
            ih onward (Nat.le_of_succ_le_succ enough), Option.map_some]

/-- From any node on the loop counts what is selected. -/
theorem countEach_from (linked : Linked list (earlier ++ later)) (enough : later.length ≤ fuel) :
    countEach selects list fuel (firstOf later) =
      some (later.countP fun node => selects node.2) := by
  induction later generalizing earlier fuel with
  | nil =>
      cases fuel <;> rfl
  | cons node rest ih =>
      obtain ⟨address, item⟩ := node
      cases fuel with
      | zero => cases enough
      | succ fuel =>
          have onward : Linked list ((earlier ++ [(address, item)]) ++ rest) := by
            rwa [List.append_assoc]
          have first : firstOf ((address, item) :: rest) = some address := rfl
          rw [first, countEach, linked.node_here, Option.bind_some,
            ih onward (Nat.le_of_succ_le_succ enough), Option.map_some, List.countP_cons]
          dsimp only
          split <;> rfl

/-- From any node on the loop leaves what is not selected well linked, and ends with
its variable NULL. -/
theorem unlinkEach_from (linked : Linked list (earlier ++ later)) (enough : later.length ≤ fuel) :
    ∃ list', unlinkEach selects fuel list (firstOf later) = some (list', none) ∧
      Linked list' (earlier ++ later.filter fun node => !selects node.2) := by
  induction later generalizing earlier fuel list with
  | nil =>
      refine ⟨list, ?_, linked⟩
      cases fuel <;> rfl
  | cons node rest ih =>
      obtain ⟨address, item⟩ := node
      cases fuel with
      | zero => cases enough
      | succ fuel =>
          have small := Nat.le_of_succ_le_succ enough
          have first : firstOf ((address, item) :: rest) = some address := rfl
          rw [first, unlinkEach, linked.node_here, Option.bind_some]
          dsimp only
          cases selected : selects item with
          | true =>
              obtain ⟨list', ends, linked'⟩ := ih linked.unlink small
              refine ⟨list', ?_, ?_⟩
              · rw [if_pos rfl, unlink_self linked, Option.bind_some]
                exact ends
              · rwa [List.filter_cons_of_neg (by simp [selected])]
          | false =>
              have onward : Linked list ((earlier ++ [(address, item)]) ++ rest) := by
                rwa [List.append_assoc]
              obtain ⟨list', ends, linked'⟩ := ih onward small
              refine ⟨list', ?_, ?_⟩
              · rw [if_neg Bool.false_ne_true, linked.node_here, Option.bind_some]
                exact ends
              · rw [List.filter_cons_of_pos (by simp [selected])]
                rwa [List.append_assoc] at linked'

theorem Linked.countEach (selects : α → Bool) (linked : Linked list nodes)
    (enough : nodes.length ≤ fuel) :
    DoublyLinked.countEach selects list fuel list.head =
      some (nodes.countP fun node => selects node.2) := by
  rw [linked.head]
  have whole : Linked list ([] ++ nodes) := linked
  exact countEach_from whole enough

theorem Linked.unlinkEach (selects : α → Bool) (linked : Linked list nodes)
    (enough : nodes.length ≤ fuel) :
    ∃ list', DoublyLinked.unlinkEach selects fuel list list.head = some (list', none) ∧
      Linked list' (nodes.filter fun node => !selects node.2) := by
  rw [linked.head]
  have whole : Linked list ([] ++ nodes) := linked
  exact unlinkEach_from whole enough

/-- The loop to the last node, from the first one. -/
theorem Linked.lastFrom {first : Nat} (linked : Linked list nodes) (head : list.head = some first)
    (enough : nodes.length ≤ fuel) : list.lastFrom fuel first = lastOf nodes := by
  rw [linked.head] at head
  cases nodes with
  | nil => cases head
  | cons node rest =>
      cases head
      have whole : Linked list ([] ++ node :: rest) := linked
      exact lastFrom_from whole enough

theorem lastOf_of_null (linked : Linked list nodes) (head : list.head = none) :
    lastOf nodes = none := by
  rw [linked.head] at head
  cases nodes with
  | nil => rfl
  | cons node rest => cases head

theorem exists_lastOf (linked : Linked list nodes) {first : Nat} (head : list.head = some first) :
    ∃ last, lastOf nodes = some last ∧ last ∈ nodes.map Prod.fst := by
  rw [linked.head] at head
  cases nodes with
  | nil => cases head
  | cons node rest =>
      have last : lastOf (node :: rest) = some ((node :: rest).getLast (List.cons_ne_nil _ _)).1 := by
        rw [lastOf, List.getLast?_eq_some_getLast]
        rfl
      exact ⟨_, last, mem_of_lastOf last⟩

/-- A node that is stored apart from the list is appended to it. -/
theorem Linked.linkLast {address : Nat} {item : α} (linked : Linked list nodes)
    (fresh : address ∉ nodes.map Prod.fst) (stored : list.heap address = some ⟨item, none, none⟩)
    (enough : nodes.length ≤ fuel) :
    ∃ list', list.linkLast fuel address = some list' ∧ Linked list' (nodes ++ [(address, item)]) := by
  unfold DoublyLinked.linkLast
  cases head : list.head with
  | none =>
      have last := lastOf_of_null linked head
      refine ⟨_, rfl, linked.append fresh ?_ ?_ ?_⟩
      · rw [head]
        rfl
      · rw [last]
        exact stored
      · intro other _
        simp [last]
  | some first =>
      obtain ⟨last, atEnd, inside⟩ := exists_lastOf linked head
      have lastApart : address ≠ last := by
        rintro rfl
        exact fresh inside
      dsimp only
      rw [linked.lastFrom head enough, atEnd]
      refine ⟨_, rfl, linked.append fresh ?_ ?_ ?_⟩
      · rw [head]
        exact head
      · rw [modify_heap, modify_other _ lastApart, stored, atEnd]
        simp
      · intro other member
        have apart : other ≠ address := by
          rintro rfl
          exact fresh member
        rw [modify_other _ apart, modify_heap, atEnd]
        simp only [Option.some.injEq]

end Loops

/-! ## What the pointers say -/

/-- A traversal of the list ends with these nodes, nothing stands in front of the first one,
and each pointer to a neighbour is answered by one that points back. -/
structure PointsBack (list : DoublyLinked α) (nodes : List (Nat × α)) : Prop where
  traversal : ∀ fuel, nodes.length ≤ fuel → list.traverse fuel list.head = some nodes
  first : ∀ address node, list.head = some address → list.heap address = some node → node.prev = none
  next : ∀ address item node other, (address, item) ∈ nodes → list.heap address = some node →
    node.next = some other → ∃ behind, list.heap other = some behind ∧ behind.prev = some address
  prev : ∀ address item node other, (address, item) ∈ nodes → list.heap address = some node →
    node.prev = some other → ∃ before, list.heap other = some before ∧ before.next = some address

/-- A list has one sequence of nodes. -/
theorem Linked.unique {list : DoublyLinked α} {nodes nodes' : List (Nat × α)}
    (linked : Linked list nodes) (linked' : Linked list nodes') : nodes = nodes' := by
  have first := @traverse_from _ list [] nodes (nodes.length + nodes'.length) linked (by omega)
  have second := @traverse_from _ list [] nodes' (nodes.length + nodes'.length) linked' (by omega)
  rw [← linked.head] at first
  rw [← linked'.head] at second
  exact Option.some.inj (first.symm.trans second)

/-- The last node of those in front of a node. -/
theorem exists_of_lastOf {nodes : List (Nat × α)} {address : Nat} (last : lastOf nodes = some address) :
    ∃ earlier item, nodes = earlier ++ [(address, item)] := by
  obtain ⟨⟨_, item⟩, atEnd, rfl⟩ := Option.map_eq_some_iff.mp last
  exact ⟨nodes.dropLast, item, (List.dropLast_append_getLast? _ atEnd).symm⟩

theorem Linked.pointsBack {list : DoublyLinked α} {nodes : List (Nat × α)}
    (linked : Linked list nodes) : PointsBack list nodes := by
  refine ⟨?_, ?_, ?_, ?_⟩
  · intro fuel enough
    rw [linked.head]
    have whole : Linked list ([] ++ nodes) := linked
    exact traverse_from whole enough
  · intro address node head found
    rw [linked.head] at head
    cases nodes with
    | nil => cases head
    | cons first rest =>
        cases head
        have here := linked.node [] first.1 first.2 rest rfl
        cases here.symm.trans found
        rfl
  · intro address item node other member found next
    obtain ⟨earlier, later, rfl⟩ := List.append_of_mem member
    cases linked.node_here.symm.trans found
    cases later with
    | nil => cases next
    | cons behind rest =>
        cases next
        have there := linked.node (earlier ++ [(address, item)]) behind.1 behind.2 rest (by simp)
        refine ⟨_, there, ?_⟩
        rw [lastOf_append]
        rfl
  · intro address item node other member found prev
    obtain ⟨earlier, later, rfl⟩ := List.append_of_mem member
    cases linked.node_here.symm.trans found
    obtain ⟨before, thing, rfl⟩ := exists_of_lastOf prev
    exact ⟨_, linked.node before other thing ((address, item) :: later) (by simp), rfl⟩

end DoublyLinked

end Qaoed.Library
