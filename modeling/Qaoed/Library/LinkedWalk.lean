import Qaoed.Library.LinkedFifo

/-!
# Loops over singly linked lists

A loop follows the links until it has an answer or there is no next node. Along a segment
it comes to an end and sees the nodes in their order. A link that leads back to the first
node leaves no segment, and no loop that finds nothing comes to an end.
-/

namespace Qaoed.Library

variable {α : Type*} {heap : Nat → Option (Node α)} {first : Option Nat}
  {nodes nodes' : List (Nat × α)}

/-! ## Loops -/

section Walk

variable {ε : Type*} {β : Type*}

/-- A loop that asks one node after the other. It is lost if a pointer leads nowhere, and
stuck if the fuel is used up. -/
def walk (heap : Nat → Option (Node α)) (lost stuck : ε)
    (visit : Nat → α → Except ε (Option β)) : Nat → Option Nat → Except ε (Option β)
  | _, none => .ok none
  | 0, some _ => .error stuck
  | fuel + 1, some address =>
      match heap address with
      | none => .error lost
      | some node =>
          match visit address node.item with
          | .error stop => .error stop
          | .ok (some answer) => .ok (some answer)
          | .ok none => walk heap lost stuck visit fuel node.next

/-- The first answer of a list of nodes. -/
def firstAnswer (visit : Nat → α → Except ε (Option β)) :
    List (Nat × α) → Except ε (Option β)
  | [] => .ok none
  | (address, item) :: rest =>
      match visit address item with
      | .error stop => .error stop
      | .ok (some answer) => .ok (some answer)
      | .ok none => firstAnswer visit rest

variable {lost stuck : ε} {visit : Nat → α → Except ε (Option β)}

/-- As much fuel as there are nodes is enough. -/
theorem Segment.walk_eq (segment : Segment heap first nodes) {fuel : Nat}
    (enough : nodes.length ≤ fuel) :
    walk heap lost stuck visit fuel first = firstAnswer visit nodes := by
  induction segment generalizing fuel with
  | nil => cases fuel <;> rfl
  | cons found tail ih =>
      cases fuel with
      | zero => cases enough
      | succ fuel =>
          rw [walk, found, firstAnswer]
          dsimp only
          split
          · rfl
          · rfl
          · exact ih (Nat.le_of_succ_le_succ enough)

end Walk

/-- The loop to the last node; there is no result if it does not come to one. -/
def lastNode (heap : Nat → Option (Node α)) : Nat → Nat → Option Nat
  | 0, _ => none
  | fuel + 1, address =>
      (heap address).bind fun node =>
        match node.next with
        | none => some address
        | some next => lastNode heap fuel next

theorem Segment.lastNode_eq {address last : Nat} {item : α}
    (segment : Segment heap (some address) (nodes ++ [(last, item)])) {fuel : Nat}
    (enough : nodes.length < fuel) : lastNode heap fuel address = some last := by
  induction nodes generalizing address fuel with
  | nil =>
      obtain ⟨fuel, rfl⟩ := Nat.exists_eq_add_one_of_ne_zero (Nat.ne_of_gt enough)
      cases segment with
      | cons found tail =>
          cases tail
          rw [lastNode, found]
          rfl
  | cons node rest ih =>
      have positive := Nat.zero_lt_of_lt enough
      obtain ⟨fuel, rfl⟩ := Nat.exists_eq_add_one_of_ne_zero (Nat.ne_of_gt positive)
      cases segment with
      | @cons _ _ next _ found tail =>
          rw [lastNode, found, Option.bind_some]
          cases next with
          | none => exact absurd (tail.first_none_iff.mp rfl) (by simp)
          | some next => exact ih tail (Nat.lt_of_succ_lt_succ enough)

/-! ## A link that leads back -/

/-- Two segments from one pointer are the same. -/
theorem Segment.unique (segment : Segment heap first nodes) (other : Segment heap first nodes') :
    nodes = nodes' := by
  induction segment generalizing nodes' with
  | nil =>
      cases other
      rfl
  | cons found tail ih =>
      cases other with
      | cons found' tail' =>
          obtain ⟨rfl, rfl⟩ := Node.mk.inj (Option.some.inj (found.symm.trans found'))
          rw [ih tail']

/-- With a link from one of its nodes back to the first one, a list has no end. -/
theorem Segment.no_end {earlier later : List (Nat × α)} {address : Nat} {item : α}
    (segment : Segment heap first (earlier ++ (address, item) :: later))
    (distinct : ((earlier ++ (address, item) :: later).map Prod.fst).Nodup) :
    ¬ Segment (setNext heap address first) first nodes := by
  intro ends
  -- every way to an end comes past the node and starts anew
  have lap {start : Option Nat} {earlier : List (Nat × α)}
      (segment : Segment heap start (earlier ++ (address, item) :: later))
      (distinct : ((earlier ++ (address, item) :: later).map Prod.fst).Nodup)
      {nodes : List (Nat × α)} (ends : Segment (setNext heap address first) start nodes) :
      ∃ shorter, Segment (setNext heap address first) first shorter ∧
        shorter.length < nodes.length := by
    induction earlier generalizing start nodes with
    | nil =>
        cases segment with
        | cons found tail =>
            cases ends with
            | cons found' tail' =>
                rw [setNext_self found] at found'
                obtain ⟨_, rfl⟩ := Node.mk.inj (Option.some.inj found')
                exact ⟨_, tail', Nat.lt_succ_self _⟩
    | cons node earlier ih =>
        cases segment with
        | @cons here _ _ _ found tail =>
            rw [List.cons_append, List.map_cons, List.nodup_cons] at distinct
            have apart : here ≠ address := by
              rintro rfl
              exact distinct.1 (by simp)
            cases ends with
            | cons found' tail' =>
                rw [setNext_of_ne apart, found] at found'
                obtain ⟨_, rfl⟩ := Node.mk.inj (Option.some.inj found')
                obtain ⟨shorter, again, less⟩ := ih tail distinct.2 tail'
                exact ⟨shorter, again, Nat.lt_succ_of_lt less⟩
  obtain ⟨shorter, again, less⟩ := lap segment distinct ends
  rw [again.unique ends] at less
  exact Nat.lt_irrefl _ less

/-! ## Memory -/

/-- Memory for nodes, handed out in the order of the addresses. -/
structure Pool (α : Type*) where
  heap : Nat → Option (Node α)
  used : Nat
  unused : ∀ address, used ≤ address → heap address = none

namespace Pool

def empty : Pool α := ⟨fun _ => none, 0, fun _ _ => rfl⟩

/-- A fresh node at `used`, with no node behind it. -/
def malloc (pool : Pool α) (item : α) : Pool α where
  heap := Function.update pool.heap pool.used (some ⟨item, none⟩)
  used := pool.used + 1
  unused address behind := by
    rw [Function.update_of_ne (by omega)]
    exact pool.unused address (by omega)

def link (pool : Pool α) (address : Nat) (next : Option Nat) : Pool α where
  heap := setNext pool.heap address next
  used := pool.used
  unused other behind := by
    unfold setNext
    cases here : pool.heap address with
    | none => exact pool.unused other behind
    | some node =>
        have apart : other ≠ address := by
          rintro rfl
          rw [pool.unused other behind] at here
          cases here
        exact (Function.update_of_ne apart _ _).trans (pool.unused other behind)

/-- A list in the memory: its nodes lie at different addresses, of which there are enough. -/
structure Lists (pool : Pool α) (first : Option Nat) (nodes : List (Nat × α)) : Prop where
  segment : Segment pool.heap first nodes
  distinct : (nodes.map Prod.fst).Nodup
  size : nodes.length ≤ pool.used

/-- Put a node behind the last one of a list, or start the list with it. -/
def append (pool : Pool α) (first : Option Nat) (item : α) : Option (Pool α × Option Nat) :=
  match first with
  | none => some (pool.malloc item, some pool.used)
  | some address =>
      (lastNode pool.heap pool.used address).map fun last =>
        ((pool.malloc item).link last (some pool.used), some address)

theorem Lists.append_eq {pool : Pool α} (lists : Lists pool first nodes) (item : α) :
    ∃ pool' first', pool.append first item = some (pool', first') ∧
      Lists pool' first' (nodes ++ [(pool.used, item)]) ∧
        (first.isSome = true → first' = first) := by
  obtain ⟨segment, distinct, size⟩ := lists
  have fresh : pool.used ∉ nodes.map Prod.fst := fun member =>
    segment.live member (pool.unused pool.used (Nat.le_refl _))
  have distinct' : ((nodes ++ [(pool.used, item)]).map Prod.fst).Nodup := by
    rw [List.map_append]
    exact List.nodup_append.mpr ⟨distinct, List.nodup_singleton _, by
      rintro address member _ last rfl
      rw [List.mem_singleton.mp last] at member
      exact fresh member⟩
  have size' : (nodes ++ [(pool.used, item)]).length ≤ pool.used + 1 := by
    rw [List.length_append]
    exact Nat.add_le_add_right size 1
  cases first with
  | none =>
      obtain rfl := segment.first_none_iff.mp rfl
      refine ⟨pool.malloc item, some pool.used, rfl, ⟨?_, distinct', size'⟩,
        fun some => nomatch some⟩
      exact .cons (Function.update_self _ _ _) .nil
  | some address =>
      obtain ⟨earlier, ⟨last, final⟩, rfl⟩ := List.eq_nil_or_concat' nodes |>.resolve_left
        fun none => nomatch (segment.first_none_iff.mpr none)
      have found : lastNode pool.heap pool.used address = some last := by
        rw [List.length_append] at size
        exact segment.lastNode_eq size
      refine ⟨_, _, by rw [append, found]; rfl, ⟨?_, distinct', size'⟩, fun _ => rfl⟩
      rw [List.append_assoc]
      exact segment.snoc item distinct (pool.unused pool.used (Nat.le_refl _))

end Pool

end Qaoed.Library
