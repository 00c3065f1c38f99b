import Mathlib.Data.List.Nodup
import Mathlib.Logic.Function.Basic

/-!
# Singly linked lists in a heap

A heap maps addresses to nodes. A segment is the list of nodes visited from a
pointer on. A node that is linked behind the last one ends up at the end of the
segment, and one that is unlinked at the front leaves the rest.
-/

namespace Qaoed.Library

structure Node (α : Type*) where
  item : α
  next : Option Nat
  deriving DecidableEq, Repr

variable {α : Type*} {heap heap' : Nat → Option (Node α)} {first next : Option Nat}
  {nodes earlier rest : List (Nat × α)} {address last fresh : Nat} {item new : α}

/-- Following the links from `first` visits the given nodes and ends there. -/
inductive Segment (heap : Nat → Option (Node α)) : Option Nat → List (Nat × α) → Prop where
  | nil : Segment heap none []
  | cons {address : Nat} {item : α} {next : Option Nat} {rest : List (Nat × α)} :
      heap address = some ⟨item, next⟩ → Segment heap next rest →
        Segment heap (some address) ((address, item) :: rest)

/-- The pointer in a link field is overwritten. -/
def setNext (heap : Nat → Option (Node α)) (address : Nat) (next : Option Nat) :
    Nat → Option (Node α) :=
  match heap address with
  | none => heap
  | some node => Function.update heap address (some { node with next := next })

theorem setNext_self {before : Option Nat} (found : heap address = some ⟨item, before⟩) :
    setNext heap address next address = some ⟨item, next⟩ := by
  rw [setNext, found]
  exact Function.update_self _ _ _

theorem setNext_of_ne {other : Nat} (apart : other ≠ address) :
    setNext heap address next other = heap other := by
  unfold setNext
  cases heap address with
  | none => rfl
  | some node => exact Function.update_of_ne apart _ _

namespace Segment

theorem first_none_iff (segment : Segment heap first nodes) : first = none ↔ nodes = [] := by
  cases segment with
  | nil => simp
  | cons found tail => simp

/-- The nodes of a segment are allocated. -/
theorem live (segment : Segment heap first nodes) (member : address ∈ nodes.map Prod.fst) :
    heap address ≠ none := by
  induction segment with
  | nil => cases member
  | cons found tail ih =>
      rcases List.mem_cons.mp member with rfl | inTail
      · rw [found]
        exact Option.some_ne_none _
      · exact ih inTail

/-- Behind the last node there is none. -/
theorem last_found (segment : Segment heap first (earlier ++ [(last, item)])) :
    heap last = some ⟨item, none⟩ := by
  induction earlier generalizing first with
  | nil =>
      cases segment with
      | cons found tail =>
          cases tail
          exact found
  | cons node earlier ih =>
      cases segment with
      | cons found tail => exact ih tail

/-- A segment depends on the nodes it visits only. -/
theorem congr (segment : Segment heap first nodes)
    (same : ∀ address ∈ nodes.map Prod.fst, heap' address = heap address) :
    Segment heap' first nodes := by
  induction segment with
  | nil => exact .nil
  | cons found tail ih =>
      refine .cons ?_ (ih ?_)
      · rw [same _ List.mem_cons_self]
        exact found
      · intro address member
        exact same address (List.mem_cons_of_mem _ member)

/-- Freeing the first node leaves the rest. -/
theorem free_first (tail : Segment heap next rest) (outside : address ∉ rest.map Prod.fst) :
    Segment (Function.update heap address none) next rest := by
  refine tail.congr ?_
  intro other member
  apply Function.update_of_ne
  rintro rfl
  exact outside member

/-- A fresh node linked behind the last one becomes the last one. -/
theorem snoc (new : α) (segment : Segment heap first (earlier ++ [(last, item)]))
    (distinct : ((earlier ++ [(last, item)]).map Prod.fst).Nodup) (unused : heap fresh = none) :
    Segment (setNext (Function.update heap fresh (some ⟨new, none⟩)) last (some fresh)) first
      (earlier ++ [(last, item), (fresh, new)]) := by
  have other : last ≠ fresh := by
    rintro rfl
    exact segment.live (by simp) unused
  induction earlier generalizing first with
  | nil =>
      cases segment with
      | cons found tail =>
          have kept := Function.update_of_ne other (some (Node.mk new none)) heap
          rw [found] at kept
          refine .cons (setNext_self kept) (.cons ?_ .nil)
          rw [setNext_of_ne other.symm, Function.update_self]
  | cons node earlier ih =>
      cases segment with
      | cons found tail =>
          rw [List.cons_append, List.map_cons, List.nodup_cons] at distinct
          obtain ⟨outside, distinct⟩ := distinct
          refine .cons ?_ (ih tail distinct)
          rw [setNext_of_ne, Function.update_of_ne, found]
          · rintro rfl
            rw [found] at unused
            cases unused
          · rintro rfl
            exact outside (by simp)

end Segment

end Qaoed.Library
