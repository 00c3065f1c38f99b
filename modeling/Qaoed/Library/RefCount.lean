import Mathlib.Data.List.Basic

/-!
# Reference counts

Objects on a heap, each with a counter and a record of how often it was freed,
and a pool of tasks that hold references to them. The counters are exact when
each is the number of references that the tasks of the pool hold, and an object
was freed, once, when no task holds one. The rules below carry exactness over the
operations on a counter; an exact counter gives every holder access.
-/

namespace Qaoed.Library

/-! ## Weights of a pool -/

section Pool

variable {τ : Type*} (weight : τ → Nat)

def total : List τ → Nat
  | [] => 0
  | task :: pool => weight task + total pool

@[simp]
theorem total_nil : total weight [] = 0 := rfl

@[simp]
theorem total_cons (task : τ) (pool : List τ) :
    total weight (task :: pool) = weight task + total weight pool := rfl

@[simp]
theorem total_append (first second : List τ) :
    total weight (first ++ second) = total weight first + total weight second := by
  induction first with
  | nil => exact (Nat.zero_add _).symm
  | cons task rest ih =>
      rw [List.cons_append, total_cons, total_cons, ih, Nat.add_assoc]

theorem weight_le_total {pool : List τ} {task : τ} (member : task ∈ pool) :
    weight task ≤ total weight pool := by
  obtain ⟨before, after, rfl⟩ := List.append_of_mem member
  simp only [total_append, total_cons]
  omega

/-- One task is replaced. -/
theorem total_set {pool : List τ} {index : Nat} {old : τ} (found : pool[index]? = some old)
    (new : τ) : total weight (pool.set index new) + weight old = total weight pool + weight new := by
  obtain ⟨inside, rfl⟩ := List.getElem?_eq_some_iff.mp found
  have before : pool = pool.take index ++ pool[index] :: pool.drop (index + 1) := by
    rw [List.getElem_cons_drop inside, List.take_append_drop]
  have whole := congrArg (total weight) before
  rw [List.set_eq_take_append_cons_drop, if_pos inside]
  simp only [total_append, total_cons] at whole ⊢
  omega

section Replace

variable {weight} {pool : List τ} {index : Nat} {old new : τ}

theorem total_set_same (found : pool[index]? = some old) (same : weight new = weight old) :
    total weight (pool.set index new) = total weight pool := by
  have moved := total_set weight found new
  omega

theorem total_set_more {amount : Nat} (found : pool[index]? = some old)
    (more : weight new = weight old + amount) :
    total weight (pool.set index new) = total weight pool + amount := by
  have moved := total_set weight found new
  omega

theorem total_set_fewer {amount : Nat} (found : pool[index]? = some old)
    (fewer : weight new + amount = weight old) :
    total weight (pool.set index new) + amount = total weight pool := by
  have moved := total_set weight found new
  omega

/-- A task hands what it holds on to tasks that join the pool. -/
theorem total_split {joined : List τ} (found : pool[index]? = some old)
    (same : weight new + total weight joined = weight old) :
    total weight (pool.set index new ++ joined) = total weight pool := by
  have moved := total_set weight found new
  rw [total_append]
  omega

end Replace

theorem total_replicate (count : Nat) (task : τ) :
    total weight (List.replicate count task) = count * weight task := by
  induction count with
  | zero => exact (Nat.zero_mul _).symm
  | succ count ih =>
      rw [List.replicate_succ, total_cons, ih, Nat.succ_mul, Nat.add_comm]

end Pool

/-- An element of a list with one more element at its end. -/
theorem getElem?_concat {α : Type*} {list : List α} {last element : α} {index : Nat}
    (found : (list ++ [last])[index]? = some element) :
    (index < list.length ∧ list[index]? = some element) ∨ (index = list.length ∧ element = last) := by
  rw [List.getElem?_append] at found
  split at found
  · next inside => exact Or.inl ⟨inside, found⟩
  · next outside =>
      right
      obtain ⟨bound, same⟩ := List.getElem?_eq_some_iff.mp found
      rw [List.getElem_singleton] at same
      rw [List.length_singleton] at bound
      exact ⟨by omega, same.symm⟩

/-! ## Counted objects -/

structure Counted (β : Type*) where
  value : β
  refcount : Int
  frees : Nat
  deriving DecidableEq, Repr

namespace Counted

variable {β : Type*}

def raise (object : Counted β) : Counted β := { object with refcount := object.refcount + 1 }

/-- Whether giving up one reference frees the object. -/
def last (object : Counted β) : Bool := object.refcount - 1 < 1

def lower (object : Counted β) : Counted β :=
  { object with
    refcount := object.refcount - 1
    frees := if object.last then object.frees + 1 else object.frees }

@[simp]
theorem raise_value (object : Counted β) : object.raise.value = object.value := rfl

@[simp]
theorem lower_value (object : Counted β) : object.lower.value = object.value := rfl

/-- The object as it is while this many references to it are held. -/
structure Tallies (object : Counted β) (held : Nat) : Prop where
  count : object.refcount = (held : Int)
  freed : object.frees = if held = 0 then 1 else 0

namespace Tallies

variable {object : Counted β} {held : Nat}

theorem raise (tallies : object.Tallies (held + 1)) : object.raise.Tallies (held + 2) where
  count := by
    have count := tallies.count
    simp only [Counted.raise]
    omega
  freed := tallies.freed

theorem last (tallies : object.Tallies (held + 1)) : object.last = true ↔ held = 0 := by
  have count := tallies.count
  simp only [Counted.last, decide_eq_true_eq]
  omega

theorem lower (tallies : object.Tallies (held + 1)) : object.lower.Tallies held where
  count := by
    have count := tallies.count
    simp only [Counted.lower]
    omega
  freed := by
    have unfreed : object.frees = 0 := tallies.freed
    simp only [Counted.lower, tallies.last, unfreed]

end Tallies

end Counted

variable {β : Type*}

/-- The object at an address, unless it was freed. -/
def access (heap : List (Counted β)) (address : Nat) : Option (Counted β) :=
  heap[address]?.filter fun object => object.frees == 0

theorem getElem?_of_access {heap : List (Counted β)} {address : Nat} {object : Counted β}
    (accessed : access heap address = some object) : heap[address]? = some object :=
  (Option.filter_eq_some_iff.mp accessed).1

/-- An object that keeps its value leaves the values as they are. -/
theorem map_value_set {heap : List (Counted β)} {address : Nat}
    {object new : Counted β} (accessed : access heap address = some object)
    (same : new.value = object.value) :
    (heap.set address new).map Counted.value = heap.map Counted.value := by
  obtain ⟨inside, here⟩ := List.getElem?_eq_some_iff.mp (getElem?_of_access accessed)
  have inside' : address < (heap.map Counted.value).length := by rwa [List.length_map]
  have value : (heap.map Counted.value)[address] = object.value := by rw [List.getElem_map, here]
  rw [List.map_set, same, ← value]
  exact List.set_getElem_self inside'

theorem map_value_modify (heap : List (Counted β)) (address : Nat) (object : Counted β)
    (value : β) : (heap.set address { object with value := value }).map Counted.value =
      (heap.map Counted.value).set address value := List.map_set

/-! ## Exact counters -/

/-- Each counter is the number of references held, and only objects have holders. -/
structure Exact (heap : List (Counted β)) (refs : Nat → Nat) : Prop where
  tallies : ∀ address (object : Counted β), heap[address]? = some object →
    object.Tallies (refs address)
  bounded : ∀ address, 0 < refs address → address < heap.length

namespace Exact

variable {heap : List (Counted β)} {refs refs' : Nat → Nat} {address : Nat} {object : Counted β}

theorem empty : Exact ([] : List (Counted β)) fun _ => 0 := by
  constructor
  · intro address object found
    cases found
  · intro address held
    exact absurd held (Nat.lt_irrefl 0)

theorem congr (counted : Exact heap refs) (same : ∀ address, refs' address = refs address) :
    Exact heap refs' := by
  rw [funext same]
  exact counted

/-- Who holds a reference has access. -/
theorem access (counted : Exact heap refs) (held : 0 < refs address) :
    ∃ object, Library.access heap address = some object := by
  have inside := counted.bounded address held
  have found : heap[address]? = some heap[address] := List.getElem?_eq_getElem inside
  have freed := (counted.tallies address _ found).freed
  rw [if_neg (Nat.ne_of_gt held)] at freed
  refine ⟨heap[address], Option.filter_eq_some_iff.mpr ⟨found, ?_⟩⟩
  rw [freed]
  rfl

/-- The next address has no holders yet. -/
theorem fresh (counted : Exact heap refs) : refs heap.length = 0 := by
  by_contra held
  exact Nat.lt_irrefl _ (counted.bounded _ (Nat.pos_of_ne_zero held))

/-- A new object starts with the references its creator hands out. -/
theorem alloc (counted : Exact heap refs) (value : β) {held : Nat} (positive : 0 < held)
    (more : ∀ address, refs' address = refs address + if address = heap.length then held else 0) :
    Exact (heap ++ [⟨value, held, 0⟩]) refs' := by
  constructor
  · intro address object found
    rcases getElem?_concat found with ⟨inside, found⟩ | ⟨rfl, rfl⟩
    · rw [more, if_neg (Nat.ne_of_lt inside), Nat.add_zero]
      exact counted.tallies address object found
    · rw [more, counted.fresh, if_pos rfl, Nat.zero_add]
      exact ⟨rfl, by rw [if_neg (Nat.ne_of_gt positive)]⟩
  · intro address some
    rw [List.length_append, List.length_singleton]
    rw [more] at some
    split at some
    · omega
    · have inside := counted.bounded address some
      omega

/-- One object changes together with the references to it. -/
theorem set (counted : Exact heap refs) (found : heap[address]? = some object)
    {new : Counted β} (tallies : new.Tallies (refs' address))
    (other : ∀ address', address' ≠ address → refs' address' = refs address') :
    Exact (heap.set address new) refs' := by
  have inside := (List.getElem?_eq_some_iff.mp found).1
  constructor
  · intro address' object' found'
    by_cases same : address' = address
    · subst same
      rw [List.getElem?_set_self inside, Option.some.injEq] at found'
      subst found'
      exact tallies
    · rw [List.getElem?_set_ne (Ne.symm same)] at found'
      rw [other address' same]
      exact counted.tallies address' object' found'
  · intro address' held
    rw [List.length_set]
    by_cases same : address' = address
    · subst same
      exact inside
    · rw [other address' same] at held
      exact counted.bounded address' held

/-- The number of references to the object at an accessed address. -/
theorem tallies_of_held (counted : Exact heap refs)
    (accessed : Library.access heap address = some object) (held : 0 < refs address) :
    object.Tallies (refs address - 1 + 1) := by
  rw [Nat.sub_add_cancel held]
  exact counted.tallies address object (getElem?_of_access accessed)

theorem raise (counted : Exact heap refs) (held : 0 < refs address)
    (accessed : Library.access heap address = some object)
    (more : ∀ address', refs' address' = refs address' + if address' = address then 1 else 0) :
    Exact (heap.set address object.raise) refs' := by
  apply counted.set (getElem?_of_access accessed)
  · have tallies := (counted.tallies_of_held accessed held).raise
    have count : refs address - 1 + 2 = refs' address := by
      rw [more, if_pos rfl]
      omega
    rwa [count] at tallies
  · intro address' other
    rw [more, if_neg other, Nat.add_zero]

theorem lower (counted : Exact heap refs)
    (accessed : Library.access heap address = some object)
    (fewer : ∀ address', refs' address' + (if address' = address then 1 else 0) = refs address') :
    Exact (heap.set address object.lower) refs' ∧ (object.last = true ↔ refs' address = 0) := by
  have here : refs' address + 1 = refs address := by simpa using fewer address
  have tallies : object.Tallies (refs' address + 1) := by
    rw [here]
    exact counted.tallies address object (getElem?_of_access accessed)
  refine ⟨?_, tallies.last⟩
  apply counted.set (getElem?_of_access accessed) tallies.lower
  intro address' other
  simpa [other] using fewer address'

/-- The contents of an object do not matter to its counter. -/
theorem modify (counted : Exact heap refs) (found : heap[address]? = some object) (value : β)
    (same : ∀ address', refs' address' = refs address') :
    Exact (heap.set address { object with value := value }) refs' := by
  have tallies := counted.tallies address object found
  apply counted.set found
  · rw [same]
    exact ⟨tallies.count, tallies.freed⟩
  · intro address' _
    exact same address'

end Exact

end Qaoed.Library
