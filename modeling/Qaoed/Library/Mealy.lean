import Mathlib.Data.List.Forall2

/-!
# Machines that answer one input at a time

A deterministic machine is given by its next state and its output. The visits
of a run are the state and the input of each step. The rules below carry a
property of single steps to every visit of a run, and a relation between two
runs to their outputs.
-/

namespace Qaoed.Library

structure Mealy (σ ι ο : Type*) where
  next : σ → ι → σ
  out : σ → ι → ο

namespace Mealy

variable {σ ι ο γ : Type*} (machine : Mealy σ ι ο)

/-- One step of a run: the state it starts in and the input it handles. -/
structure Visit (σ ι : Type*) where
  state : σ
  input : ι

def run (state : σ) (inputs : List ι) : σ := inputs.foldl machine.next state

def visits : σ → List ι → List (Visit σ ι)
  | _, [] => []
  | state, input :: rest => ⟨state, input⟩ :: visits (machine.next state input) rest

def outputs (state : σ) (inputs : List ι) : List ο :=
  (machine.visits state inputs).map fun visit => machine.out visit.state visit.input

theorem run_snoc (state : σ) (earlier : List ι) (input : ι) :
    machine.run state (earlier ++ [input]) = machine.next (machine.run state earlier) input := by
  rw [run, List.foldl_append, List.foldl_cons, List.foldl_nil, run]

theorem outputs_cons (state : σ) (input : ι) (rest : List ι) :
    machine.outputs state (input :: rest) =
      machine.out state input :: machine.outputs (machine.next state input) rest := rfl

@[simp]
theorem outputs_length (state : σ) (inputs : List ι) :
    (machine.outputs state inputs).length = inputs.length := by
  induction inputs generalizing state with
  | nil => rfl
  | cons input rest ih => simp [outputs_cons, ih]

theorem outputs_append (state : σ) (first second : List ι) :
    machine.outputs state (first ++ second) =
      machine.outputs state first ++ machine.outputs (machine.run state first) second := by
  induction first generalizing state with
  | nil => rfl
  | cons input rest ih =>
      rw [List.cons_append, outputs_cons, outputs_cons, ih, List.cons_append]
      rfl

/-- The output of the step behind some inputs. -/
theorem outputs_getElem? (state : σ) (earlier : List ι) (input : ι) (later : List ι) :
    (machine.outputs state (earlier ++ input :: later))[earlier.length]? =
      some (machine.out (machine.run state earlier) input) := by
  rw [outputs_append, outputs_cons, List.getElem?_append_right (by simp)]
  simp

/-- A visit splits the inputs at the step it describes. -/
theorem mem_visits {state : σ} {inputs : List ι} {visit : Visit σ ι}
    (member : visit ∈ machine.visits state inputs) :
    ∃ earlier later, inputs = earlier ++ visit.input :: later ∧
      visit.state = machine.run state earlier := by
  induction inputs generalizing state with
  | nil => cases member
  | cons input rest ih =>
      rcases List.mem_cons.mp member with rfl | inRest
      · exact ⟨[], rest, rfl, rfl⟩
      · obtain ⟨earlier, later, split, reached⟩ := ih inRest
        exact ⟨input :: earlier, later, by rw [split, List.cons_append], reached⟩

theorem input_mem {state : σ} {inputs : List ι} {visit : Visit σ ι}
    (member : visit ∈ machine.visits state inputs) : visit.input ∈ inputs := by
  obtain ⟨earlier, later, split, _⟩ := machine.mem_visits member
  rw [split]
  exact List.mem_append_right earlier List.mem_cons_self

/-- An invariant of the steps the run takes holds in its last state. -/
theorem run_invariant (inv : σ → Prop) {state : σ} {inputs : List ι}
    (start : inv state)
    (step : ∀ state, ∀ input ∈ inputs, inv state → inv (machine.next state input)) :
    inv (machine.run state inputs) := by
  induction inputs generalizing state with
  | nil => exact start
  | cons input rest ih =>
      apply ih (step state input List.mem_cons_self start)
      intro state' input' member
      exact step state' input' (List.mem_cons_of_mem input member)

/-- An invariant of the steps the run takes holds at every visit. -/
theorem visit_invariant (inv : σ → Prop) {state : σ} {inputs : List ι}
    (start : inv state)
    (step : ∀ state, ∀ input ∈ inputs, inv state → inv (machine.next state input))
    {visit : Visit σ ι} (member : visit ∈ machine.visits state inputs) : inv visit.state := by
  obtain ⟨earlier, later, split, reached⟩ := machine.mem_visits member
  rw [reached]
  apply machine.run_invariant inv start
  intro state' input' inEarlier
  apply step state' input'
  rw [split]
  exact List.mem_append_left _ inEarlier

/-- A property that the steps of a run keep exactly where a guard allows them holds all
along the run exactly if the guard allows every step. -/
theorem prefixes_invariant_iff_of_mem (inv : σ → Prop) (guard : σ → ι → Prop) {state : σ}
    (inputs : List ι) (start : inv state)
    (step : ∀ state, ∀ input ∈ inputs, inv state → (inv (machine.next state input) ↔ guard state input)) :
    (∀ earlier, earlier <+: inputs → inv (machine.run state earlier)) ↔
      ∀ visit ∈ machine.visits state inputs, guard visit.state visit.input := by
  constructor
  · intro holds visit member
    obtain ⟨earlier, later, split, reached⟩ := machine.mem_visits member
    have before := holds earlier ⟨visit.input :: later, split.symm⟩
    have after := holds (earlier ++ [visit.input]) ⟨later, by simp [split]⟩
    rw [run_snoc, ← reached] at after
    rw [← reached] at before
    exact (step visit.state visit.input (machine.input_mem member) before).mp after
  · intro allowed earlier
    induction inputs generalizing state earlier with
    | nil =>
        intro part
        rw [List.prefix_nil.mp part]
        exact start
    | cons input rest ih =>
        intro part
        cases earlier with
        | nil => exact start
        | cons first others =>
            obtain ⟨rfl, inRest⟩ := List.cons_prefix_cons.mp part
            have next := (step state first List.mem_cons_self start).mpr
              (allowed ⟨state, first⟩ List.mem_cons_self)
            exact ih next (fun state input member => step state input (List.mem_cons_of_mem _ member))
              (fun visit member => allowed visit (List.mem_cons_of_mem _ member)) others inRest

/-- A property that a step keeps exactly where a guard allows it holds all along a run
exactly if the guard allows every step. -/
theorem prefixes_invariant_iff (inv : σ → Prop) (guard : σ → ι → Prop) {state : σ}
    (inputs : List ι) (start : inv state)
    (step : ∀ state input, inv state → (inv (machine.next state input) ↔ guard state input)) :
    (∀ earlier, earlier <+: inputs → inv (machine.run state earlier)) ↔
      ∀ visit ∈ machine.visits state inputs, guard visit.state visit.input :=
  machine.prefixes_invariant_iff_of_mem inv guard inputs start fun state input _ => step state input

/-- In a run from a state with an invariant every step has a property exactly if a guard
allows every step, provided that the guard is just what the property needs where the
invariant holds, and allowed steps keep the invariant. -/
theorem visits_iff (inv : σ → Prop) {property guard : σ → ι → Prop} {state : σ} (inputs : List ι)
    (start : inv state)
    (needs : ∀ state input, inv state → (property state input ↔ guard state input))
    (keeps : ∀ state input, inv state → guard state input → inv (machine.next state input)) :
    (∀ visit ∈ machine.visits state inputs, property visit.state visit.input) ↔
      ∀ visit ∈ machine.visits state inputs, guard visit.state visit.input := by
  induction inputs generalizing state with
  | nil => exact iff_of_true (fun _ member => nomatch member) fun _ member => nomatch member
  | cons input rest ih =>
      have here := needs state input start
      constructor
      · intro holds visit member
        have allowed := here.mp (holds ⟨state, input⟩ List.mem_cons_self)
        rcases List.mem_cons.mp member with rfl | later
        · exact allowed
        · exact (ih (keeps state input start allowed)).mp
            (fun other inRest => holds other (List.mem_cons_of_mem _ inRest)) visit later
      · intro allows visit member
        have allowed := allows ⟨state, input⟩ List.mem_cons_self
        rcases List.mem_cons.mp member with rfl | later
        · exact here.mpr allowed
        · exact (ih (keeps state input start allowed)).mpr
            (fun other inRest => allows other (List.mem_cons_of_mem _ inRest)) visit later

/-- A measure that no step of the run raises is at most what it was at the start. -/
theorem visit_measure (measure : σ → Nat) {state : σ} {inputs : List ι}
    (falls : ∀ visit ∈ machine.visits state inputs,
      measure (machine.next visit.state visit.input) ≤ measure visit.state) :
    ∀ visit ∈ machine.visits state inputs,
      measure (machine.next visit.state visit.input) ≤ measure state := by
  induction inputs generalizing state with
  | nil =>
      intro visit member
      cases member
  | cons input rest ih =>
      have first := falls ⟨state, input⟩ List.mem_cons_self
      intro visit member
      rcases List.mem_cons.mp member with rfl | inRest
      · exact first
      · have later := ih (fun visit member => falls visit (List.mem_cons_of_mem _ member))
        exact Nat.le_trans (later visit inRest) first

/-- Two runs on alike inputs that stay related show the same to an observer who
sees the same of any two related steps. -/
theorem observations_eq (related : σ → σ → Prop) {alike : ι → ι → Prop} (observe : ο → γ)
    {first second : σ} {inputs inputs' : List ι}
    (same : List.Forall₂ alike inputs inputs') (start : related first second)
    (step : ∀ first second input input', related first second → alike input input' →
      related (machine.next first input) (machine.next second input'))
    (seen : ∀ first second input input', related first second → alike input input' →
      observe (machine.out first input) = observe (machine.out second input')) :
    (machine.outputs first inputs).map observe = (machine.outputs second inputs').map observe := by
  induction same generalizing first second with
  | nil => rfl
  | cons likeness rest ih =>
      rw [outputs_cons, outputs_cons, List.map_cons, List.map_cons,
        seen _ _ _ _ start likeness, ih (step _ _ _ _ start likeness)]

end Mealy

end Qaoed.Library
