import Qaoed.Library.Mealy

/-!
# Inputs that leave no trace

A run is observed on the inputs of one kind. Where the other inputs lead to states that the
observer cannot tell apart from the ones before, they may as well be left out. An input that
is repeated at once leaves no trace either if the state has settled after the first time.
-/

namespace Qaoed.Library.Mealy

variable {σ ι ο : Type*} (machine : Mealy σ ι ο)

/-- What a run answers to the inputs of one kind. -/
def outputsOn (kind : ι → Bool) (state : σ) (inputs : List ι) : List ο :=
  ((machine.visits state inputs).filter fun visit => kind visit.input).map fun visit =>
    machine.out visit.state visit.input

section Purge

variable {machine} {kind : ι → Bool} {state : σ} {input : ι}

theorem outputsOn_cons_of (counts : kind input = true) (rest : List ι) :
    machine.outputsOn kind state (input :: rest) =
      machine.out state input :: machine.outputsOn kind (machine.next state input) rest := by
  rw [outputsOn, visits, List.filter_cons, if_pos counts, List.map_cons, outputsOn]

theorem outputsOn_cons_other (other : kind input = false) (rest : List ι) :
    machine.outputsOn kind state (input :: rest) =
      machine.outputsOn kind (machine.next state input) rest := by
  rw [outputsOn, visits, List.filter_cons, if_neg (by simp [other]), outputsOn]

/-- What the inputs of other kinds do to a state is not seen, so a run without them ends
alike and answers the same. -/
theorem purge (machine : Mealy σ ι ο) (kind : ι → Bool) (related : σ → σ → Prop)
    (first second : σ) (inputs : List ι) (start : related first second)
    (silent : ∀ first second input, related first second → kind input = false →
      related (machine.next first input) second)
    (step : ∀ first second input, related first second → kind input = true →
      related (machine.next first input) (machine.next second input))
    (seen : ∀ first second input, related first second → kind input = true →
      machine.out first input = machine.out second input) :
    related (machine.run first inputs) (machine.run second (inputs.filter kind)) ∧
      machine.outputsOn kind first inputs = machine.outputs second (inputs.filter kind) := by
  induction inputs generalizing first second with
  | nil => exact ⟨start, rfl⟩
  | cons input rest ih =>
      cases counts : kind input with
      | false =>
          rw [List.filter_cons_of_neg (by rw [counts]; exact Bool.false_ne_true),
            outputsOn_cons_other counts]
          exact ih _ _ (silent first second input start counts)
      | true =>
          obtain ⟨ends, answers⟩ := ih _ _ (step first second input start counts)
          rw [List.filter_cons_of_pos counts, outputsOn_cons_of counts, outputs_cons, answers,
            seen first second input start counts]
          exact ⟨ends, rfl⟩

end Purge

/-! ## Repetitions -/

/-- An input with its repetitions. -/
def repeated (bundle : ι × List ι) : List ι := bundle.1 :: bundle.2

theorem run_append (state : σ) (earlier later : List ι) :
    machine.run state (earlier ++ later) = machine.run (machine.run state earlier) later :=
  List.foldl_append

/-- Inputs that change nothing. -/
theorem run_idle {state : σ} {inputs : List ι}
    (idle : ∀ input ∈ inputs, machine.next state input = state) :
    machine.run state inputs = state := by
  induction inputs with
  | nil => rfl
  | cons input rest ih =>
      rw [run, List.foldl_cons, idle input List.mem_cons_self]
      exact ih fun other member => idle other (List.mem_cons_of_mem _ member)

/-- Repetitions that change nothing after the first time may be left out. -/
theorem run_repeated (state : σ) (bundles : List (ι × List ι))
    (settled : ∀ bundle ∈ bundles, ∀ state, ∀ again ∈ bundle.2,
      machine.next (machine.next state bundle.1) again = machine.next state bundle.1) :
    machine.run state (bundles.flatMap repeated) = machine.run state (bundles.map Prod.fst) := by
  induction bundles generalizing state with
  | nil => rfl
  | cons bundle rest ih =>
      have once : machine.run state (repeated bundle) = machine.next state bundle.1 :=
        machine.run_idle (settled bundle List.mem_cons_self state)
      rw [List.flatMap_cons, run_append, once,
        ih _ fun other member => settled other (List.mem_cons_of_mem _ member)]
      rfl

end Qaoed.Library.Mealy
