import Mathlib.Data.List.Basic

/-!
# Runs of partial steps

An action that is not enabled in a state leads nowhere. A guard says which
actions a run may take in which states; what every guarded step preserves holds
in every state a guarded run reaches. That some run gets from one state to another is
composed from its parts, with a rule for loops that count their rounds.
-/

namespace Qaoed.Library

variable {σ α : Type*}

/-- Take the actions one after the other. -/
def runSteps (step : σ → α → Option σ) : σ → List α → Option σ
  | state, [] => some state
  | state, action :: rest => (step state action).bind fun next => runSteps step next rest

/-- Every action of the run is taken in a state where the guard allows it. -/
def EveryStep (step : σ → α → Option σ) (guard : σ → α → Prop) : σ → List α → Prop
  | _, [] => True
  | state, action :: rest =>
      guard state action ∧ ∀ next, step state action = some next → EveryStep step guard next rest

section Rules

variable {step : σ → α → Option σ} {guard : σ → α → Prop}

theorem runSteps_cons {state final : σ} {action : α} {rest : List α}
    (reached : runSteps step state (action :: rest) = some final) :
    ∃ next, step state action = some next ∧ runSteps step next rest = some final :=
  Option.bind_eq_some_iff.mp reached

theorem runSteps_append (state : σ) (first second : List α) :
    runSteps step state (first ++ second) =
      (runSteps step state first).bind fun middle => runSteps step middle second := by
  induction first generalizing state with
  | nil => rfl
  | cons action rest ih =>
      rw [List.cons_append, runSteps, runSteps]
      cases step state action with
      | none => rfl
      | some next => exact ih next

theorem everyStep_cons {state next : σ} {action : α} {rest : List α}
    (allowed : guard state action) (taken : step state action = some next)
    (later : EveryStep step guard next rest) : EveryStep step guard state (action :: rest) := by
  refine ⟨allowed, ?_⟩
  intro other reached
  rw [taken] at reached
  cases reached
  exact later

/-- A guarded run that goes on where another one ended. -/
theorem everyStep_append {state middle : σ} {first second : List α}
    (guarded : EveryStep step guard state first)
    (reached : runSteps step state first = some middle)
    (later : EveryStep step guard middle second) : EveryStep step guard state (first ++ second) := by
  induction first generalizing state with
  | nil =>
      cases reached
      exact later
  | cons action rest ih =>
      obtain ⟨next, taken, reached⟩ := runSteps_cons reached
      obtain ⟨allowed, guarded⟩ := guarded
      exact everyStep_cons allowed taken (ih (guarded next taken) reached)

/-- A guard that every action passes anywhere. -/
theorem everyStep_of_mem {allowed : α → Prop} {state : σ} {actions : List α}
    (all : ∀ action ∈ actions, allowed action) :
    EveryStep step (fun _ action => allowed action) state actions := by
  induction actions generalizing state with
  | nil => trivial
  | cons action rest ih =>
      refine ⟨all action List.mem_cons_self, ?_⟩
      intro next _
      exact ih fun other member => all other (List.mem_cons_of_mem action member)

/-- A guard that passes every action of the run in every state. -/
theorem everyStep_of_always {state : σ} {actions : List α}
    (always : ∀ action ∈ actions, ∀ state, guard state action) :
    EveryStep step guard state actions := by
  induction actions generalizing state with
  | nil => trivial
  | cons action rest ih =>
      refine ⟨always action List.mem_cons_self state, ?_⟩
      intro next _
      exact ih fun other member => always other (List.mem_cons_of_mem action member)

/-- What every guarded step preserves holds in the state a guarded run reaches. -/
theorem runSteps_invariant (inv : σ → Prop) {state final : σ} {actions : List α}
    (start : inv state)
    (keeps : ∀ state action next, inv state → guard state action →
      step state action = some next → inv next)
    (guarded : EveryStep step guard state actions)
    (reached : runSteps step state actions = some final) : inv final := by
  induction actions generalizing state with
  | nil =>
      cases reached
      exact start
  | cons action rest ih =>
      obtain ⟨next, taken, reached⟩ := runSteps_cons reached
      obtain ⟨allowed, guarded⟩ := guarded
      exact ih (keeps state action next start allowed taken) (guarded next taken) reached

/-- What every step preserves holds in the state a run reaches. -/
theorem runSteps_preserved (inv : σ → Prop) {state final : σ} {actions : List α}
    (start : inv state)
    (keeps : ∀ state action next, inv state → step state action = some next → inv next)
    (reached : runSteps step state actions = some final) : inv final := by
  have unguarded : EveryStep step (fun _ _ => True) state actions :=
    everyStep_of_mem fun _ _ => trivial
  exact runSteps_invariant inv start
    (fun state action next here _ taken => keeps state action next here taken) unguarded reached

end Rules

/-! ## Where runs can get -/

/-- Some run leads from one state to the other. -/
def Reaches (step : σ → α → Option σ) (state final : σ) : Prop :=
  ∃ actions, runSteps step state actions = some final

namespace Reaches

variable {step : σ → α → Option σ} {first second third : σ}

theorem refl (state : σ) : Reaches step state state := ⟨[], rfl⟩

theorem single (action : α) (taken : step first action = some second) :
    Reaches step first second := by
  refine ⟨[action], ?_⟩
  rw [runSteps, taken]
  rfl

theorem trans (left : Reaches step first second) (right : Reaches step second third) :
    Reaches step first third := by
  obtain ⟨actions, reached⟩ := left
  obtain ⟨others, reached'⟩ := right
  refine ⟨actions ++ others, ?_⟩
  rw [runSteps_append, reached]
  exact reached'

/-- A loop gets through its rounds if each of them leads on to the next. -/
theorem rounds (inv : Nat → σ → Prop) {count : Nat} (start : inv 0 first)
    (round : ∀ done, done < count → ∀ state, inv done state →
      ∃ next, Reaches step state next ∧ inv (done + 1) next) :
    ∃ final, Reaches step first final ∧ inv count final := by
  induction count with
  | zero => exact ⟨first, refl first, start⟩
  | succ count ih =>
      obtain ⟨middle, reached, here⟩ :=
        ih fun done inside => round done (Nat.lt_succ_of_lt inside)
      obtain ⟨next, onward, there⟩ := round count (Nat.lt_succ_self count) middle here
      exact ⟨next, reached.trans onward, there⟩

end Reaches

end Qaoed.Library
