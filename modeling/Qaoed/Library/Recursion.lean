import Mathlib.Data.Fintype.EquivFin
import Mathlib.Logic.Relation

/-!
# Recursive procedures

A procedure calls procedures by their names, one after the other, and decides by each
result what it does next. It is run with a bound on the depth of the calls. A run comes to
its end exactly if there is no endless chain of calls, and among finitely many names that
is a cycle.
-/

namespace Qaoed.Library

/-- What a procedure does, up to its result. -/
inductive Program (ν ρ : Type*) where
  | done (result : ρ)
  | call (name : ν) (next : ρ → Program ν ρ)

namespace Program

variable {ν ρ : Type*}

/-- What a program comes to if its calls return what they do. -/
def exec (callee : ν → Option ρ) : Program ν ρ → Option ρ
  | .done result => some result
  | .call name next =>
      match callee name with
      | none => none
      | some result => (next result).exec callee

/-- The procedure of a name, with calls up to a depth. -/
def run (body : ν → Program ν ρ) : Nat → ν → Option ρ
  | 0, _ => none
  | depth + 1, name => (body name).exec (run body depth)

section Body

variable (body : ν → Program ν ρ)

/-- Some depth of calls is enough. -/
def Terminates (name : ν) : Prop := ∃ depth result, run body depth name = some result

/-- The result of a program, at whatever depth of calls. -/
inductive Runs : Program ν ρ → ρ → Prop
  | done (result : ρ) : Runs (.done result) result
  | call {name : ν} {next : ρ → Program ν ρ} {result final : ρ} :
      Runs (body name) result → Runs (next result) final → Runs (.call name next) final

/-- A program calls a procedure: all calls before it have returned. -/
inductive Reaches : Program ν ρ → ν → Prop
  | here (name : ν) (next : ρ → Program ν ρ) : Reaches (.call name next) name
  | later {name other : ν} {next : ρ → Program ν ρ} {result : ρ} :
      Runs body (body name) result → Reaches (next result) other →
      Reaches (.call name next) other

def Calls (caller callee : ν) : Prop := Reaches body (body caller) callee

variable {body} {program : Program ν ρ} {name : ν} {result : ρ}

theorem exec_mono {callee callee' : ν → Option ρ}
    (more : ∀ name result, callee name = some result → callee' name = some result)
    (returns : program.exec callee = some result) : program.exec callee' = some result := by
  induction program with
  | done final => exact returns
  | call name next ih =>
      rw [exec] at returns ⊢
      cases called : callee name with
      | none =>
          rw [called] at returns
          cases returns
      | some middle =>
          rw [called] at returns
          rw [more name middle called]
          exact ih middle returns

theorem run_succ {depth : Nat} (returns : run body depth name = some result) :
    run body (depth + 1) name = some result := by
  induction depth generalizing name result with
  | zero => cases returns
  | succ depth ih => exact exec_mono (fun _ _ returned => ih returned) returns

theorem run_mono {depth depth' : Nat} (deeper : depth ≤ depth')
    (returns : run body depth name = some result) : run body depth' name = some result := by
  induction deeper with
  | refl => exact returns
  | step _ ih => exact run_succ ih

theorem runs_of_exec {depth : Nat} (returns : program.exec (run body depth) = some result) :
    Runs body program result := by
  induction depth generalizing program result with
  | zero =>
      cases program with
      | done final =>
          cases returns
          exact .done _
      | call name next => cases returns
  | succ depth ihDepth =>
      induction program with
      | done final =>
          cases returns
          exact .done _
      | call name next ih =>
          rw [exec] at returns
          cases called : run body (depth + 1) name with
          | none =>
              rw [called] at returns
              cases returns
          | some middle =>
              rw [called] at returns
              exact .call (ihDepth called) (ih middle returns)

theorem Runs.exec (runs : Runs body program result) :
    ∃ depth, program.exec (run body depth) = some result := by
  induction runs with
  | done final => exact ⟨0, rfl⟩
  | @call name next result final _ _ ihCall ihNext =>
      obtain ⟨depth, called⟩ := ihCall
      obtain ⟨depth', returns⟩ := ihNext
      refine ⟨max (depth + 1) depth', ?_⟩
      have returned : run body (max (depth + 1) depth') name = some result :=
        run_mono (Nat.le_max_left _ _) called
      rw [Program.exec, returned]
      exact exec_mono (fun _ _ => run_mono (Nat.le_max_right _ _)) returns

/-- The two accounts of a run agree. -/
theorem runs_iff : Runs body (body name) result ↔ ∃ depth, run body depth name = some result := by
  constructor
  · intro runs
    obtain ⟨depth, returns⟩ := runs.exec
    exact ⟨depth + 1, returns⟩
  · rintro ⟨depth, returns⟩
    cases depth with
    | zero => cases returns
    | succ depth => exact runs_of_exec returns

theorem Runs.unique {other : ρ} (runs : Runs body program result)
    (runs' : Runs body program other) : other = result := by
  induction runs generalizing other with
  | done final =>
      cases runs'
      rfl
  | call _ _ ihCall ihNext =>
      cases runs' with
      | call called returns =>
          rw [ihCall called] at returns
          exact ihNext returns

theorem terminates_iff_runs : Terminates body name ↔ ∃ result, Runs body (body name) result := by
  constructor
  · rintro ⟨depth, result, returns⟩
    exact ⟨result, runs_iff.mpr ⟨depth, returns⟩⟩
  · rintro ⟨result, runs⟩
    obtain ⟨depth, returns⟩ := runs_iff.mp runs
    exact ⟨depth, result, returns⟩

/-! ## Chains of calls -/

/-- A run has no endless chain of calls in it, by induction on the run. -/
theorem Runs.acc (runs : Runs body program result) :
    ∀ called, Reaches body program called → Acc (fun callee caller => Calls body caller callee) called := by
  induction runs with
  | done final =>
      intro called reaches
      cases reaches
  | @call name next result final runs _ ihCall ihNext =>
      intro called reaches
      cases reaches with
      | here => exact Acc.intro name ihCall
      | later runs' reaches =>
          rw [runs.unique runs'] at reaches
          exact ihNext called reaches

/-- A program whose calls all return comes to its end. -/
theorem runs_of_calls (program : Program ν ρ)
    (returns : ∀ called, Reaches body program called → ∃ result, Runs body (body called) result) :
    ∃ result, Runs body program result := by
  induction program with
  | done final => exact ⟨final, .done final⟩
  | call name next ih =>
      obtain ⟨middle, called⟩ := returns name (.here name next)
      obtain ⟨final, runs⟩ := ih middle fun other reaches => returns other (.later called reaches)
      exact ⟨final, .call called runs⟩

theorem terminates_iff_acc :
    Terminates body name ↔ Acc (fun callee caller => Calls body caller callee) name := by
  rw [terminates_iff_runs]
  constructor
  · rintro ⟨result, runs⟩
    exact Acc.intro name runs.acc
  · intro acc
    induction acc with
    | intro name _ ih => exact runs_of_calls (body name) ih

end Body

/-! ## Programs that do the same -/

/-- Two programs with the same calls, whose results are related if those of their calls are. -/
inductive Simulates {ρ' : Type*} (related : ρ → ρ' → Prop) : Program ν ρ → Program ν ρ' → Prop
  | done {result : ρ} {result' : ρ'} : related result result' →
      Simulates related (.done result) (.done result')
  | call {name : ν} {next : ρ → Program ν ρ} {next' : ρ' → Program ν ρ'} :
      (∀ result result', related result result' → Simulates related (next result) (next' result')) →
      Simulates related (.call name next) (.call name next')

section Simulates

variable {ρ' : Type*} {related : ρ → ρ' → Prop} {program : Program ν ρ} {program' : Program ν ρ'}
  {body : ν → Program ν ρ} {body' : ν → Program ν ρ'}

theorem Simulates.exec {callee : ν → Option ρ} {callee' : ν → Option ρ'}
    (simulates : Simulates related program program')
    (calls : ∀ name, Option.Rel related (callee name) (callee' name)) :
    Option.Rel related (program.exec callee) (program'.exec callee') := by
  induction simulates with
  | done same => exact .some same
  | @call name next next' _ ih =>
      have both := calls name
      rw [Program.exec, Program.exec]
      revert both
      generalize callee name = called, callee' name = called'
      rintro (same | _)
      · exact ih _ _ same
      · exact .none

theorem run_related (simulates : ∀ name, Simulates related (body name) (body' name)) (depth : Nat)
    (name : ν) : Option.Rel related (run body depth name) (run body' depth name) := by
  induction depth generalizing name with
  | zero => exact .none
  | succ depth ih => exact (simulates name).exec ih

end Simulates

end Program

/-! ## Cycles -/

section Cycles

variable {α : Type*} {next : α → α → Prop}

theorem not_cycle_of_acc {node : α} (acc : Acc (fun node before => next before node) node) :
    ¬ Relation.TransGen next node node := by
  induction acc with
  | intro node _ ih =>
      intro cycle
      obtain ⟨other, first, back⟩ := Relation.TransGen.head'_iff.mp cycle
      exact ih other first (Relation.TransGen.tail'_iff.mpr ⟨node, back, first⟩)

/-- Among finitely many nodes a chain is endless only if it comes back to a node of it. -/
theorem acc_iff_acyclic [Finite α] (start : α) :
    Acc (fun node before => next before node) start ↔
      ∀ node, Relation.ReflTransGen next start node → ¬ Relation.TransGen next node node := by
  constructor
  · intro acc node reached
    have accNode : Acc (fun node before => next before node) node := by
      induction reached with
      | refl => exact acc
      | tail _ last ih => exact ih.inv last
    exact not_cycle_of_acc accNode
  · intro acyclic
    let Reached := {node : α // Relation.ReflTransGen next start node}
    let later : Reached → Reached → Prop := fun node before => Relation.TransGen next before.1 node.1
    have finite : Finite Reached := Subtype.finite
    have trans : IsTrans Reached later := ⟨fun _ _ _ first second => second.trans first⟩
    have irrefl : Std.Irrefl later := ⟨fun node => acyclic node.1 node.2⟩
    have wellFounded : WellFounded later := Finite.wellFounded_of_trans_of_irrefl later
    have all (node : Reached) : Acc (fun node before => next before node) node.1 := by
      induction node using wellFounded.induction with
      | _ node ih =>
          refine Acc.intro node.1 fun other step => ?_
          exact ih ⟨other, node.2.tail step⟩ (Relation.TransGen.single step)
    exact all ⟨start, .refl⟩

end Cycles

end Qaoed.Library
