import Qaoed.Rcfg.Include

/-!
# Expanded files

The tokens of a file, then those of the files that its `include` statements name, each with
the tokens of its own included files behind it. If no file comes back to itself this is
what `tokenize` returns.
-/

namespace Qaoed.Rcfg

open Qaoed.Device
open Qaoed.Library
open Qaoed.Config

/-! ## Include statements -/

/-- The right side of each assignment to `include`. -/
def includePatterns : List CString → List CString
  | [] => []
  | token :: behind =>
      if token = text "include" then (behind.drop 1).take 1 ++ includePatterns behind
      else includePatterns behind

/-- The keyword `include` is the left side of an assignment wherever it occurs. -/
def IncludesAssigned (tokens : List CString) : Prop :=
  ∀ i < tokens.length, tokens[i]? = some (text "include") →
    tokens[i + 1]? = some [equals] ∧ i + 2 < tokens.length

instance (tokens : List CString) : Decidable (IncludesAssigned tokens) :=
  inferInstanceAs (Decidable (∀ i < tokens.length, _))

section Specification

variable {File : Type*} (source : File → List UInt8) (glob : CString → List File)

/-- The files that the statements of a file name, in order. -/
def namedFiles (file : File) : List File := (includePatterns (own source file)).flatMap glob

/-- Each file has its own tokens, then for each include statement and each file that matches
it the tokens of that file. -/
def IsExpansion (expand : File → List CString) : Prop :=
  ∀ file, expand file = own source file ++
    (includePatterns (own source file)).flatMap fun pattern => (glob pattern).flatMap expand

structure WellFormedFiles : Prop where
  accepted : ∀ file, ∃ tokens, accepted (source file) = .ok tokens
  assigned : ∀ file, IncludesAssigned (own source file)
  matched : ∀ file, ∀ pattern ∈ includePatterns (own source file), glob pattern ≠ []
  acyclic : ∀ file, ¬ Relation.TransGen (fun file other => other ∈ namedFiles source glob file) file file

end Specification

/-! ## The loop over the statements -/

section Statements

variable {File : Type*} {source : File → List UInt8} {glob : CString → List File}

theorem includePatterns_include {operator pattern : CString} {behind : List CString} :
    includePatterns (text "include" :: operator :: pattern :: behind) =
      pattern :: includePatterns (operator :: pattern :: behind) := by
  rw [includePatterns, if_pos rfl]
  rfl

theorem includePatterns_other {token : CString} {behind : List CString}
    (other : token ≠ text "include") : includePatterns (token :: behind) = includePatterns behind := by
  rw [includePatterns, if_neg other]

/-- From a position of the file on, by induction on the tokens behind it. -/
theorem includes_eq {tokens before behind : List CString} (split : tokens = before ++ behind)
    (assigned : IncludesAssigned tokens) (matched : ∀ pattern ∈ includePatterns behind, glob pattern ≠ [])
    (files : List File) :
    includes source glob tokens (List.range' before.length behind.length) files =
      ((includePatterns behind).flatMap glob, true) := by
  induction behind generalizing before files with
  | nil => rfl
  | cons token behind ih =>
      have later (files : List File) (matched : ∀ pattern ∈ includePatterns behind, glob pattern ≠ []) :
          includes source glob tokens (List.range' (before.length + 1) behind.length) files =
            ((includePatterns behind).flatMap glob, true) := by
        have position : before.length + 1 = (before ++ [token]).length := by
          rw [List.length_append, List.length_singleton]
        rw [position]
        exact ih (split.trans (List.append_cons _ _ _)) matched files
      have entry (k : Nat) : tokens[before.length + k]? = (token :: behind)[k]? := by
        rw [split, List.getElem?_append_right (Nat.le_add_right _ _), Nat.add_sub_cancel_left]
      have here : tokens[before.length]? = some token := entry 0
      have inside : before.length < tokens.length := (List.getElem?_eq_some_iff.mp here).1
      rw [List.length_cons, List.range'_succ, includes, here]
      by_cases keyword : token = text "include"
      · subst keyword
        obtain ⟨_, value⟩ := assigned _ inside here
        rcases behind with _ | ⟨operator, _ | ⟨pattern, rest⟩⟩
        · rw [split, List.length_append, List.length_cons, List.length_nil] at value
          omega
        · rw [split, List.length_append, List.length_cons, List.length_cons, List.length_nil] at value
          omega
        · rw [includePatterns_include, List.forall_mem_cons] at matched
          rw [if_pos rfl, List.getElem?_append_left value, entry 2]
          dsimp only [List.getElem?_cons_succ, List.getElem?_cons_zero]
          rw [if_neg matched.1, later _ matched.2, includePatterns_include, List.flatMap_cons]
      · rw [includePatterns_other keyword] at matched ⊢
        rw [if_neg fun same => keyword (Option.some.inj same)]
        exact later files matched

theorem included_eq {file : File} (assigned : IncludesAssigned (own source file))
    (matched : ∀ pattern ∈ includePatterns (own source file), glob pattern ≠ []) :
    included source glob file = (namedFiles source glob file, true) := by
  rw [included, List.range_eq_range']
  exact @includes_eq _ source glob _ [] _ rfl assigned matched []

end Statements

/-! ## Files -/

section Expansion

variable {File : Type*} {source : File → List UInt8} {glob : CString → List File} {file : File}

theorem isExpansion_iff {expand : File → List CString} : IsExpansion source glob expand ↔
    ∀ file, expand file = own source file ++ (namedFiles source glob file).flatMap expand := by
  unfold IsExpansion namedFiles
  simp only [List.flatMap_assoc]

theorem WellFormedFiles.accepted_own (wellFormed : WellFormedFiles source glob) (file : File) :
    Rcfg.accepted (source file) = .ok (own source file) := by
  obtain ⟨tokens, valid⟩ := wellFormed.accepted file
  rw [own_of_accepted valid, valid]

theorem WellFormedFiles.loads_iff (wellFormed : WellFormedFiles source glob) {final : List CString} :
    Loads source glob file final ↔
      ∃ parts, List.Forall₂ (Loads source glob) (namedFiles source glob file) parts ∧
        final = own source file ++ parts.flatten := by
  rw [Rcfg.loads_iff (wellFormed.accepted_own file),
    included_eq (wellFormed.assigned file) (wellFormed.matched file)]
  exact and_iff_right rfl

theorem WellFormedFiles.acc [Finite File] (wellFormed : WellFormedFiles source glob) (file : File) :
    Acc (fun other file => other ∈ namedFiles source glob file) file :=
  (acc_iff_acyclic file).mpr fun node _ => wellFormed.acyclic node

theorem WellFormedFiles.loads [Finite File] (wellFormed : WellFormedFiles source glob) (file : File) :
    ∃ tokens, Loads source glob file tokens := by
  induction wellFormed.acc file with
  | intro file _ ih =>
      obtain ⟨parts, loads⟩ := forall₂_loads ih
      exact ⟨_, wellFormed.loads_iff.mpr ⟨parts, loads, rfl⟩⟩

/-- What the files of a list are loaded as is what each of them is loaded as. -/
theorem flatten_eq_flatMap {expand : File → List CString}
    (loads : ∀ file, Loads source glob file (expand file)) {files : List File}
    {parts : List (List CString)} (loadsParts : List.Forall₂ (Loads source glob) files parts) :
    parts.flatten = files.flatMap expand := by
  induction loadsParts with
  | nil => rfl
  | @cons file part files parts load _ ih =>
      rw [List.flatten_cons, List.flatMap_cons, ih, Except.ok.inj (Program.Runs.unique (loads file) load)]

theorem IsExpansion.unique [Finite File] (wellFormed : WellFormedFiles source glob)
    {expand other : File → List CString} (expansion : IsExpansion source glob expand)
    (expansion' : IsExpansion source glob other) : other = expand := by
  rw [isExpansion_iff] at expansion expansion'
  funext file
  induction wellFormed.acc file with
  | intro file _ ih => rw [expansion, expansion', List.flatMap_congr ih]

/-- A result at one depth is the result at all greater ones. -/
theorem tokenize_of_loads {tokens : List CString} (loads : Loads source glob file tokens) :
    ∃ depth, ∀ deeper, depth ≤ deeper → tokenize source glob deeper file = some (.ok tokens) := by
  obtain ⟨depth, returns⟩ := Program.runs_iff.mp loads
  exact ⟨depth, fun _ more => Program.run_mono more returns⟩

end Expansion

/-- Among finitely many files of which none includes itself at any depth, each accepted and
each pattern with a match: there is one expansion, and `tokenize` returns it for each file. -/
theorem tokenize_expansion (File : Type) [Finite File] (source : File → List UInt8)
    (glob : CString → List File) (wellFormed : WellFormedFiles source glob) :
    ∃ expand, IsExpansion source glob expand ∧
      (∀ other, IsExpansion source glob other → other = expand) ∧
      ∀ file, ∃ depth, ∀ deeper, depth ≤ deeper →
        tokenize source glob deeper file = some (.ok (expand file)) := by
  choose expand loads using wellFormed.loads
  have expansion : IsExpansion source glob expand := by
    refine isExpansion_iff.mpr fun file => ?_
    obtain ⟨parts, loadsParts, whole⟩ := wellFormed.loads_iff.mp (loads file)
    rw [whole, flatten_eq_flatMap loads loadsParts]
  exact ⟨expand, expansion, fun other => IsExpansion.unique wellFormed expansion,
    fun file => tokenize_of_loads (loads file)⟩

theorem tokenize_expansion_twoFiles :
    ∃ expand : Bool → List CString, IsExpansion twoFiles globTwo expand ∧
      (∀ other, IsExpansion twoFiles globTwo other → other = expand) ∧
      ∀ file, ∃ depth, ∀ deeper, depth ≤ deeper →
        tokenize twoFiles globTwo deeper file = some (.ok (expand file)) := by
  have namedTrue : namedFiles twoFiles globTwo true = [false] := by decide
  have namedFalse : namedFiles twoFiles globTwo false = [] := by decide
  have step {file other : Bool} (named : other ∈ namedFiles twoFiles globTwo file) :
      file = true ∧ other = false := by
    cases file with
    | true =>
        rw [namedTrue] at named
        exact ⟨rfl, List.mem_singleton.mp named⟩
    | false =>
        rw [namedFalse] at named
        cases named
  refine tokenize_expansion Bool twoFiles globTwo ⟨?_, by decide, by decide, ?_⟩
  · exact fun file => ⟨own twoFiles file, by cases file <;> decide⟩
  · intro file cycle
    obtain ⟨other, begins, _⟩ := Relation.TransGen.head'_iff.mp cycle
    obtain ⟨before, _, ends⟩ := Relation.TransGen.tail'_iff.mp cycle
    cases (step begins).1.symm.trans (step ends).2

end Qaoed.Rcfg
