import Qaoed.Library.Recursion
import Qaoed.Rcfg.Validate

/-!
# Included files

A file that is accepted names patterns, and `tokenize` calls itself for each file that
matches one. Nothing keeps it from files it is in the middle of. Here are the files that a
file includes, and when the calls come to an end.
-/

namespace Qaoed.Rcfg

open Qaoed.Device
open Qaoed.Library
open Qaoed.Config

/-- What a call of `tokenize` comes to without tokens: NULL, the end of the program, or
its crash. -/
inductive Failure where
  | null
  | exit
  | crash
  deriving DecidableEq, Repr

abbrev Tokenized := Except Failure (List CString)

/-- The tokens of a text alone, if the checks accept them. -/
def accepted (source : List UInt8) : Tokenized :=
  match scanTokens source with
  | none => .error .null
  | some tokens =>
      if tokens = [] then .error .null
      else
        match validatetokens tokens with
        | .error .exit => .error .exit
        | .error .crash => .error .crash
        | .ok result => if result ≠ 0 then .error .null else .ok tokens

section Tokenize

variable {File : Type*}

/-- The loop over the files that match, which appends the tokens of each. -/
def appendAll : List File → List CString → (List CString → Program File Tokenized) →
    Program File Tokenized
  | [], tokens, next => next tokens
  | file :: files, tokens, next =>
      .call file fun newtokens =>
        match newtokens with
        | .error failure => .done (.error failure)
        | .ok newtokens => appendAll files (tokens ++ newtokens) next

variable (source : File → List UInt8) (glob : CString → List File)

/-- The loop over the tokens of the file, in an array that grows. A pattern without a match
is an error, and behind the last token there is no pattern. -/
def includeAll : List Nat → List CString → Program File Tokenized
  | [], tokens => .done (.ok tokens)
  | i :: indices, tokens =>
      if tokens[i]? = some (text "include") then
        match tokens[i + 2]? with
        | none => .done (.error .crash)
        | some pattern =>
            if glob pattern = [] then .done (.error .null)
            else appendAll (glob pattern) tokens (includeAll indices)
      else includeAll indices tokens

def tokenizeBody (file : File) : Program File Tokenized :=
  match accepted (source file) with
  | .error failure => .done (.error failure)
  | .ok tokens => includeAll glob (List.range tokens.length) tokens

/-- `tokenize` with calls up to a depth. -/
def tokenize (depth : Nat) (file : File) : Option Tokenized :=
  Program.run (tokenizeBody source glob) depth file

/-! ## What a file includes -/

/-- The tokens of a file alone. -/
def own (file : File) : List CString :=
  match accepted (source file) with
  | .error _ => []
  | .ok tokens => tokens

/-- The files that are asked for at positions of a file, with those asked for before them,
and whether each pattern has a match. A pattern behind the tokens of the file is one of
the first tokens of the files before. -/
def includes (tokens : List CString) : List Nat → List File → List File × Bool
  | [], _ => ([], true)
  | i :: indices, before =>
      if tokens[i]? = some (text "include") then
        match (tokens ++ before.flatMap (own source))[i + 2]? with
        | none => ([], false)
        | some pattern =>
            if glob pattern = [] then ([], false)
            else
              let later := includes tokens indices (before ++ glob pattern)
              (glob pattern ++ later.1, later.2)
      else includes tokens indices before

def included (file : File) : List File × Bool :=
  includes source glob (own source file) (List.range (own source file).length) []

/-- A file is accepted, each pattern in it has a match, and so on for all files it includes. -/
inductive Sound : File → Prop
  | intro {file : File} {tokens : List CString} :
      accepted (source file) = .ok tokens → (included source glob file).2 = true →
      (∀ other ∈ (included source glob file).1, Sound other) → Sound file

/-- An item of a list, with all in front of it of a kind. -/
inductive InTurn {α : Type*} (kind : α → Prop) : List α → α → Prop
  | here (item : α) (items : List α) : InTurn kind (item :: items) item
  | later {item other : α} {items : List α} :
      kind item → InTurn kind items other → InTurn kind (item :: items) other

/-- A file includes another one, and the files it includes before that are sound. -/
def Includes (file other : File) : Prop :=
  InTurn (Sound source glob) (included source glob file).1 other

end Tokenize

/-! ## Items in turn -/

section InTurn

variable {α : Type*} {kind : α → Prop} {first second : List α} {item other : α}

theorem inTurn_cons : InTurn kind (item :: first) other ↔
    other = item ∨ kind item ∧ InTurn kind first other := by
  constructor
  · intro turn
    cases turn with
    | here => exact Or.inl rfl
    | later before turn => exact Or.inr ⟨before, turn⟩
  · rintro (rfl | ⟨before, turn⟩)
    · exact .here _ _
    · exact .later before turn

theorem not_inTurn_nil : ¬ InTurn kind [] other := nofun

theorem inTurn_append : InTurn kind (first ++ second) other ↔
    InTurn kind first other ∨ (∀ item ∈ first, kind item) ∧ InTurn kind second other := by
  induction first with
  | nil => simp [not_inTurn_nil]
  | cons item first ih =>
      rw [List.cons_append, inTurn_cons, inTurn_cons, ih, List.forall_mem_cons]
      tauto

theorem inTurn_of_mem (all : ∀ item ∈ first, kind item) (member : other ∈ first) :
    InTurn kind first other := by
  induction first with
  | nil => cases member
  | cons item first ih =>
      rw [List.forall_mem_cons] at all
      rcases List.mem_cons.mp member with rfl | member
      · exact .here _ _
      · exact .later all.1 (ih all.2 member)

theorem inTurn_congr {kind' : α → Prop} (same : ∀ item, kind item ↔ kind' item) :
    InTurn kind first other ↔ InTurn kind' first other := by
  rw [show kind = kind' from funext fun item => propext (same item)]

end InTurn

/-! ## The loops over files and tokens -/

section Loops

variable {File : Type*} {source : File → List UInt8} {glob : CString → List File}

/-- The call for a file returns a list of tokens. -/
def Loads (source : File → List UInt8) (glob : CString → List File) (file : File)
    (tokens : List CString) : Prop :=
  Program.Runs (tokenizeBody source glob) (tokenizeBody source glob file) (.ok tokens)

/-- Tokens that are appended for no file, and for a file in front of others. -/
theorem exists_parts_nil {tokens : List CString} {motive : List CString → Prop} :
    (∃ parts, List.Forall₂ (Loads source glob) [] parts ∧ motive (tokens ++ parts.flatten)) ↔
      motive tokens := by
  constructor
  · rintro ⟨parts, loads, holds⟩
    cases loads
    rwa [List.flatten_nil, List.append_nil] at holds
  · intro holds
    refine ⟨[], .nil, ?_⟩
    rwa [List.flatten_nil, List.append_nil]

theorem exists_parts_cons {file : File} {files : List File} {tokens : List CString}
    {motive : List CString → Prop} :
    (∃ parts, List.Forall₂ (Loads source glob) (file :: files) parts ∧
        motive (tokens ++ parts.flatten)) ↔
      ∃ part, Loads source glob file part ∧ ∃ parts,
        List.Forall₂ (Loads source glob) files parts ∧ motive (tokens ++ part ++ parts.flatten) := by
  constructor
  · rintro ⟨parts, loads, holds⟩
    cases loads with
    | @cons _ part _ parts load loads =>
        rw [List.flatten_cons, ← List.append_assoc] at holds
        exact ⟨part, load, parts, loads, holds⟩
  · rintro ⟨part, load, parts, loads, holds⟩
    refine ⟨part :: parts, .cons load loads, ?_⟩
    rw [List.flatten_cons, ← List.append_assoc]
    exact holds

theorem appendAll_runs_iff {files : List File} {tokens final : List CString}
    {next : List CString → Program File Tokenized} :
    Program.Runs (tokenizeBody source glob) (appendAll files tokens next) (.ok final) ↔
      ∃ parts, List.Forall₂ (Loads source glob) files parts ∧
        Program.Runs (tokenizeBody source glob) (next (tokens ++ parts.flatten)) (.ok final) := by
  let motive (tokens : List CString) : Prop :=
    Program.Runs (tokenizeBody source glob) (next tokens) (.ok final)
  induction files generalizing tokens with
  | nil => exact (exists_parts_nil (motive := motive)).symm
  | cons file files ih =>
      refine Iff.trans ?_ (exists_parts_cons (motive := motive)).symm
      constructor
      · intro runs
        cases runs with
        | @call _ _ result _ called later =>
            cases result with
            | error failure => cases later
            | ok part => exact ⟨part, called, ih.mp later⟩
      · rintro ⟨part, called, rest⟩
        exact .call called (ih.mpr rest)

theorem appendAll_reaches_iff {files : List File} {tokens : List CString}
    {next : List CString → Program File Tokenized} {other : File} :
    Program.Reaches (tokenizeBody source glob) (appendAll files tokens next) other ↔
      InTurn (fun file => ∃ part, Loads source glob file part) files other ∨
      ∃ parts, List.Forall₂ (Loads source glob) files parts ∧
        Program.Reaches (tokenizeBody source glob) (next (tokens ++ parts.flatten)) other := by
  let motive (tokens : List CString) : Prop :=
    Program.Reaches (tokenizeBody source glob) (next tokens) other
  induction files generalizing tokens with
  | nil =>
      refine Iff.trans ?_ (or_congr_right (exists_parts_nil (motive := motive)).symm)
      exact (or_iff_right not_inTurn_nil).symm
  | cons file files ih =>
      refine Iff.trans ?_ (or_congr_right (exists_parts_cons (motive := motive)).symm)
      rw [inTurn_cons]
      constructor
      · intro reaches
        cases reaches with
        | here => exact Or.inl (Or.inl rfl)
        | @later _ _ _ result called reaches =>
            cases result with
            | error failure => cases reaches
            | ok part =>
                rcases ih.mp reaches with turn | rest
                · exact Or.inl (Or.inr ⟨⟨part, called⟩, turn⟩)
                · exact Or.inr ⟨part, called, rest⟩
      · rintro ((rfl | ⟨⟨part, called⟩, turn⟩) | ⟨part, called, rest⟩)
        · exact .here _ _
        · exact .later called (ih.mpr (Or.inl turn))
        · exact .later called (ih.mpr (Or.inr rest))

/-! ## The array of tokens -/

/-- Tokens are only appended. -/
theorem includeAll_extends {indices : List Nat} {tokens final : List CString}
    (runs : Program.Runs (tokenizeBody source glob) (includeAll glob indices tokens) (.ok final)) :
    ∃ extra, final = tokens ++ extra := by
  induction indices generalizing tokens with
  | nil =>
      cases runs
      exact ⟨[], (List.append_nil _).symm⟩
  | cons i indices ih =>
      rw [includeAll] at runs
      split_ifs at runs
      · split at runs
        · cases runs
        · split_ifs at runs
          · cases runs
          · obtain ⟨parts, _, runs⟩ := appendAll_runs_iff.mp runs
            obtain ⟨extra, rfl⟩ := ih runs
            exact ⟨parts.flatten ++ extra, List.append_assoc _ _ _⟩
      · exact ih runs

theorem accepted_ok {text : List UInt8} {tokens : List CString} (valid : accepted text = .ok tokens) :
    tokens ≠ [] ∧ validatetokens tokens = .ok 0 := by
  unfold accepted at valid
  split at valid
  · cases valid
  · split_ifs at valid with none
    split at valid
    · cases valid
    · cases valid
    · next returned =>
        split_ifs at valid with refused
        cases valid
        rw [returned, not_not.mp refused]
        exact ⟨none, rfl⟩

/-- The tokens of a file come first. A file of one token includes none. -/
theorem Loads.tokens {file : File} {tokens : List CString} (loads : Loads source glob file tokens) :
    ∃ extra, accepted (source file) = .ok (own source file) ∧ own source file ≠ [] ∧
      tokens = own source file ++ extra ∧ ((own source file).length ≤ 1 → extra = []) := by
  unfold Loads tokenizeBody at loads
  unfold own
  cases valid : accepted (source file) with
  | error failure =>
      rw [valid] at loads
      cases loads
  | ok alone =>
      rw [valid] at loads
      dsimp only at loads ⊢
      obtain ⟨notEmpty, checked⟩ := accepted_ok valid
      obtain ⟨extra, rfl⟩ := includeAll_extends loads
      refine ⟨extra, rfl, notEmpty, rfl, ?_⟩
      intro short
      match alone with
      | [] => exact absurd rfl notEmpty
      | [token] =>
          have other : token ≠ text "include" := by
            rintro rfl
            exact absurd checked (by decide)
          have skips : [token][0]? ≠ some (text "include") := fun same => other (Option.some.inj same)
          rw [List.length_singleton, List.range_one, includeAll, if_neg skips] at loads
          cases loads
          rfl
      | _ :: _ :: _ =>
          simp only [List.length_cons] at short
          omega

/-- The first two tokens that are appended are tokens of the files alone. -/
theorem flatten_getElem? {before : List File} {parts : List (List CString)}
    (loads : List.Forall₂ (Loads source glob) before parts) {index : Nat} (first : index < 2) :
    parts.flatten[index]? = (before.flatMap (own source))[index]? := by
  induction loads generalizing index with
  | nil => rfl
  | @cons file part before parts load _ ih =>
      obtain ⟨extra, _, notEmpty, rfl, short⟩ := load.tokens
      have positive := List.length_pos_iff.mpr notEmpty
      rw [List.flatten_cons, List.flatMap_cons]
      by_cases here : index < (own source file).length
      · rw [List.append_assoc, List.getElem?_append_left here, List.getElem?_append_left here]
      · rw [short (by omega), List.append_nil, List.getElem?_append_right (by omega),
          List.getElem?_append_right (by omega)]
        exact ih (by omega)

theorem pattern_eq {tokens : List CString} {before : List File} {parts : List (List CString)}
    (loads : List.Forall₂ (Loads source glob) before parts) {i : Nat} (inside : i < tokens.length) :
    (tokens ++ parts.flatten)[i + 2]? = (tokens ++ before.flatMap (own source))[i + 2]? := by
  by_cases here : i + 2 < tokens.length
  · rw [List.getElem?_append_left here, List.getElem?_append_left here]
  · rw [List.getElem?_append_right (by omega), List.getElem?_append_right (by omega)]
    exact flatten_getElem? loads (by omega)

/-- At a position of the file the loop goes on, returns an error, or appends the files that
match a pattern before it goes on. -/
theorem includeAll_cases {i : Nat} {tokens : List CString} {before : List File}
    {parts : List (List CString)} (loads : List.Forall₂ (Loads source glob) before parts)
    (inside : i < tokens.length) (indices : List Nat) :
    (includeAll glob (i :: indices) (tokens ++ parts.flatten) =
        includeAll glob indices (tokens ++ parts.flatten) ∧
      includes source glob tokens (i :: indices) before = includes source glob tokens indices before) ∨
    (∃ failure, includeAll glob (i :: indices) (tokens ++ parts.flatten) = .done (.error failure) ∧
      includes source glob tokens (i :: indices) before = ([], false)) ∨
    ∃ files, includeAll glob (i :: indices) (tokens ++ parts.flatten) =
        appendAll files (tokens ++ parts.flatten) (includeAll glob indices) ∧
      includes source glob tokens (i :: indices) before =
        (files ++ (includes source glob tokens indices (before ++ files)).1,
          (includes source glob tokens indices (before ++ files)).2) := by
  rw [includeAll, pattern_eq loads inside, List.getElem?_append_left inside, includes]
  by_cases keyword : tokens[i]? = some (text "include")
  · rw [if_pos keyword, if_pos keyword]
    cases (tokens ++ before.flatMap (own source))[i + 2]? with
    | none => exact Or.inr (Or.inl ⟨_, rfl, rfl⟩)
    | some pattern =>
        dsimp only
        by_cases none : glob pattern = []
        · rw [if_pos none, if_pos none]
          exact Or.inr (Or.inl ⟨_, rfl, rfl⟩)
        · rw [if_neg none, if_neg none]
          exact Or.inr (Or.inr ⟨_, rfl, rfl⟩)
  · rw [if_neg keyword, if_neg keyword]
    exact Or.inl ⟨rfl, rfl⟩

theorem forall₂_loads {files : List File}
    (all : ∀ file ∈ files, ∃ part, Loads source glob file part) :
    ∃ parts, List.Forall₂ (Loads source glob) files parts := by
  induction files with
  | nil => exact ⟨[], .nil⟩
  | cons file files ih =>
      rw [List.forall_mem_cons] at all
      obtain ⟨part, load⟩ := all.1
      obtain ⟨parts, loads⟩ := ih all.2
      exact ⟨part :: parts, .cons load loads⟩

theorem loads_of_forall₂ {files : List File} {parts : List (List CString)}
    (loads : List.Forall₂ (Loads source glob) files parts) :
    ∀ file ∈ files, ∃ part, Loads source glob file part := by
  induction loads with
  | nil => exact List.forall_mem_nil _
  | cons load _ ih => exact List.forall_mem_cons.mpr ⟨⟨_, load⟩, ih⟩

/-- The loop comes to its end exactly if the files that are asked for can be loaded, and then
their tokens are appended in turn. -/
theorem includeAll_runs_iff {tokens final : List CString} {indices : List Nat}
    (inside : ∀ i ∈ indices, i < tokens.length) {before : List File} {parts : List (List CString)}
    (loads : List.Forall₂ (Loads source glob) before parts) :
    Program.Runs (tokenizeBody source glob)
        (includeAll glob indices (tokens ++ parts.flatten)) (.ok final) ↔
      (includes source glob tokens indices before).2 = true ∧
        ∃ more, List.Forall₂ (Loads source glob) (includes source glob tokens indices before).1 more ∧
          final = tokens ++ parts.flatten ++ more.flatten := by
  induction indices generalizing before parts with
  | nil =>
      constructor
      · intro runs
        cases runs
        exact ⟨rfl, [], .nil, (List.append_nil _).symm⟩
      · rintro ⟨_, more, none, rfl⟩
        cases none
        rw [List.flatten_nil, List.append_nil]
        exact .done _
  | cons i indices ih =>
      rw [List.forall_mem_cons] at inside
      rcases includeAll_cases loads inside.1 indices with
        ⟨loop, files⟩ | ⟨failure, loop, files⟩ | ⟨matching, loop, files⟩
      · rw [loop, files]
        exact ih inside.2 loads
      · rw [loop, files]
        exact iff_of_false (fun runs => nomatch runs) fun both => nomatch both.1
      · rw [loop, files]
        have later {here : List (List CString)}
            (loadsHere : List.Forall₂ (Loads source glob) matching here) :=
          ih inside.2 (List.rel_append loads loadsHere)
        simp only [List.flatten_append, ← List.append_assoc] at later
        constructor
        · intro runs
          obtain ⟨here, loadsHere, runs⟩ := appendAll_runs_iff.mp runs
          obtain ⟨complete, more, loadsMore, rfl⟩ := (later loadsHere).mp runs
          refine ⟨complete, here ++ more, List.rel_append loadsHere loadsMore, ?_⟩
          rw [List.flatten_append]
          exact List.append_assoc _ _ _
        · rintro ⟨complete, both, loadsBoth, rfl⟩
          have loadsHere := List.forall₂_take matching.length loadsBoth
          have loadsMore := List.forall₂_drop matching.length loadsBoth
          rw [List.take_left] at loadsHere
          rw [List.drop_left] at loadsMore
          have whole : both.flatten =
              (both.take matching.length).flatten ++ (both.drop matching.length).flatten := by
            rw [← List.flatten_append, List.take_append_drop]
          refine appendAll_runs_iff.mpr ⟨_, loadsHere, (later loadsHere).mpr
            ⟨complete, _, loadsMore, ?_⟩⟩
          rw [whole]
          exact (List.append_assoc _ _ _).symm

theorem includeAll_returns_iff {tokens : List CString} {indices : List Nat}
    (inside : ∀ i ∈ indices, i < tokens.length) {before : List File} {parts : List (List CString)}
    (loads : List.Forall₂ (Loads source glob) before parts) :
    (∃ final, Program.Runs (tokenizeBody source glob)
        (includeAll glob indices (tokens ++ parts.flatten)) (.ok final)) ↔
      (includes source glob tokens indices before).2 = true ∧
        ∀ file ∈ (includes source glob tokens indices before).1,
          ∃ part, Loads source glob file part := by
  constructor
  · rintro ⟨final, runs⟩
    obtain ⟨complete, more, loadsMore, _⟩ := (includeAll_runs_iff inside loads).mp runs
    exact ⟨complete, loads_of_forall₂ loadsMore⟩
  · rintro ⟨complete, all⟩
    obtain ⟨more, loadsMore⟩ := forall₂_loads all
    exact ⟨_, (includeAll_runs_iff inside loads).mpr ⟨complete, more, loadsMore, rfl⟩⟩

theorem includeAll_reaches_iff {tokens : List CString} {indices : List Nat}
    (inside : ∀ i ∈ indices, i < tokens.length) {before : List File} {parts : List (List CString)}
    (loads : List.Forall₂ (Loads source glob) before parts) {other : File} :
    Program.Reaches (tokenizeBody source glob)
        (includeAll glob indices (tokens ++ parts.flatten)) other ↔
      InTurn (fun file => ∃ part, Loads source glob file part)
        (includes source glob tokens indices before).1 other := by
  induction indices generalizing before parts with
  | nil => exact iff_of_false (fun reaches => nomatch reaches) not_inTurn_nil
  | cons i indices ih =>
      rw [List.forall_mem_cons] at inside
      rcases includeAll_cases loads inside.1 indices with
        ⟨loop, files⟩ | ⟨failure, loop, files⟩ | ⟨matching, loop, files⟩
      · rw [loop, files]
        exact ih inside.2 loads
      · rw [loop, files]
        exact iff_of_false (fun reaches => nomatch reaches) not_inTurn_nil
      · rw [loop, files, inTurn_append, appendAll_reaches_iff]
        apply or_congr_right
        have later {more : List (List CString)}
            (loadsMore : List.Forall₂ (Loads source glob) matching more) :=
          @ih inside.2 _ _ (List.rel_append loads loadsMore)
        simp only [List.flatten_append, ← List.append_assoc] at later
        constructor
        · rintro ⟨more, loadsMore, reaches⟩
          exact ⟨loads_of_forall₂ loadsMore, (later loadsMore).mp reaches⟩
        · rintro ⟨all, turn⟩
          obtain ⟨more, loadsMore⟩ := forall₂_loads all
          exact ⟨more, loadsMore, (later loadsMore).mpr turn⟩

/-! ## Files -/

variable {file : File}

theorem own_of_accepted {tokens : List CString} (valid : accepted (source file) = .ok tokens) :
    own source file = tokens := by
  rw [own, valid]

theorem tokenizeBody_returns_iff {tokens : List CString}
    (valid : accepted (source file) = .ok tokens) :
    (∃ final, Loads source glob file final) ↔ (included source glob file).2 = true ∧
      ∀ other ∈ (included source glob file).1, ∃ part, Loads source glob other part := by
  have inside : ∀ i ∈ List.range tokens.length, i < tokens.length := fun i => List.mem_range.mp
  have returns := includeAll_returns_iff inside (@List.Forall₂.nil _ _ (Loads source glob))
  rw [List.flatten_nil, List.append_nil] at returns
  unfold included
  rw [own_of_accepted valid, ← returns]
  unfold Loads tokenizeBody
  rw [valid]

/-- A call returns the tokens of the file with those of the files it includes behind them. -/
theorem loads_iff {tokens final : List CString} (valid : accepted (source file) = .ok tokens) :
    Loads source glob file final ↔ (included source glob file).2 = true ∧
      ∃ parts, List.Forall₂ (Loads source glob) (included source glob file).1 parts ∧
        final = tokens ++ parts.flatten := by
  have inside : ∀ i ∈ List.range tokens.length, i < tokens.length := fun i => List.mem_range.mp
  have runs := @includeAll_runs_iff _ source glob _ final _ inside _ _ .nil
  rw [List.flatten_nil, List.append_nil] at runs
  unfold included
  rw [own_of_accepted valid, ← runs]
  unfold Loads tokenizeBody
  rw [valid]

theorem calls_iff {tokens : List CString} (valid : accepted (source file) = .ok tokens)
    {other : File} : Program.Calls (tokenizeBody source glob) file other ↔
      InTurn (fun file => ∃ part, Loads source glob file part) (included source glob file).1 other := by
  have inside : ∀ i ∈ List.range tokens.length, i < tokens.length := fun i => List.mem_range.mp
  have reaches := @includeAll_reaches_iff _ source glob _ _ inside _ _ .nil other
  rw [List.flatten_nil, List.append_nil] at reaches
  unfold included
  rw [own_of_accepted valid, ← reaches, Program.Calls]
  unfold tokenizeBody
  rw [valid]

/-- A call returns tokens exactly for a sound file. -/
theorem loads_iff_sound : (∃ tokens, Loads source glob file tokens) ↔ Sound source glob file := by
  constructor
  · rintro ⟨tokens, loads⟩
    have acc := Program.terminates_iff_acc.mp (Program.terminates_iff_runs.mpr ⟨_, loads⟩)
    -- by induction on the chains of calls, as files may include each other
    induction acc generalizing tokens with
    | intro file _ ih =>
        obtain ⟨_, valid, _⟩ := loads.tokens
        obtain ⟨complete, all⟩ := (tokenizeBody_returns_iff valid).mp ⟨tokens, loads⟩
        refine .intro valid complete fun other member => ?_
        obtain ⟨part, load⟩ := all other member
        exact ih other ((calls_iff valid).mpr (inTurn_of_mem all member)) part load
  · intro sound
    induction sound with
    | intro valid complete _ ih => exact (tokenizeBody_returns_iff valid).mpr ⟨complete, ih⟩

theorem calls_iff_includes {other : File} :
    Program.Calls (tokenizeBody source glob) file other ↔ Includes source glob file other := by
  cases valid : accepted (source file) with
  | ok tokens => exact (calls_iff valid).trans (inTurn_congr fun _ => loads_iff_sound)
  | error failure =>
      refine iff_of_false ?_ ?_
      · intro calls
        unfold Program.Calls tokenizeBody at calls
        rw [valid] at calls
        cases calls
      · intro turn
        unfold Includes included own at turn
        rw [valid] at turn
        cases turn

theorem terminates_iff_acyclic [Finite File] (start : File) :
    Program.Terminates (tokenizeBody source glob) start ↔
      ∀ file, Relation.ReflTransGen (Includes source glob) start file →
        ¬ Relation.TransGen (Includes source glob) file file := by
  have same : Program.Calls (tokenizeBody source glob) = Includes source glob := by
    funext file other
    exact propext calls_iff_includes
  rw [Program.terminates_iff_acc, acc_iff_acyclic, same]

end Loops

/-- Whatever the files are and whatever files match a pattern: the calls of `tokenize` for
a file come to their end if and only if no file that is included from it, at any depth,
includes itself at some depth. -/
theorem tokenize_terminates_iff (File : Type) [Finite File] (source : File → List UInt8)
    (glob : CString → List File) (start : File) :
    (∃ depth result, tokenize source glob depth start = some result) ↔
      ∀ file, Relation.ReflTransGen (Includes source glob) start file →
        ¬ Relation.TransGen (Includes source glob) file file :=
  terminates_iff_acyclic start

/-- A statement that includes what matches a pattern. -/
def includeStatement (pattern : String) : List UInt8 :=
  text "include" ++ equals :: (text pattern ++ [semicolon])

/-- A configuration that includes a second file, which has an assignment in it. -/
def twoFiles : Bool → List UInt8
  | true => includeStatement "mtu.conf"
  | false => text "mtu=1500;"

def globTwo (pattern : CString) : List Bool := if pattern = text "mtu.conf" then [false] else []

theorem tokenize_terminates_iff_twoFiles :
    ∃ depth result, tokenize twoFiles globTwo depth true = some result := by
  refine (tokenize_terminates_iff Bool twoFiles globTwo true).mpr ?_
  have first : (included twoFiles globTwo true).1 = [false] := by decide
  have second : (included twoFiles globTwo false).1 = [] := by decide
  have step {file other : Bool} (turn : Includes twoFiles globTwo file other) :
      file = true ∧ other = false := by
    cases file with
    | true =>
        rw [Includes, first, inTurn_cons] at turn
        exact ⟨rfl, turn.resolve_right fun later => not_inTurn_nil later.2⟩
    | false =>
        rw [Includes, second] at turn
        exact absurd turn not_inTurn_nil
  intro file _ cycle
  obtain ⟨other, begins, _⟩ := Relation.TransGen.head'_iff.mp cycle
  obtain ⟨before, _, ends⟩ := Relation.TransGen.tail'_iff.mp cycle
  have same := (step begins).1.symm.trans (step ends).2
  cases same

/-- The one file there is includes itself. -/
def globSelf (pattern : CString) : List Unit := if pattern = text "qaoed.conf" then [()] else []

/-- No depth of calls is enough for a file that includes itself. -/
theorem ownInclude_endless :
    ¬ ∃ depth result, tokenize (fun _ => includeStatement "qaoed.conf") globSelf depth () = some result := by
  have again : Includes (fun _ => includeStatement "qaoed.conf") globSelf () () := by
    have files : (included (fun _ => includeStatement "qaoed.conf") globSelf ()).1 = [()] := by decide
    rw [Includes, files]
    exact .here () []
  intro terminates
  exact (terminates_iff_acyclic ()).mp terminates () .refl (.single again)

end Qaoed.Rcfg
