import Mathlib.Data.List.DropRight

/-!
# Trees of named blocks

A configuration tree is a chain of assignments and blocks, and a block holds a
chain of its own. A walk hands every block of one name to a parser, in the order
of the text, and looks for further ones in the other blocks. The rules say what
a walk leaves behind when the parser appends one entry a block, or gives up the
list it was handed.
-/

namespace Qaoed.Library

/-! ## Computations that may stop -/

section Stop

universe u

variable {ε : Type*} {α β : Type u}

/-- A sequence returns exactly if both parts do. -/
theorem bind_eq_ok {first : Except ε α} {later : α → Except ε β} {result : β} :
    first >>= later = .ok result ↔ ∃ middle, first = .ok middle ∧ later middle = .ok result := by
  cases first with
  | error stop =>
      constructor
      · intro returns
        cases returns
      · rintro ⟨middle, returns, _⟩
        cases returns
  | ok middle =>
      constructor
      · intro returns
        exact ⟨middle, rfl, returns⟩
      · rintro ⟨_, ⟨⟩, returns⟩
        exact returns

theorem map_eq_ok {first : Except ε α} {apply : α → β} {result : β} :
    first.map apply = .ok result ↔ ∃ middle, first = .ok middle ∧ apply middle = result := by
  cases first with
  | error stop => simp [Except.map]
  | ok middle => simp [Except.map]

theorem mapM_returns_iff (use : α → Except ε β) (list : List α) :
    (∃ result, list.mapM use = .ok result) ↔ ∀ item ∈ list, ∃ result, use item = .ok result := by
  induction list with
  | nil =>
      refine iff_of_true ⟨[], rfl⟩ ?_
      intro item member
      cases member
  | cons first rest ih =>
      rw [List.forall_mem_cons, ← ih, List.mapM_cons]
      constructor
      · rintro ⟨result, returns⟩
        obtain ⟨head, used, later⟩ := bind_eq_ok.mp returns
        obtain ⟨tail, usedRest, _⟩ := bind_eq_ok.mp later
        exact ⟨⟨head, used⟩, tail, usedRest⟩
      · rintro ⟨⟨head, used⟩, tail, usedRest⟩
        exact ⟨head :: tail, bind_eq_ok.mpr ⟨head, used, bind_eq_ok.mpr ⟨tail, usedRest, rfl⟩⟩⟩

/-- What is computed for each entry, where all of it returns. -/
theorem mapM_forall₂ {use : α → Except ε β} {list : List α} {result : List β}
    (returns : list.mapM use = .ok result) :
    List.Forall₂ (fun entry value => use entry = .ok value) list result := by
  induction list generalizing result with
  | nil =>
      cases returns
      exact List.Forall₂.nil
  | cons first rest ih =>
      rw [List.mapM_cons] at returns
      obtain ⟨value, used, returns⟩ := bind_eq_ok.mp returns
      obtain ⟨values, others, returned⟩ := bind_eq_ok.mp returns
      cases returned
      exact List.Forall₂.cons used (ih others)

end Stop

/-! ## The tree -/

/-- A chain of statements; `next` is the one that follows. -/
inductive BlockTree (κ ν : Type*) where
  | null
  | assignment (lvalue : κ) (rvalue : ν) (next : BlockTree κ ν)
  | block (lvalue : κ) (body next : BlockTree κ ν)
  deriving DecidableEq, Repr

namespace BlockTree

variable {κ ν σ ε : Type*}

/-- The assignments of a chain itself, without those of its blocks. -/
def assignments : BlockTree κ ν → List (κ × ν)
  | .null => []
  | .assignment lvalue rvalue next => (lvalue, rvalue) :: next.assignments
  | .block _ _ next => next.assignments

/-- The statements of a chain, and those of another one behind them. -/
def append : BlockTree κ ν → BlockTree κ ν → BlockTree κ ν
  | .null, tail => tail
  | .assignment lvalue rvalue next, tail => .assignment lvalue rvalue (next.append tail)
  | .block lvalue body next, tail => .block lvalue body (next.append tail)

/-- The statements of several chains, one after the other. -/
def concat (chains : List (BlockTree κ ν)) : BlockTree κ ν := chains.foldr append .null

variable [DecidableEq κ]

/-- The blocks of a name, in the order of the text. Nothing is looked for inside them. -/
def sections (keyword : κ) : BlockTree κ ν → List (BlockTree κ ν)
  | .null => []
  | .assignment _ _ next => next.sections keyword
  | .block lvalue body next =>
      (if lvalue = keyword then [body] else body.sections keyword) ++ next.sections keyword

/-- The blocks of a name in the chain itself. -/
def children (keyword : κ) : BlockTree κ ν → List (BlockTree κ ν)
  | .null => []
  | .assignment _ _ next => next.children keyword
  | .block lvalue body next =>
      if lvalue = keyword then body :: next.children keyword else next.children keyword

/-- The blocks of a name, at any depth. -/
def blocks (keyword : κ) : BlockTree κ ν → List (BlockTree κ ν)
  | .null => []
  | .assignment _ _ next => next.blocks keyword
  | .block lvalue body next =>
      (if lvalue = keyword then [body] else []) ++ body.blocks keyword ++ next.blocks keyword

/-- Parse the blocks of a name. `close` is what is done at the end of each chain. -/
def find (keyword : κ) (parse : σ → BlockTree κ ν → Except ε σ) (close : σ → σ) :
    BlockTree κ ν → σ → Except ε σ
  | .null, state => .ok (close state)
  | .assignment _ _ next, state => next.find keyword parse close state
  | .block lvalue body next, state =>
      (if lvalue = keyword then parse state body else body.find keyword parse close state) >>=
        next.find keyword parse close

section Walk

variable {keyword : κ} {parse : σ → BlockTree κ ν → Except ε σ} {close : σ → σ}

/-- What holds of the blocks parsed so far, and is kept by parsing one more and by
the end of a chain, holds of all blocks after the walk. -/
theorem find_induction (motive : List (BlockTree κ ν) → σ → Prop)
    (parses : ∀ {done body state state'}, motive done state →
      parse state body = .ok state' → motive (done ++ [body]) state')
    (closes : ∀ {done state}, motive done state → motive done (close state))
    {tree : BlockTree κ ν} {done : List (BlockTree κ ν)} {state state' : σ}
    (start : motive done state) (walks : tree.find keyword parse close state = .ok state') :
    motive (done ++ tree.sections keyword) state' := by
  induction tree generalizing done state state' with
  | null =>
      cases walks
      rw [sections, List.append_nil]
      exact closes start
  | assignment lvalue rvalue next ih => exact ih start walks
  | block lvalue body next ihBody ihNext =>
      rw [find] at walks
      rw [sections, ← List.append_assoc]
      obtain ⟨middle, walksBody, walksNext⟩ := bind_eq_ok.mp walks
      by_cases named : lvalue = keyword
      · rw [if_pos named] at walksBody ⊢
        exact ihNext (parses start walksBody) walksNext
      · rw [if_neg named] at walksBody ⊢
        exact ihNext (ihBody start walksBody) walksNext

/-- The same for a whole walk, which starts with no block parsed. -/
theorem find_sections (motive : List (BlockTree κ ν) → σ → Prop) {tree : BlockTree κ ν}
    {state state' : σ} (start : motive [] state)
    (parses : ∀ {done body state state'}, motive done state →
      parse state body = .ok state' → motive (done ++ [body]) state')
    (closes : ∀ {done state}, motive done state → motive done (close state))
    (walks : tree.find keyword parse close state = .ok state') :
    motive (tree.sections keyword) state' :=
  find_induction motive parses closes start walks

/-- A walk with a parser that always returns goes along the blocks of the name. -/
theorem find_eq_foldl {step : σ → BlockTree κ ν → σ}
    (returns : ∀ state body, parse state body = .ok (step state body)) (tree : BlockTree κ ν)
    (state : σ) :
    tree.find keyword parse id state = .ok ((tree.sections keyword).foldl step state) := by
  induction tree generalizing state with
  | null => rfl
  | assignment lvalue rvalue next ih => exact ih state
  | block lvalue body next ihBody ihNext =>
      rw [find, sections, List.foldl_append]
      split
      · exact bind_eq_ok.mpr ⟨_, returns state body, ihNext _⟩
      · exact bind_eq_ok.mpr ⟨_, ihBody state, ihNext _⟩

/-- A walk that does nothing at the end of a chain goes along the blocks of the name. -/
theorem find_eq_foldlM (tree : BlockTree κ ν) (state : σ) :
    tree.find keyword parse id state = (tree.sections keyword).foldlM parse state := by
  induction tree generalizing state with
  | null => rfl
  | assignment lvalue rvalue next ih => exact ih state
  | block lvalue body next ihBody ihNext =>
      have later : next.find keyword parse id = fun state => (next.sections keyword).foldlM parse state :=
        funext ihNext
      rw [find, sections, List.foldlM_append, later]
      split
      · simp only [List.foldlM_cons, List.foldlM_nil, bind_pure]
      · rw [ihBody]

/-- A walk that finds no block leaves a state that the ends of chains leave as it is. -/
theorem find_nothing {tree : BlockTree κ ν} {state : σ} (none : tree.sections keyword = [])
    (closed : close state = state) : tree.find keyword parse close state = .ok state := by
  induction tree with
  | null => exact congrArg Except.ok closed
  | assignment lvalue rvalue next ih => exact ih none
  | block lvalue body next ihBody ihNext =>
      rw [sections, List.append_eq_nil_iff] at none
      obtain ⟨inside, later⟩ := none
      by_cases named : lvalue = keyword
      · rw [if_pos named] at inside
        cases inside
      · rw [if_neg named] at inside
        rw [find, if_neg named]
        exact bind_eq_ok.mpr ⟨state, ihBody inside, ihNext later⟩

/-- A walk with another parser that keeps related states related comes to a related end. -/
theorem find_simulates {τ ε' : Type*} {parse' : τ → BlockTree κ ν → Except ε' τ} {close' : τ → τ}
    (related : σ → τ → Prop)
    (parses : ∀ {body state other state'}, related state other → parse state body = .ok state' →
      ∃ other', parse' other body = .ok other' ∧ related state' other')
    (closes : ∀ {state other}, related state other → related (close state) (close' other))
    {tree : BlockTree κ ν} {state state' : σ} {other : τ} (start : related state other)
    (walks : tree.find keyword parse close state = .ok state') :
    ∃ other', tree.find keyword parse' close' other = .ok other' ∧ related state' other' := by
  induction tree generalizing state state' other with
  | null =>
      cases walks
      exact ⟨_, rfl, closes start⟩
  | assignment lvalue rvalue next ih => exact ih start walks
  | block lvalue body next ihBody ihNext =>
      rw [find] at walks
      obtain ⟨middle, walksBody, walksNext⟩ := bind_eq_ok.mp walks
      have first : ∃ middle', (if lvalue = keyword then parse' other body
          else body.find keyword parse' close' other) = .ok middle' ∧ related middle middle' := by
        split_ifs at walksBody ⊢
        · exact parses start walksBody
        · exact ihBody start walksBody
      obtain ⟨middle', walksBody', kept⟩ := first
      obtain ⟨other', walksNext', ends⟩ := ihNext kept walksNext
      exact ⟨other', bind_eq_ok.mpr ⟨middle', walksBody', walksNext'⟩, ends⟩

end Walk

end BlockTree

end Qaoed.Library
