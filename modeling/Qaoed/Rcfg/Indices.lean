import Qaoed.Rcfg.Grammar

/-!
# Indices of the checks

The checks look ahead: at the brace behind the name of a block, at the value two tokens
behind a name. Not every look is guarded, so here is which indices into the array of tokens
each of them uses, and which sequences of tokens lead one of them past the end of the array.
An index that a message uses again is not listed again.
-/

namespace Qaoed.Rcfg

open Qaoed.Device
open Qaoed.Library
open Qaoed.Config

/-! ## The indices -/

def countbracesIndices (tokens : List CString) : List Nat := List.range tokens.length

/-- From the token at `i` on, with the one in front of it. -/
def checktokenlistIndices : Nat → Option CString → List CString → List Nat
  | _, _, [] => []
  | i, before, token :: tokens =>
      i :: (if keywords.contains token = false ∧ before.isSome = true then [i - 1] else []) ++
        if keywords.contains token = false ∧
            before.any (fun before => firstByte before == equals) = false then []
        else checktokenlistIndices (i + 1) (some token) tokens

/-- The token at `i` against one row, with the tokens behind it. -/
def checkRowIndices (i : Nat) (token : CString) (tokens : List CString)
    (row : CString × Datatype) : List Nat :=
  i ::
    if token ≠ row.1 then []
    else if row.2 = .block then [i + 1]
    else
      match tokens with
      | [] => []
      | [_] => [i + 1]
      | sign :: value :: tokens =>
          (i + 1) ::
            if firstByte sign ≠ equals then []
            else
              (i + 2) ::
                match sscanf value row.2 with
                | .error _ => []
                | .ok matched => if matched = 0 ∨ tokens = [] then [] else [i + 3]

def checkRowsIndices (i : Nat) (token : CString) (tokens : List CString) :
    List (CString × Datatype) → List Nat
  | [] => []
  | row :: rows =>
      checkRowIndices i token tokens row ++
        match checkRow token tokens row with
        | .error _ => []
        | .ok () => checkRowsIndices i token tokens rows

def checkdatatypeIndices : Nat → List CString → List Nat
  | _, [] => []
  | i, [token] => checkRowsIndices i token [] datatype
  | i, token :: next :: tokens =>
      checkRowsIndices i token (next :: tokens) datatype ++
        match checkRows token (next :: tokens) datatype with
        | .error _ => []
        | .ok () =>
            if firstByte token = equals then checkdatatypeIndices (i + 2) tokens
            else checkdatatypeIndices (i + 1) (next :: tokens)

def checkArgumentsIndices (i : Nat) (token : CString) (tokens : List CString) :
    List (CString × CString) → List Nat
  | [] => []
  | row :: rows =>
      i ::
        if token = row.1 then
          (i + 2) ::
            match tokens with
            | _ :: arg :: _ =>
                if arg <:+: row.2 then checkArgumentsIndices i token tokens rows else []
            | _ => []
        else checkArgumentsIndices i token tokens rows

def checkargsIndices : Nat → List CString → List Nat
  | _, [] => []
  | i, token :: tokens =>
      checkArgumentsIndices i token tokens arglist ++
        match checkArguments token tokens arglist with
        | .ok 0 => checkargsIndices (i + 1) tokens
        | _ => []

/-- The checks one after the other, as far as they come. -/
def validatetokensIndices (tokens : List CString) : List Nat :=
  countbracesIndices tokens ++
    if countbraces tokens ≠ 0 then []
    else
      checktokenlistIndices 0 none tokens ++
        if checktokenlist none tokens ≠ 0 then []
        else
          checkdatatypeIndices 0 tokens ++
            match checkdatatype tokens with
            | .error _ => []
            | .ok () => checkargsIndices 0 tokens

/-- All indices are those of tokens. -/
def Inside (indices : List Nat) (size : Nat) : Prop := ∀ index ∈ indices, index < size

/-! ## What passes -/

/-- The tokens behind a name are what its type asks for. -/
def Typed (kind : Datatype) (tokens : List CString) : Prop :=
  if kind = .block then ∃ next later, tokens = next :: later ∧ firstByte next = openBrace
  else ∃ sign value last later, tokens = sign :: value :: last :: later ∧
    firstByte sign = equals ∧ firstByte last = semicolon ∧
      ∃ matched, sscanf value kind = .ok matched ∧ matched ≠ 0

/-- A name with a type has behind it what the type asks for. -/
def TypedName (token : CString) (tokens : List CString) : Prop :=
  ∀ row ∈ datatype, token = row.1 → Typed row.2 tokens

/-- All names that are not values do. -/
def TypedNames : List CString → Prop
  | [] => True
  | [token] => TypedName token []
  | token :: next :: tokens => TypedName token (next :: tokens) ∧
      if firstByte token = equals then TypedNames tokens else TypedNames (next :: tokens)

/-- The token has the argument that its list allows, if it has a list. -/
def ArgumentListed (token : CString) (tokens : List CString) : Prop :=
  ∀ row ∈ arglist, token = row.1 →
    ∃ sign arg later, tokens = sign :: arg :: later ∧ arg <:+: row.2

/-- All tokens do. -/
def ArgumentsListed : List CString → Prop
  | [] => True
  | token :: tokens => ArgumentListed token tokens ∧ ArgumentsListed tokens

/-- A token is a keyword or a value. -/
def Known (before token : CString) : Prop := token ∈ keywords ∨ firstByte before = equals

/-- As many blocks are opened as are closed, and all tokens are known. -/
structure Closed (tokens : List CString) : Prop where
  balanced : tokens.count [openBrace] = tokens.count [closeBrace]
  known : ([semicolon] :: tokens).IsChain Known

/-- A sequence of tokens has what all checks look for. -/
structure Validated (tokens : List CString) : Prop extends Closed tokens where
  typed : TypedNames tokens
  listed : ArgumentsListed tokens

/-! ## Looks past the end -/

/-- The last token the types are checked of is no name of a block, unless an earlier name has not
what its type asks for. -/
def BlocksOpened : List CString → Prop
  | [] => True
  | [token] => (token, .block) ∉ datatype
  | token :: next :: tokens => TypedName token (next :: tokens) →
      if firstByte token = equals then BlocksOpened tokens else BlocksOpened (next :: tokens)

/-- Two tokens follow on each with a list of arguments, unless an earlier one has an argument
that is not in its list. -/
def ArgumentsGiven : List CString → Prop
  | [] => True
  | token :: tokens =>
      (token ∈ arglist.map Prod.fst → 2 ≤ tokens.length) ∧
        (ArgumentListed token tokens → ArgumentsGiven tokens)

/-! ## One check after the other -/

section Inside

variable {first second : List Nat} {index size : Nat}

@[simp]
theorem inside_nil : Inside [] size := fun _ member => nomatch member

@[simp]
theorem inside_cons : Inside (index :: first) size ↔ index < size ∧ Inside first size :=
  List.forall_mem_cons

@[simp]
theorem inside_append : Inside (first ++ second) size ↔ Inside first size ∧ Inside second size :=
  List.forall_mem_append

theorem countbraces_inside (tokens : List CString) :
    Inside (countbracesIndices tokens) tokens.length := fun _ member => List.mem_range.mp member

theorem checktokenlist_inside (i : Nat) (before : Option CString) (tokens : List CString) :
    Inside (checktokenlistIndices i before tokens) (i + tokens.length) := by
  induction tokens generalizing i before with
  | nil => exact inside_nil
  | cons token tokens ih =>
      have later := ih (i + 1) (some token)
      rw [checktokenlistIndices, List.length_cons, inside_append, inside_cons]
      rw [Nat.add_assoc, Nat.add_comm 1] at later
      refine ⟨⟨by omega, ?_⟩, ?_⟩
      · split
        · exact inside_cons.mpr ⟨by omega, inside_nil⟩
        · exact inside_nil
      · split
        · exact inside_nil
        · exact later

end Inside

section Rows

variable {i : Nat} {token : CString} {tokens : List CString} {rows : List (CString × Datatype)}

/-- With a token behind it, no row leads past the end. -/
theorem checkRow_inside (behind : tokens ≠ []) (row : CString × Datatype) :
    Inside (checkRowIndices i token tokens row) (i + 1 + tokens.length) := by
  have size := List.length_pos_of_ne_nil behind
  unfold checkRowIndices
  rw [inside_cons]
  refine ⟨by omega, ?_⟩
  split_ifs
  · exact inside_nil
  · exact inside_cons.mpr ⟨by omega, inside_nil⟩
  · split
    · exact inside_nil
    · exact inside_cons.mpr ⟨by omega, inside_nil⟩
    · next sign value rest =>
        rw [List.length_cons, List.length_cons] at size ⊢
        refine inside_cons.mpr ⟨by omega, ?_⟩
        split
        · exact inside_nil
        · refine inside_cons.mpr ⟨by omega, ?_⟩
          split
          · exact inside_nil
          · split
            · exact inside_nil
            · next more =>
                have some := List.length_pos_of_ne_nil (not_or.mp more).2
                exact inside_cons.mpr ⟨by omega, inside_nil⟩

theorem checkRows_inside (behind : tokens ≠ []) :
    Inside (checkRowsIndices i token tokens rows) (i + 1 + tokens.length) := by
  induction rows with
  | nil => exact inside_nil
  | cons row rows ih =>
      rw [checkRowsIndices, inside_append]
      refine ⟨checkRow_inside behind row, ?_⟩
      split
      · exact inside_nil
      · exact ih

/-- For the last token the name of a block does, and nothing else. -/
theorem checkRows_last_iff
    (typed : ∀ row ∈ rows, ∀ row' ∈ rows, row.1 = row'.1 → row.2 = row'.2) :
    Inside (checkRowsIndices i token [] rows) (i + 1) ↔ (token, Datatype.block) ∉ rows := by
  induction rows with
  | nil => exact iff_of_true inside_nil List.not_mem_nil
  | cons row rows ih =>
      have later := ih fun row member row' member' =>
        typed row (List.mem_cons_of_mem _ member) row' (List.mem_cons_of_mem _ member')
      rw [checkRowsIndices, checkRowIndices, checkRow, inside_append, inside_cons, List.mem_cons,
        not_or]
      by_cases named : token = row.1
      · rw [if_neg (not_not.mpr named), if_neg (not_not.mpr named)]
        by_cases opens : row.2 = .block
        · rw [if_pos opens, inside_cons]
          refine iff_of_false (fun inside => ?_) (fun other => ?_)
          · exact Nat.lt_irrefl _ inside.1.2.1
          · exact other.1 (Prod.ext named opens.symm)
        · rw [if_neg opens, if_neg opens]
          refine iff_of_true ⟨⟨Nat.lt_succ_self i, inside_nil⟩, inside_nil⟩ ⟨?_, ?_⟩
          · exact fun same => opens (congrArg Prod.snd same).symm
          · intro member
            exact opens (typed row List.mem_cons_self _ (List.mem_cons_of_mem _ member) named.symm)
      · rw [if_pos named, if_pos named]
        have apart : (token, Datatype.block) ≠ row := fun same => named (congrArg Prod.fst same)
        have first : i < i + 1 ∧ Inside [] (i + 1) := ⟨Nat.lt_succ_self i, inside_nil⟩
        rw [and_iff_right first, and_iff_right apart]
        exact later

/-- The row of an assignment lets it pass if it is complete and its value can be scanned. -/
theorem checkRow_assigns_iff {kind : Datatype} (assigns : kind ≠ .block) :
    checkRow token tokens (token, kind) = .ok () ↔ Typed kind tokens := by
  unfold checkRow Typed
  rw [if_neg (not_not.mpr rfl), if_neg assigns, if_neg assigns]
  constructor
  · intro returns
    match tokens with
    | [] => cases returns
    | [_] => cases returns
    | sign :: value :: tokens =>
        dsimp only at returns
        split_ifs at returns with signs
        obtain ⟨matched, scanned, returns⟩ := bind_eq_ok.mp returns
        split_ifs at returns with none
        match tokens with
        | [] => cases returns
        | last :: later =>
            dsimp only at returns
            split_ifs at returns with ends
            exact ⟨sign, value, last, later, rfl, not_not.mp signs, not_not.mp ends, matched,
              scanned, none⟩
  · rintro ⟨sign, value, last, later, rfl, signs, ends, matched, scanned, some⟩
    dsimp only
    rw [if_neg (not_not.mpr signs)]
    refine bind_eq_ok.mpr ⟨matched, scanned, ?_⟩
    rw [if_neg some, if_neg (not_not.mpr ends)]

/-- A row lets a token pass that has behind it what the type of the row asks for. -/
theorem checkRow_eq_ok_iff (row : CString × Datatype) :
    checkRow token tokens row = .ok () ↔ (token = row.1 → Typed row.2 tokens) := by
  obtain ⟨name, kind⟩ := row
  by_cases named : token = name
  · subst named
    rw [forall_prop_of_true rfl]
    by_cases opens : kind = .block
    · subst opens
      rw [Typed, if_pos rfl]
      constructor
      · exact checkRow_block
      · rintro ⟨next, later, rfl, brace⟩
        unfold checkRow
        rw [if_neg (not_not.mpr rfl), if_pos rfl]
        exact if_neg (not_not.mpr brace)
    · exact checkRow_assigns_iff opens
  · refine iff_of_true ?_ fun same => absurd same named
    unfold checkRow
    exact if_pos named

theorem checkRows_eq_ok_iff :
    checkRows token tokens rows = .ok () ↔ ∀ row ∈ rows, token = row.1 → Typed row.2 tokens := by
  induction rows with
  | nil => exact iff_of_true rfl fun _ member => nomatch member
  | cons row rows ih =>
      rw [checkRows, List.forall_mem_cons, ← ih, ← checkRow_eq_ok_iff]
      cases checkRow token tokens row with
      | error _ => exact iff_of_false (fun passes => nomatch passes) fun both => nomatch both.1
      | ok _ => exact (and_iff_right rfl).symm

/-- The last token goes down in a row of a block. -/
theorem checkRows_last_crash
    (typed : ∀ row ∈ rows, ∀ row' ∈ rows, row.1 = row'.1 → row.2 = row'.2)
    (block : (token, Datatype.block) ∈ rows) : checkRows token [] rows = .error .crash := by
  induction rows with
  | nil => cases block
  | cons row rows ih =>
      rw [checkRows, checkRow]
      by_cases named : token = row.1
      · have opens : Datatype.block = row.2 := typed _ block row List.mem_cons_self named
        rw [if_neg (not_not.mpr named), if_pos opens.symm]
        rfl
      · have later : (token, Datatype.block) ∈ rows :=
          (List.mem_cons.mp block).resolve_left fun same => named (congrArg Prod.fst same)
        rw [if_pos named]
        exact ih (fun row member row' member' => typed row (List.mem_cons_of_mem _ member) row'
          (List.mem_cons_of_mem _ member')) later

theorem datatype_typed :
    ∀ row ∈ datatype, ∀ row' ∈ datatype, row.1 = row'.1 → row.2 = row'.2 := by
  decide +kernel

end Rows

theorem checkdatatype_inside_iff (i : Nat) (tokens : List CString) :
    Inside (checkdatatypeIndices i tokens) (i + tokens.length) ↔ BlocksOpened tokens := by
  induction i, tokens using checkdatatypeIndices.induct with
  | case1 => exact iff_of_true inside_nil trivial
  | case2 i token =>
      rw [checkdatatypeIndices, BlocksOpened]
      exact checkRows_last_iff datatype_typed
  | case3 i token next tokens ihValue ihNext =>
      rw [checkdatatypeIndices, inside_append, BlocksOpened]
      have row := @checkRows_inside i token (next :: tokens) datatype (List.cons_ne_nil _ _)
      rw [List.length_cons] at row ihNext ⊢
      rw [List.length_cons]
      rw [Nat.add_right_comm, Nat.add_assoc i _ 1] at row
      rw [and_iff_right row, TypedName, ← checkRows_eq_ok_iff]
      cases checkRows token (next :: tokens) datatype with
      | error halt => exact iff_of_true inside_nil fun passes => nomatch passes
      | ok _ =>
          dsimp only
          rw [forall_prop_of_true rfl]
          split
          · rw [← ihValue]
            have size : i + (tokens.length + 1 + 1) = i + 2 + tokens.length := by omega
            rw [size]
          · rw [← ihNext]
            have size : i + (tokens.length + 1 + 1) = i + 1 + (tokens.length + 1) := by omega
            rw [size]

/-- Where the check of the types looks past the end it goes down. -/
theorem checkdatatype_crash (tokens : List CString) (unopened : ¬ BlocksOpened tokens) :
    checkdatatype tokens = .error .crash := by
  induction tokens using checkdatatype.induct with
  | case1 => exact absurd trivial unopened
  | case2 token => exact checkRows_last_crash datatype_typed (not_not.mp unopened)
  | case3 token next tokens ihValue ihNext =>
      rw [BlocksOpened, TypedName, ← checkRows_eq_ok_iff, Classical.not_imp] at unopened
      obtain ⟨row, later⟩ := unopened
      rw [checkdatatype, row]
      split at later
      · next equal => exact (if_pos equal).trans (ihValue later)
      · next other => exact (if_neg other).trans (ihNext later)

section Arguments

variable {i : Nat} {token : CString} {tokens : List CString}

/-- A token with a list of arguments needs the one two tokens away. -/
theorem checkArguments_inside_iff (rows : List (CString × CString)) :
    Inside (checkArgumentsIndices i token tokens rows) (i + 1 + tokens.length) ↔
      (token ∈ rows.map Prod.fst → 2 ≤ tokens.length) := by
  induction rows with
  | nil => exact iff_of_true inside_nil fun member => nomatch member
  | cons row rows ih =>
      unfold checkArgumentsIndices
      rw [inside_cons, List.map_cons, List.mem_cons]
      have first : i < i + 1 + tokens.length := by omega
      rw [and_iff_right first]
      by_cases named : token = row.1
      · rw [if_pos named, inside_cons]
        have enough : i + 2 < i + 1 + tokens.length ↔ 2 ≤ tokens.length := by omega
        rw [enough]
        constructor
        · exact fun inside _ => inside.1
        · intro given
          have size := given (Or.inl named)
          refine ⟨size, ?_⟩
          split
          · split
            · exact ih.mpr fun _ => size
            · exact inside_nil
          · exact inside_nil
      · rw [if_neg named, ih, or_iff_right named]

/-- The rows let a token pass that has an argument for each of them that has its name. -/
theorem checkArguments_eq_zero_iff (rows : List (CString × CString)) :
    checkArguments token tokens rows = .ok 0 ↔ ∀ row ∈ rows, token = row.1 →
      ∃ sign arg later, tokens = sign :: arg :: later ∧ arg <:+: row.2 := by
  induction rows with
  | nil => exact iff_of_true rfl fun _ member => nomatch member
  | cons row rows ih =>
      unfold checkArguments
      rw [List.forall_mem_cons]
      by_cases named : token = row.1
      · rw [if_pos named]
        split
        · next sign arg later =>
            by_cases listed : arg <:+: row.2
            · rw [if_pos listed, ih]
              exact (and_iff_right fun _ => ⟨sign, arg, later, rfl, listed⟩).symm
            · rw [if_neg listed]
              refine iff_of_false (fun passes => nomatch passes) ?_
              rintro ⟨given, _⟩
              obtain ⟨_, _, _, same, listed'⟩ := given named
              cases same
              exact listed listed'
        · next short =>
            refine iff_of_false (fun passes => nomatch passes) ?_
            rintro ⟨given, _⟩
            obtain ⟨sign, arg, later, rfl, _⟩ := given named
            exact short sign arg later rfl
      · rw [if_neg named, ih]
        exact (and_iff_right fun same => absurd same named).symm

/-- The rows come to an answer where no argument is missing. -/
theorem checkArguments_crash (rows : List (CString × CString))
    (named : token ∈ rows.map Prod.fst) (short : tokens.length < 2) :
    checkArguments token tokens rows = .error .crash := by
  induction rows with
  | nil => cases named
  | cons row rows ih =>
      unfold checkArguments
      by_cases here : token = row.1
      · rw [if_pos here]
        split
        · simp only [List.length_cons] at short
          omega
        · rfl
      · rw [if_neg here]
        rw [List.map_cons, List.mem_cons] at named
        exact ih (named.resolve_left here)

end Arguments

theorem checkargs_inside_iff (i : Nat) (tokens : List CString) :
    Inside (checkargsIndices i tokens) (i + tokens.length) ↔ ArgumentsGiven tokens := by
  induction tokens generalizing i with
  | nil => exact iff_of_true inside_nil trivial
  | cons token tokens ih =>
      have row := @checkArguments_inside_iff i token tokens arglist
      have passes := @checkArguments_eq_zero_iff token tokens arglist
      have later := ih (i + 1)
      have size : i + (tokens.length + 1) = i + 1 + tokens.length := by omega
      rw [checkargsIndices, inside_append, ArgumentsGiven, List.length_cons, size, row,
        ArgumentListed, ← passes]
      refine and_congr_right fun _ => ?_
      split
      · next zero => rw [zero, later, forall_prop_of_true rfl]
      · next other => exact iff_of_true inside_nil fun zero => absurd zero other

theorem checkargs_crash (tokens : List CString) (missing : ¬ ArgumentsGiven tokens) :
    checkargs tokens = .error .crash := by
  induction tokens with
  | nil => exact absurd trivial missing
  | cons token tokens ih =>
      rw [checkargs]
      by_cases named : token ∈ arglist.map Prod.fst ∧ tokens.length < 2
      · rw [checkArguments_crash arglist named.1 named.2]
        rfl
      · rw [ArgumentsGiven, not_and_or] at missing
        rcases missing with short | later
        · rw [Classical.not_imp, Nat.not_le] at short
          exact absurd short named
        · rw [Classical.not_imp, ArgumentListed, ← checkArguments_eq_zero_iff] at later
          rw [later.1]
          exact ih later.2

/-! ## What the checks let through -/

section Checks

theorem countbraces_eq_zero_iff (tokens : List CString) :
    countbraces tokens = 0 ↔ tokens.count [openBrace] = tokens.count [closeBrace] := by
  unfold countbraces
  dsimp only
  split_ifs with fewer more
  · exact iff_of_false (by decide) (Nat.ne_of_gt fewer)
  · exact iff_of_false (by decide) (Nat.ne_of_lt more)
  · exact iff_of_true rfl (Nat.le_antisymm (Nat.le_of_not_lt fewer) (Nat.le_of_not_lt more))

theorem checktokenlist_eq_zero_iff (before : CString) (tokens : List CString) :
    checktokenlist (some before) tokens = 0 ↔ (before :: tokens).IsChain Known := by
  induction tokens generalizing before with
  | nil => exact iff_of_true rfl (.singleton before)
  | cons token tokens ih =>
      rw [List.isChain_cons_cons, ← ih token]
      constructor
      · intro known
        obtain ⟨later, here⟩ := checktokenlist_next known
        rw [Option.any_some, beq_iff_eq] at here
        exact ⟨here, later⟩
      · rintro ⟨here, later⟩
        rw [checktokenlist, if_neg, later]
        rintro ⟨unknown, other⟩
        rw [Option.any_some, beq_eq_false_iff_ne] at other
        rw [← Bool.not_eq_true, List.contains_iff_mem] at unknown
        exact here.elim unknown other

/-- The first token has none in front of it, as if a statement had ended there. -/
theorem checktokenlist_none (tokens : List CString) :
    checktokenlist none tokens = checktokenlist (some [semicolon]) tokens := by
  cases tokens <;> rfl

theorem checkdatatype_eq_ok_iff (tokens : List CString) :
    checkdatatype tokens = .ok () ↔ TypedNames tokens := by
  induction tokens using checkdatatype.induct with
  | case1 => exact iff_of_true rfl trivial
  | case2 token => exact checkRows_eq_ok_iff
  | case3 token next tokens ihValue ihNext =>
      have rows := @checkRows_eq_ok_iff token (next :: tokens) datatype
      rw [TypedNames, TypedName, ← rows]
      constructor
      · intro returns
        obtain ⟨_, here, later⟩ := bind_eq_ok.mp returns
        refine ⟨here, ?_⟩
        split_ifs at later ⊢
        · exact ihValue.mp later
        · exact ihNext.mp later
      · rintro ⟨here, later⟩
        refine bind_eq_ok.mpr ⟨(), here, ?_⟩
        split_ifs at later ⊢
        · exact ihValue.mpr later
        · exact ihNext.mpr later

theorem checkargs_eq_zero_iff (tokens : List CString) :
    checkargs tokens = .ok 0 ↔ ArgumentsListed tokens := by
  induction tokens with
  | nil => exact iff_of_true rfl trivial
  | cons token tokens ih =>
      rw [ArgumentsListed, ArgumentListed, ← checkArguments_eq_zero_iff, ← ih, checkargs]
      constructor
      · intro returns
        obtain ⟨result, here, later⟩ := bind_eq_ok.mp returns
        split_ifs at later with zero
        · exact absurd (Except.ok.inj later) zero
        · rw [not_not.mp zero] at here
          exact ⟨here, later⟩
      · rintro ⟨here, later⟩
        refine bind_eq_ok.mpr ⟨0, here, ?_⟩
        rwa [if_neg (not_not.mpr rfl)]

theorem ArgumentsListed.argument {front tail : List CString} {keyword : CString}
    (listed : ArgumentsListed (front ++ keyword :: tail)) : ArgumentListed keyword tail := by
  induction front with
  | nil => exact listed.1
  | cons token front ih => exact ih listed.2

theorem closed_iff (tokens : List CString) :
    Closed tokens ↔ countbraces tokens = 0 ∧ checktokenlist none tokens = 0 := by
  rw [countbraces_eq_zero_iff, checktokenlist_none, checktokenlist_eq_zero_iff]
  exact ⟨fun ⟨balanced, known⟩ => ⟨balanced, known⟩, fun ⟨balanced, known⟩ => ⟨balanced, known⟩⟩

theorem validatetokens_eq_zero_iff (tokens : List CString) :
    validatetokens tokens = .ok 0 ↔ Validated tokens := by
  have closed := closed_iff tokens
  have typed := checkdatatype_eq_ok_iff tokens
  have listed := checkargs_eq_zero_iff tokens
  constructor
  · intro accepted
    obtain ⟨braces, known, types⟩ := validatetokens_accepts accepted
    unfold validatetokens at accepted
    rw [if_neg (not_not.mpr braces), if_neg (not_not.mpr known)] at accepted
    obtain ⟨_, _, accepted⟩ := bind_eq_ok.mp accepted
    obtain ⟨result, args, accepted⟩ := bind_eq_ok.mp accepted
    have zero : result = 0 := by
      by_contra other
      rw [if_pos other] at accepted
      cases accepted
    rw [zero] at args
    exact ⟨closed.mpr ⟨braces, known⟩, typed.mp types, listed.mp args⟩
  · intro validated
    obtain ⟨braces, known⟩ := closed.mp validated.toClosed
    unfold validatetokens
    rw [if_neg (not_not.mpr braces), if_neg (not_not.mpr known)]
    exact bind_eq_ok.mpr ⟨(), typed.mpr validated.typed,
      bind_eq_ok.mpr ⟨0, listed.mpr validated.listed, rfl⟩⟩

/-- The checks use no other index, unless the checks that come so far find too few tokens. -/
theorem validatetokens_inside_iff (tokens : List CString) :
    Inside (validatetokensIndices tokens) tokens.length ↔
      (Closed tokens → BlocksOpened tokens) ∧
        (Closed tokens → TypedNames tokens → ArgumentsGiven tokens) := by
  have known := checktokenlist_inside 0 none tokens
  have types := checkdatatype_inside_iff 0 tokens
  have args := checkargs_inside_iff 0 tokens
  rw [Nat.zero_add] at known types args
  rw [validatetokensIndices, inside_append, and_iff_right (countbraces_inside tokens)]
  have closed := closed_iff tokens
  have typed := checkdatatype_eq_ok_iff tokens
  by_cases braces : countbraces tokens = 0
  · by_cases names : checktokenlist none tokens = 0
    · have here := closed.mpr ⟨braces, names⟩
      rw [if_neg (not_not.mpr braces), inside_append, and_iff_right known,
        if_neg (not_not.mpr names), inside_append, types, forall_prop_of_true here,
        forall_prop_of_true here, ← args, ← typed]
      refine and_congr_right fun _ => ?_
      cases checkdatatype tokens with
      | error _ => exact iff_of_true inside_nil fun passes => nomatch passes
      | ok _ =>
          dsimp only
          rw [forall_prop_of_true rfl]
    · have notHere : ¬ Closed tokens := fun here => names (closed.mp here).2
      rw [if_neg (not_not.mpr braces), inside_append, if_pos names]
      exact iff_of_true ⟨known, inside_nil⟩ ⟨fun here => absurd here notHere,
        fun here => absurd here notHere⟩
  · have notHere : ¬ Closed tokens := fun here => braces (closed.mp here).1
    rw [if_pos braces]
    exact iff_of_true inside_nil ⟨fun here => absurd here notHere, fun here => absurd here notHere⟩

/-- Where a check looks past the end, the checks do not return. -/
theorem validatetokens_crash (tokens : List CString)
    (outside : ¬ Inside (validatetokensIndices tokens) tokens.length) :
    validatetokens tokens = .error .crash := by
  rw [validatetokens_inside_iff, not_and_or, Classical.not_imp, Classical.not_imp,
    Classical.not_imp] at outside
  have start (closed : Closed tokens) : countbraces tokens = 0 ∧ checktokenlist none tokens = 0 :=
    (closed_iff tokens).mp closed
  unfold validatetokens
  rcases outside with ⟨closed, unopened⟩ | ⟨closed, typed, missing⟩
  · obtain ⟨braces, known⟩ := start closed
    rw [if_neg (not_not.mpr braces), if_neg (not_not.mpr known),
      checkdatatype_crash tokens unopened]
    rfl
  · obtain ⟨braces, known⟩ := start closed
    rw [if_neg (not_not.mpr braces), if_neg (not_not.mpr known),
      (checkdatatype_eq_ok_iff tokens).mpr typed, checkargs_crash tokens missing]
    rfl

end Checks

end Qaoed.Rcfg
