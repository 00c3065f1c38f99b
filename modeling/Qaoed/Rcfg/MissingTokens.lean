import Qaoed.Rcfg.Indices

/-!
# Tokens that are missing

The parser looks ahead as the checks do, and relies on them for what it finds there. Which
sequences of tokens it walks past the end of, and which files that are cut off get through
the checks.
-/

namespace Qaoed.Rcfg

open Qaoed.Device
open Qaoed.Library
open Qaoed.Config

/-! ## The indices -/

/-- The search for the end of a block, from the token at `j` on. -/
def findEndIndices : Int → Nat → List CString → List Nat
  | _, _, [] => []
  | cbc, j, token :: rest =>
      j ::
        if firstByte token = openBrace then findEndIndices (cbc + 1) (j + 1) rest
        else if firstByte token = closeBrace then
          if cbc - 1 = 0 then [] else findEndIndices (cbc - 1) (j + 1) rest
        else findEndIndices cbc (j + 1) rest

/-- The loop over a range of tokens that begins at `i`, with those behind it. -/
def statementsIndices : Nat → Nat → Int → List CString → List CString → List Nat
  | fuel + 1, i, cbc, _ :: sign :: rest, behind =>
      (i + 1) ::
        if firstByte sign = openBrace then
          findEndIndices (cbc + 1) (i + 2) rest ++
            match findEnd (cbc + 1) 0 rest with
            | (cbc, some j) =>
                i :: statementsIndices fuel (i + 2) 0 (rest.take j) (rest.drop j ++ behind) ++
                  statementsIndices fuel (i + 2 + (j + 1)) cbc (rest.drop (j + 1)) behind
            | (cbc, none) => statementsIndices fuel (i + 1) cbc (sign :: rest) behind
        else if firstByte sign = equals then
          i :: (i + 2) ::
            match rest ++ behind with
            | [] => []
            | _ :: _ => statementsIndices fuel (i + 4) cbc (rest.drop 2) behind
        else statementsIndices fuel (i + 1) cbc (sign :: rest) behind
  | _, _, _, _, _ => []

def recursiveparseIndices (tokens : List CString) (ts te : Nat) : List Nat :=
  statementsIndices (te - ts) ts 0 ((tokens.drop ts).take (te - ts)) (tokens.drop te)

/-! ## Looks past the end -/

/-- The loop of the parser comes to a `=` that is the last token. -/
inductive EndsInSign : Int → List CString → Prop where
  | here {cbc : Int} {lvalue sign : CString} (equal : firstByte sign = equals) :
      EndsInSign cbc [lvalue, sign]
  | block {cbc cbc' : Int} {lvalue sign : CString} {rest : List CString} {j : Nat}
      (opens : firstByte sign = openBrace) (found : findEnd (cbc + 1) 0 rest = (cbc', some j))
      (later : EndsInSign cbc' (rest.drop (j + 1))) : EndsInSign cbc (lvalue :: sign :: rest)
  | unclosed {cbc cbc' : Int} {lvalue sign : CString} {rest : List CString}
      (opens : firstByte sign = openBrace) (found : findEnd (cbc + 1) 0 rest = (cbc', none))
      (later : EndsInSign cbc' (sign :: rest)) : EndsInSign cbc (lvalue :: sign :: rest)
  | assignment {cbc : Int} {lvalue sign : CString} {rest : List CString}
      (equal : firstByte sign = equals) (later : EndsInSign cbc (rest.drop 2)) :
      EndsInSign cbc (lvalue :: sign :: rest)
  | other {cbc : Int} {lvalue sign : CString} {rest : List CString}
      (notOpen : firstByte sign ≠ openBrace) (notEquals : firstByte sign ≠ equals)
      (later : EndsInSign cbc (sign :: rest)) : EndsInSign cbc (lvalue :: sign :: rest)

/-- A file that is cut off behind a keyword, behind its `=` or behind its brace. -/
def Truncated (tokens : List CString) : Prop :=
  ∃ front keyword tail, tokens = front ++ keyword :: tail ∧
    (∀ before ∈ front.getLast?, firstByte before ≠ equals) ∧
    keyword ∈ keywords ∧ isDelimiter (firstByte keyword) = false ∧
    tail ∈ [[], [[equals]], [[openBrace]]]

/-- The keywords that have neither a type nor a list of arguments. -/
def unchecked : List CString := ["interface", "name", "accept", "reject"].map text

/-- A file that is cut off behind one of them, or behind the brace of a block. -/
def Unclosed (tokens : List CString) : Prop :=
  ∃ front keyword tail, tokens = front ++ keyword :: tail ∧
    (∀ before ∈ front.getLast?, firstByte before ≠ equals) ∧
    (keyword ∈ unchecked ∧ tail ∈ [[], [[equals]], [[openBrace]]] ∨
      (keyword, .block) ∈ datatype ∧ tail = [[openBrace]])

/-- No index is used that is not that of a token, and what is cut off is not accepted. -/
structure ReadsInside (tokens : List CString) : Prop where
  checks : Inside (validatetokensIndices tokens) tokens.length
  parser : validatetokens tokens = .ok 0 →
    Inside (recursiveparseIndices tokens 0 tokens.length) tokens.length
  truncated : Truncated tokens → validatetokens tokens ≠ .ok 0

/-- No check comes to a token with too few behind it, no `=` that the parser comes to is the last
token, and no file that is cut off has what the checks look for. -/
structure NothingMissing (tokens : List CString) : Prop where
  blocks : Closed tokens → BlocksOpened tokens
  arguments : Closed tokens → TypedNames tokens → ArgumentsGiven tokens
  values : Validated tokens → ¬ EndsInSign 0 tokens
  unclosed : Unclosed tokens → ¬ Validated tokens

/-! ## The parser -/

theorem findEnd_inside (cbc : Int) (j : Nat) (rest : List CString) :
    Inside (findEndIndices cbc j rest) (j + rest.length) := by
  induction rest generalizing cbc j with
  | nil => exact inside_nil
  | cons token rest ih =>
      have later (cbc : Int) := ih cbc (j + 1)
      rw [Nat.add_assoc, Nat.add_comm 1] at later
      rw [findEndIndices, List.length_cons, inside_cons]
      refine ⟨by omega, ?_⟩
      split_ifs
      · exact later _
      · exact inside_nil
      · exact later _
      · exact later _

theorem findEnd_bound {cbc cbc' : Int} {j place : Nat} {rest : List CString}
    (found : findEnd cbc j rest = (cbc', some place)) : j ≤ place ∧ place < j + rest.length := by
  induction rest generalizing cbc j with
  | nil => cases found
  | cons token rest ih =>
      rw [List.length_cons]
      rw [findEnd] at found
      split_ifs at found
      · have bound := ih found
        omega
      · cases found
        omega
      · have bound := ih found
        omega
      · have bound := ih found
        omega

section Statements

variable {size size' : Nat} {indices : List Nat}

theorem Inside.mono (inside : Inside indices size) (le : size ≤ size') : Inside indices size' :=
  fun index member => Nat.lt_of_lt_of_le (inside index member) le

theorem statementsIndices_nil (fuel i : Nat) (cbc : Int) (behind : List CString) :
    statementsIndices fuel i cbc [] behind = [] := by
  cases fuel <;> rfl

/-- The loop over a range of tokens uses the indices of tokens only. -/
def StatementsInside (fuel i : Nat) (cbc : Int) (range behind : List CString) : Prop :=
  Inside (statementsIndices fuel i cbc range behind) (i + range.length + behind.length)

theorem statementsInside_nil (fuel i : Nat) (cbc : Int) (behind : List CString) :
    StatementsInside fuel i cbc [] behind := by
  rw [StatementsInside, statementsIndices_nil]
  exact inside_nil

/-! What one round of the loop adds to those that follow it. -/

section Round

variable {fuel i : Nat} {cbc cbc' : Int} {lvalue sign : CString} {rest behind : List CString}

/-- A round that leaves one token behind. -/
theorem statementsInside_next :
    Inside (statementsIndices fuel (i + 1) cbc (sign :: rest) behind)
        (i + (rest.length + 1 + 1) + behind.length) ↔
      StatementsInside fuel (i + 1) cbc (sign :: rest) behind := by
  have size : i + (rest.length + 1 + 1) = i + 1 + (rest.length + 1) := by omega
  rw [StatementsInside, List.length_cons, size]

theorem statementsInside_block_iff {j : Nat} (opens : firstByte sign = openBrace)
    (found : findEnd (cbc + 1) 0 rest = (cbc', some j)) :
    StatementsInside (fuel + 1) i cbc (lvalue :: sign :: rest) behind ↔
      StatementsInside fuel (i + 2) 0 (rest.take j) (rest.drop j ++ behind) ∧
        StatementsInside fuel (i + 2 + (j + 1)) cbc' (rest.drop (j + 1)) behind := by
  have bound := (findEnd_bound found).2
  have sign_ : i + 1 < i + (rest.length + 1 + 1) + behind.length := by omega
  have search : Inside (findEndIndices (cbc + 1) (i + 2) rest)
      (i + (rest.length + 1 + 1) + behind.length) := (findEnd_inside _ _ _).mono (by omega)
  have name : i < i + (rest.length + 1 + 1) + behind.length := by omega
  have block : i + 2 + (rest.take j).length + (rest.drop j ++ behind).length =
      i + (rest.length + 1 + 1) + behind.length := by
    rw [List.length_take, List.length_append, List.length_drop]
    omega
  have later : i + 2 + (j + 1) + (rest.drop (j + 1)).length + behind.length =
      i + (rest.length + 1 + 1) + behind.length := by
    rw [List.length_drop]
    omega
  rw [StatementsInside, statementsIndices, if_pos opens, found, List.length_cons, List.length_cons,
    inside_cons, and_iff_right sign_, inside_append, and_iff_right search, inside_append,
    inside_cons, and_iff_right name, StatementsInside, StatementsInside, block, later]

theorem statementsInside_unclosed_iff (opens : firstByte sign = openBrace)
    (found : findEnd (cbc + 1) 0 rest = (cbc', none)) :
    StatementsInside (fuel + 1) i cbc (lvalue :: sign :: rest) behind ↔
      StatementsInside fuel (i + 1) cbc' (sign :: rest) behind := by
  have sign_ : i + 1 < i + (rest.length + 1 + 1) + behind.length := by omega
  have search : Inside (findEndIndices (cbc + 1) (i + 2) rest)
      (i + (rest.length + 1 + 1) + behind.length) := (findEnd_inside _ _ _).mono (by omega)
  rw [StatementsInside, statementsIndices, if_pos opens, found, List.length_cons, List.length_cons,
    inside_cons, and_iff_right sign_, inside_append, and_iff_right search]
  exact statementsInside_next

theorem statementsInside_assignment_iff (equal : firstByte sign = equals) :
    StatementsInside (fuel + 1) i cbc (lvalue :: sign :: rest) behind ↔
      rest ++ behind ≠ [] ∧ StatementsInside fuel (i + 4) cbc (rest.drop 2) behind := by
  have notOpen : firstByte sign ≠ openBrace := by
    rw [equal]
    decide
  have sign_ : i + 1 < i + (rest.length + 1 + 1) + behind.length := by omega
  have name : i < i + (rest.length + 1 + 1) + behind.length := by omega
  rw [StatementsInside, statementsIndices, if_neg notOpen, if_pos equal, List.length_cons,
    List.length_cons, inside_cons, and_iff_right sign_, inside_cons, and_iff_right name,
    inside_cons]
  cases values : rest ++ behind with
  | nil =>
      obtain ⟨rfl, rfl⟩ := List.append_eq_nil_iff.mp values
      exact iff_of_false (fun inside => Nat.lt_irrefl _ inside.1) fun inside => inside.1 rfl
  | cons rvalue others =>
      have some := congrArg List.length values
      rw [List.length_append, List.length_cons] at some
      have value : i + 2 < i + (rest.length + 1 + 1) + behind.length := by omega
      rw [and_iff_right value, and_iff_right (List.cons_ne_nil _ _)]
      dsimp only
      by_cases short : rest.length < 2
      · rw [List.drop_eq_nil_of_le (by omega), statementsIndices_nil]
        exact iff_of_true inside_nil (statementsInside_nil _ _ _ _)
      · have size : i + 4 + (rest.length - 2) = i + (rest.length + 1 + 1) := by omega
        rw [StatementsInside, List.length_drop, size]

theorem statementsInside_other_iff (notOpen : firstByte sign ≠ openBrace)
    (notEquals : firstByte sign ≠ equals) :
    StatementsInside (fuel + 1) i cbc (lvalue :: sign :: rest) behind ↔
      StatementsInside fuel (i + 1) cbc (sign :: rest) behind := by
  have sign_ : i + 1 < i + (rest.length + 1 + 1) + behind.length := by omega
  rw [StatementsInside, statementsIndices, if_neg notOpen, if_neg notEquals, List.length_cons,
    List.length_cons, inside_cons, and_iff_right sign_]
  exact statementsInside_next

end Round

/-- In front of other tokens the loop stays inside. -/
theorem statements_inside (fuel i : Nat) (cbc : Int) (range : List CString)
    {behind : List CString} (more : behind ≠ []) : StatementsInside fuel i cbc range behind := by
  induction fuel generalizing i cbc range behind with
  | zero => exact inside_nil
  | succ fuel ih =>
      match range with
      | [] => exact inside_nil
      | [_] => exact inside_nil
      | lvalue :: sign :: rest =>
          by_cases opens : firstByte sign = openBrace
          · rcases found : findEnd (cbc + 1) 0 rest with ⟨cbc', _ | j⟩
            · rw [statementsInside_unclosed_iff opens found]
              exact ih _ _ _ more
            · rw [statementsInside_block_iff opens found]
              exact ⟨ih _ _ _ (List.append_ne_nil_of_right_ne_nil _ more), ih _ _ _ more⟩
          · by_cases equal : firstByte sign = equals
            · rw [statementsInside_assignment_iff equal]
              exact ⟨List.append_ne_nil_of_right_ne_nil _ more, ih _ _ _ more⟩
            · rw [statementsInside_other_iff opens equal]
              exact ih _ _ _ more

theorem not_endsInSign_nil {cbc : Int} : ¬ EndsInSign cbc [] := fun ends => nomatch ends

/-- Behind a name and a brace the loop goes on where the search for the end of the block leaves
it. -/
theorem endsInSign_brace_iff {cbc : Int} {lvalue sign : CString} {rest : List CString}
    (opens : firstByte sign = openBrace) :
    EndsInSign cbc (lvalue :: sign :: rest) ↔
      match findEnd (cbc + 1) 0 rest with
      | (cbc, some j) => EndsInSign cbc (rest.drop (j + 1))
      | (cbc, none) => EndsInSign cbc (sign :: rest) := by
  have differs : firstByte sign ≠ equals := by
    rw [opens]
    decide
  constructor
  · intro ends
    cases ends with
    | here equal => exact absurd equal differs
    | block _ found later =>
        rw [found]
        exact later
    | unclosed _ found later =>
        rw [found]
        exact later
    | assignment equal => exact absurd equal differs
    | other notOpen => exact absurd opens notOpen
  · rcases found : findEnd (cbc + 1) 0 rest with ⟨cbc', _ | j⟩
    · exact .unclosed opens found
    · exact .block opens found

/-- Behind an assignment it goes on four tokens later. -/
theorem endsInSign_equals_iff {cbc : Int} {lvalue sign rvalue : CString} {rest : List CString}
    (equal : firstByte sign = equals) :
    EndsInSign cbc (lvalue :: sign :: rvalue :: rest) ↔ EndsInSign cbc (rest.drop 1) := by
  constructor
  · intro ends
    cases ends with
    | block opens =>
        rw [equal] at opens
        exact absurd opens (by decide)
    | unclosed opens =>
        rw [equal] at opens
        exact absurd opens (by decide)
    | assignment _ later => exact later
    | other _ notEquals => exact absurd equal notEquals
  · intro later
    exact @EndsInSign.assignment cbc lvalue sign (rvalue :: rest) equal later

/-- Any other token is left out. -/
theorem endsInSign_other_iff {cbc : Int} {lvalue sign : CString} {rest : List CString}
    (notOpen : firstByte sign ≠ openBrace) (notEquals : firstByte sign ≠ equals) :
    EndsInSign cbc (lvalue :: sign :: rest) ↔ EndsInSign cbc (sign :: rest) := by
  constructor
  · intro ends
    cases ends with
    | here equal => exact absurd equal notEquals
    | block opens => exact absurd opens notOpen
    | unclosed opens => exact absurd opens notOpen
    | assignment equal => exact absurd equal notEquals
    | other _ _ later => exact later
  · exact .other notOpen notEquals

/-- At the end of the array it does so unless it comes to a `=` there. -/
theorem statements_inside_iff (fuel i : Nat) (cbc : Int) (range : List CString)
    (enough : range.length ≤ fuel) :
    StatementsInside fuel i cbc range [] ↔ ¬ EndsInSign cbc range := by
  induction fuel generalizing i cbc range with
  | zero =>
      rw [List.eq_nil_of_length_eq_zero (Nat.le_zero.mp enough)]
      exact iff_of_true inside_nil not_endsInSign_nil
  | succ fuel ih =>
      match range with
      | [] => exact iff_of_true inside_nil not_endsInSign_nil
      | [_] => exact iff_of_true inside_nil fun ends => nomatch ends
      | lvalue :: sign :: rest =>
          rw [List.length_cons, List.length_cons] at enough
          have shorter : (sign :: rest).length ≤ fuel := by
            rw [List.length_cons]
            omega
          by_cases opens : firstByte sign = openBrace
          · rw [endsInSign_brace_iff opens]
            rcases found : findEnd (cbc + 1) 0 rest with ⟨cbc', _ | j⟩
            · rw [statementsInside_unclosed_iff opens found]
              exact ih _ cbc' _ shorter
            · -- the brace that closes the block stands behind it
              have behind : rest.drop j ++ [] ≠ [] := by
                have bound := (findEnd_bound found).2
                rw [List.append_nil, Ne, List.drop_eq_nil_iff]
                omega
              rw [statementsInside_block_iff opens found,
                and_iff_right (statements_inside fuel (i + 2) 0 _ behind)]
              exact ih _ cbc' _ (by rw [List.length_drop]; omega)
          · by_cases equal : firstByte sign = equals
            · rw [statementsInside_assignment_iff equal, List.append_nil]
              cases rest with
              | nil => exact iff_of_false (fun inside => inside.1 rfl) (not_not.mpr (.here equal))
              | cons rvalue rest =>
                  rw [List.length_cons] at enough
                  rw [endsInSign_equals_iff equal, and_iff_right (List.cons_ne_nil _ _),
                    List.drop_succ_cons]
                  exact ih _ cbc _ (by rw [List.length_drop]; omega)
            · rw [statementsInside_other_iff opens equal, endsInSign_other_iff opens equal]
              exact ih _ cbc _ shorter

/-- The parser returns where all its indices are those of tokens. -/
theorem statements_returns_iff (fuel i : Nat) (cbc : Int) (range behind : List CString) :
    (∃ config, statements fuel cbc range behind = .ok config) ↔
      StatementsInside fuel i cbc range behind := by
  induction fuel generalizing i cbc range behind with
  | zero => exact iff_of_true ⟨.null, rfl⟩ inside_nil
  | succ fuel ih =>
      rcases range with _ | ⟨lvalue, _ | ⟨sign, rest⟩⟩
      · exact iff_of_true ⟨.null, rfl⟩ inside_nil
      · exact iff_of_true ⟨.null, rfl⟩ inside_nil
      · rw [statements]
        by_cases opens : firstByte sign = openBrace
        · rw [if_pos opens]
          rcases found : findEnd (cbc + 1) 0 rest with ⟨cbc', _ | j⟩
          · rw [statementsInside_unclosed_iff opens found]
            exact ih _ cbc' _ _
          · rw [statementsInside_block_iff opens found, ← ih, ← ih]
            constructor
            · rintro ⟨_, returns⟩
              obtain ⟨body, inBody, returns⟩ := bind_eq_ok.mp returns
              obtain ⟨others, inOthers, _⟩ := bind_eq_ok.mp returns
              exact ⟨⟨body, inBody⟩, others, inOthers⟩
            · rintro ⟨⟨body, inBody⟩, others, inOthers⟩
              exact ⟨_, bind_eq_ok.mpr ⟨body, inBody, bind_eq_ok.mpr ⟨others, inOthers, rfl⟩⟩⟩
        · rw [if_neg opens]
          by_cases equal : firstByte sign = equals
          · rw [if_pos equal, statementsInside_assignment_iff equal, ← ih]
            cases rest ++ behind with
            | nil =>
                refine iff_of_false ?_ fun inside => inside.1 rfl
                rintro ⟨_, returns⟩
                cases returns
            | cons rvalue others =>
                rw [and_iff_right (List.cons_ne_nil _ _)]
                constructor
                · rintro ⟨_, returns⟩
                  obtain ⟨config, inLater, _⟩ := bind_eq_ok.mp returns
                  exact ⟨config, inLater⟩
                · rintro ⟨config, inLater⟩
                  exact ⟨_, bind_eq_ok.mpr ⟨config, inLater, rfl⟩⟩
          · rw [if_neg equal, statementsInside_other_iff opens equal]
            exact ih _ cbc _ _

end Statements

/-! ## Files that are cut off -/

section Truncated

variable {keyword : CString} {tail : List CString}

/-- The types are checked of each token that is not a value. -/
theorem TypedNames.name : ∀ {front : List CString}, TypedNames (front ++ keyword :: tail) →
    (∀ before ∈ front.getLast?, firstByte before ≠ equals) → TypedName keyword tail
  | [], typed, _ => by
      cases tail with
      | nil => exact typed
      | cons next tail => exact typed.1
  | [token], typed, plain => by
      have later := typed.2
      rw [if_neg (plain token rfl)] at later
      have here : TypedNames ([] ++ keyword :: tail) := later
      exact TypedNames.name here fun _ none => nomatch none
  | token :: next :: front, typed, plain => by
      have later := typed.2
      split_ifs at later
      · refine TypedNames.name later fun before last => plain before ?_
        cases front with
        | nil => cases last
        | cons => exact last
      · have here : TypedNames ((next :: front) ++ keyword :: tail) := later
        exact TypedNames.name here plain

theorem Unclosed.truncated {tokens : List CString} (unclosed : Unclosed tokens) :
    Truncated tokens := by
  have free : ∀ keyword ∈ unchecked,
      keyword ∈ keywords ∧ isDelimiter (firstByte keyword) = false := by decide
  have typed : ∀ row ∈ datatype,
      row.1 ∈ keywords ∧ isDelimiter (firstByte row.1) = false := by decide +kernel
  obtain ⟨front, keyword, tail, same, plain, ⟨member, cut⟩ | ⟨member, rfl⟩⟩ := unclosed
  · exact ⟨front, keyword, tail, same, plain, (free keyword member).1, (free keyword member).2, cut⟩
  · exact ⟨front, keyword, _, same, plain, (typed _ member).1, (typed _ member).2,
      List.mem_of_mem_tail (List.mem_of_mem_tail List.mem_cons_self)⟩

/-- The checks find what is cut off behind any other keyword. -/
theorem Truncated.unclosed {tokens : List CString} (truncated : Truncated tokens)
    (validated : Validated tokens) : Unclosed tokens := by
  obtain ⟨front, keyword, tail, rfl, plain, member, word, cut⟩ := truncated
  have typed := validated.typed.name plain
  have listed := validated.listed.argument
  have tails : ∀ tail ∈ [[], [[equals]], [[openBrace]]], tail.length ≤ 1 := by decide
  have short := tails tail cut
  refine ⟨front, keyword, tail, rfl, plain, ?_⟩
  have assigned (kind : Datatype) (assigns : kind ≠ .block) : (keyword, kind) ∉ datatype := by
    intro row
    have fits := typed _ row rfl
    rw [Typed, if_neg assigns] at fits
    obtain ⟨_, _, _, _, rfl, _⟩ := fits
    simp only [List.length_cons] at short
    omega
  rcases keyword_cases keyword member with free | delimiter | block | string | number
  · refine Or.inl ⟨?_, cut⟩
    have policy : keyword ≠ text "policy" := by
      intro same
      obtain ⟨_, _, _, rfl, _⟩ := listed (text "policy", text "accept|reject") (by decide) same
      simp only [List.length_cons] at short
      omega
    have others : ∀ keyword ∈ untyped, keyword ≠ text "policy" → keyword ∈ unchecked := by decide
    exact others keyword free policy
  · rw [word] at delimiter
    cases delimiter
  · refine Or.inr ⟨block, ?_⟩
    have fits := typed _ block rfl
    rw [Typed, if_pos rfl] at fits
    obtain ⟨next, later, rfl, opens⟩ := fits
    rcases List.mem_cons.mp cut with none | cut
    · cases none
    · rcases List.mem_cons.mp cut with equal | cut
      · cases equal
        exact absurd opens (by decide)
      · exact List.mem_singleton.mp cut
  · exact absurd string (assigned .string (by decide))
  · exact absurd number (assigned .number (by decide))

end Truncated

/-- Between two positions of the array the parser returns exactly if it stays inside. -/
theorem recursiveparse_returns_iff (tokens : List CString) {ts te : Nat} (order : ts ≤ te)
    (bound : te ≤ tokens.length) :
    (∃ config, recursiveparse tokens ts te = .ok config) ↔
      Inside (recursiveparseIndices tokens ts te) tokens.length := by
  have returns := statements_returns_iff (te - ts) ts 0 ((tokens.drop ts).take (te - ts))
    (tokens.drop te)
  rw [StatementsInside, List.length_take, List.length_drop, List.length_drop] at returns
  have size : ts + min (te - ts) (tokens.length - ts) + (tokens.length - te) = tokens.length := by
    omega
  rw [size] at returns
  exact returns

theorem recursiveparse_inside_iff (tokens : List CString) :
    Inside (recursiveparseIndices tokens 0 tokens.length) tokens.length ↔
      ¬ EndsInSign 0 tokens := by
  have whole := statements_inside_iff tokens.length 0 0 tokens (Nat.le_refl _)
  rw [StatementsInside, Nat.zero_add, List.length_nil, Nat.add_zero] at whole
  rw [recursiveparseIndices, Nat.sub_zero, List.drop_zero, List.take_length, List.drop_length,
    whole]

/-- For every sequence of tokens: the checks use the indices of tokens only, and so does the
parser once the checks have let the sequence through, and files that are cut off behind a
keyword, its `=` or its brace are not let through, if and only if no look ahead misses a
token. -/
theorem readsInside_iff (tokens : List CString) : ReadsInside tokens ↔ NothingMissing tokens := by
  have checks := validatetokens_inside_iff tokens
  have accepts := validatetokens_eq_zero_iff tokens
  have parser := recursiveparse_inside_iff tokens
  constructor
  · intro reads
    obtain ⟨blocks, arguments⟩ := checks.mp reads.checks
    exact {
      blocks := blocks
      arguments := arguments
      values := fun validated => parser.mp (reads.parser (accepts.mpr validated))
      unclosed := fun unclosed validated =>
        reads.truncated unclosed.truncated (accepts.mpr validated) }
  · intro nothing
    exact {
      checks := checks.mpr ⟨nothing.blocks, nothing.arguments⟩
      parser := fun accepted => parser.mpr (nothing.values (accepts.mp accepted))
      truncated := fun truncated accepted =>
        nothing.unclosed (truncated.unclosed (accepts.mp accepted)) (accepts.mp accepted) }

/-- Behind the name of a block alone the check of the types goes past the end, and behind the
name of a policy that of the arguments. Where a name has only its `=`, the checks accept and
the parser goes past the end. A name alone is accepted. -/
theorem readsInside_fails :
    (scanTokens (text "device ") = some [text "device"] ∧ ¬ ReadsInside [text "device"]) ∧
    (scanTokens (text "policy ") = some [text "policy"] ∧ ¬ ReadsInside [text "policy"]) ∧
    (scanTokens (text "interface = ") = some [text "interface", [equals]] ∧
      validatetokens [text "interface", [equals]] = .ok 0 ∧
      ¬ ReadsInside [text "interface", [equals]]) ∧
    (scanTokens (text "interface ") = some [text "interface"] ∧
      ¬ ReadsInside [text "interface"]) := by
  refine ⟨⟨by decide, ?_⟩, ⟨by decide, ?_⟩, ⟨by decide, by decide, ?_⟩, by decide, ?_⟩
  · exact fun reads => absurd (reads.checks 1 (by decide)) (by decide)
  · exact fun reads => absurd (reads.checks 2 (by decide)) (by decide)
  · exact fun reads => absurd (reads.parser (by decide) 2 (by decide)) (by decide)
  · intro reads
    have truncated : Truncated [text "interface"] :=
      ⟨[], text "interface", [], rfl, (fun _ none => nomatch none), by decide, by decide, by decide⟩
    exact reads.truncated truncated (by decide)

end Qaoed.Rcfg
