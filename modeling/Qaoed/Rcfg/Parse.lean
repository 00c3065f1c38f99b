import Qaoed.Config.Records
import Qaoed.Rcfg.Tokenize

/-!
# Statements out of tokens

`recursiveparse` makes a tree of the tokens between two positions. It tells a statement
by the token behind its name, looks for the brace that ends a block with a counter that
all blocks of the range share, and takes an assignment for four tokens without looking
at the last one.
-/

namespace Qaoed.Rcfg

open Qaoed.Device
open Qaoed.Library
open Qaoed.Config

/-- The loop that looks for the end of a block, `j` tokens behind its opening brace: the
counter it leaves, and where the end is. -/
def findEnd : Int → Nat → List CString → Int × Option Nat
  | cbc, _, [] => (cbc, none)
  | cbc, j, token :: rest =>
      if firstByte token = openBrace then findEnd (cbc + 1) (j + 1) rest
      else if firstByte token = closeBrace then
        if cbc - 1 = 0 then (0, some j) else findEnd (cbc - 1) (j + 1) rest
      else findEnd cbc (j + 1) rest

/-- The loop over a range of tokens, with those behind it: the right side of an assignment
is read wherever it is. The fuel is the length of the range at least. -/
def statements : Nat → Int → List CString → List CString → Except Stop Cfg
  | fuel + 1, cbc, lvalue :: sign :: rest, behind =>
      if firstByte sign = openBrace then
        match findEnd (cbc + 1) 0 rest with
        | (cbc, some j) => do
            let block ← statements fuel 0 (rest.take j) (rest.drop j ++ behind)
            let next ← statements fuel cbc (rest.drop (j + 1)) behind
            return .block lvalue block next
        -- without an end the counter stays raised
        | (cbc, none) => statements fuel cbc (sign :: rest) behind
      else if firstByte sign = equals then
        match rest ++ behind with
        | [] => .error .crash
        | rvalue :: _ => do
            let next ← statements fuel cbc (rest.drop 2) behind
            return .assignment lvalue rvalue next
      else statements fuel cbc (sign :: rest) behind
  | _, _, _, _ => .ok .null

def recursiveparse (tokens : List CString) (ts te : Nat) : Except Stop Cfg :=
  statements (te - ts) 0 ((tokens.drop ts).take (te - ts)) (tokens.drop te)

/-- The tree with a header that has the name of the file. -/
def processtokens (tokens : List CString) (filename : CString) : Except Stop Cfg := do
  let block ← recursiveparse tokens 0 tokens.length
  return .block filename block .null

/-! ## Printing -/

/-- The tokens of a tree. -/
def flatten : Cfg → List CString
  | .null => []
  | .assignment lvalue rvalue next => lvalue :: [equals] :: rvalue :: [semicolon] :: flatten next
  | .block lvalue block next =>
      lvalue :: [openBrace] :: (flatten block ++ [closeBrace] :: flatten next)

/-- A token that the parser takes for a name, or for a value. -/
structure Plain (token : CString) : Prop where
  notEmpty : token ≠ []
  notOpen : firstByte token ≠ openBrace
  notClose : firstByte token ≠ closeBrace
  notEquals : firstByte token ≠ equals

/-- Names and values of a tree are plain, at any depth. -/
def Printable : Cfg → Prop
  | .null => True
  | .assignment lvalue rvalue next => Plain lvalue ∧ Plain rvalue ∧ Printable next
  | .block lvalue block next => Plain lvalue ∧ Printable block ∧ Printable next

section RoundTrip

theorem findEnd_plain {token : CString} (plain : Plain token) (cbc : Int) (j : Nat)
    (rest : List CString) : findEnd cbc j (token :: rest) = findEnd cbc (j + 1) rest := by
  rw [findEnd, if_neg plain.notOpen, if_neg plain.notClose]

theorem findEnd_other {token : CString} (notOpen : firstByte token ≠ openBrace)
    (notClose : firstByte token ≠ closeBrace) (cbc : Int) (j : Nat) (rest : List CString) :
    findEnd cbc j (token :: rest) = findEnd cbc (j + 1) rest := by
  rw [findEnd, if_neg notOpen, if_neg notClose]

/-- The braces of a tree cancel out: the search for the end of a block passes over it. -/
theorem findEnd_flatten {config : Cfg} (printable : Printable config) {cbc : Int} (inside : 0 < cbc)
    (j : Nat) (rest : List CString) :
    findEnd cbc j (flatten config ++ rest) = findEnd cbc (j + (flatten config).length) rest := by
  induction config generalizing cbc j rest with
  | null => rfl
  | assignment lvalue rvalue next ih =>
      obtain ⟨name, value, printableNext⟩ := printable
      simp only [flatten, List.cons_append]
      rw [findEnd_plain name, findEnd_other (by decide) (by decide), findEnd_plain value,
        findEnd_other (by decide) (by decide), ih printableNext inside]
      congr 1
      simp only [List.length_cons]
      omega
  | block lvalue block next ihBlock ihNext =>
      obtain ⟨name, printableBlock, printableNext⟩ := printable
      simp only [flatten, List.cons_append, List.append_assoc]
      have opens (j : Nat) (rest : List CString) :
          findEnd cbc j ([openBrace] :: rest) = findEnd (cbc + 1) (j + 1) rest := by
        rw [findEnd, if_pos (firstByte_cons _ _)]
      have closes (j : Nat) (rest : List CString) :
          findEnd (cbc + 1) j ([closeBrace] :: rest) = findEnd cbc (j + 1) rest := by
        rw [findEnd, if_neg (by decide), if_pos (firstByte_cons _ _), if_neg (by omega),
          Int.add_sub_cancel]
      rw [findEnd_plain name, opens, ihBlock printableBlock (by omega), closes,
        ihNext printableNext inside]
      congr 1
      simp only [List.length_cons, List.length_append]
      omega

/-- The counter is down again behind each block, so that each is found to its own end. -/
theorem statements_flatten {config : Cfg} (printable : Printable config) {fuel : Nat}
    (enough : (flatten config).length ≤ fuel) (behind : List CString) :
    statements fuel 0 (flatten config) behind = .ok config := by
  induction config generalizing fuel behind with
  | null =>
      cases fuel with
      | zero => rfl
      | succ fuel => rfl
  | assignment lvalue rvalue next ih =>
      obtain ⟨_, _, printableNext⟩ := printable
      simp only [flatten, List.length_cons] at enough ⊢
      obtain ⟨fuel, rfl⟩ := Nat.exists_eq_add_one_of_ne_zero (show fuel ≠ 0 by omega)
      have rest : statements fuel 0 (flatten next) behind = .ok next :=
        ih printableNext (by omega) behind
      rw [statements, if_neg (by decide), if_pos (firstByte_cons _ _)]
      simp only [List.cons_append, List.drop_succ_cons, List.drop_zero, rest]
      rfl
  | block lvalue block next ihBlock ihNext =>
      obtain ⟨_, printableBlock, printableNext⟩ := printable
      simp only [flatten, List.length_cons, List.length_append] at enough ⊢
      obtain ⟨fuel, rfl⟩ := Nat.exists_eq_add_one_of_ne_zero (show fuel ≠ 0 by omega)
      have ends : findEnd (0 + 1) 0 (flatten block ++ [closeBrace] :: flatten next) =
          (0, some (flatten block).length) := by
        rw [findEnd_flatten printableBlock (by decide), Nat.zero_add]
        rfl
      have body (behind : List CString) : statements fuel 0 (flatten block) behind = .ok block :=
        ihBlock printableBlock (by omega) behind
      have rest : statements fuel 0 (flatten next) behind = .ok next :=
        ihNext printableNext (by omega) behind
      rw [statements, if_pos (firstByte_cons _ _), ends]
      simp only [List.take_left, List.drop_left, body, List.drop_length_add_append,
        List.drop_succ_cons, List.drop_zero, rest]
      rfl

theorem recursiveparse_printed {config : Cfg} (printable : Printable config) :
    recursiveparse (flatten config) 0 (flatten config).length = .ok config := by
  rw [recursiveparse, Nat.sub_zero, List.drop_zero, List.take_length]
  exact statements_flatten printable (Nat.le_refl _) _

end RoundTrip

/-- Whatever a tree has in it, parsing the tokens of it gives it back, under the header
of its file. -/
theorem recursiveparse_flatten (config : Cfg) (filename : CString) (printable : Printable config) :
    recursiveparse (flatten config) 0 (flatten config).length = .ok config ∧
    processtokens (flatten config) filename = .ok (.block filename config .null) := by
  have parsed := recursiveparse_printed printable
  refine ⟨parsed, ?_⟩
  rw [processtokens, parsed]
  rfl

/-- A tree with a block that is empty, and one that holds a statement. -/
def twoBlocks : Cfg :=
  .block (text "acl") .null
    (.block (text "device") (.assignment (text "slot") (text "1") .null) .null)

theorem recursiveparse_flatten_twoBlocks :
    recursiveparse (flatten twoBlocks) 0 (flatten twoBlocks).length = .ok twoBlocks :=
  (recursiveparse_flatten twoBlocks (text "qaoed.conf")
    ⟨⟨by decide, by decide, by decide, by decide⟩, trivial,
      ⟨by decide, by decide, by decide, by decide⟩,
      ⟨⟨by decide, by decide, by decide, by decide⟩, ⟨by decide, by decide, by decide, by decide⟩,
        trivial⟩, trivial⟩).1

end Qaoed.Rcfg
