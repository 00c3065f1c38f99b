import Qaoed.Config.Text
import Mathlib.Data.List.Basic

/-!
# Tokens out of a text

`tokenize` takes a file line by line. It skips blanks, and comments that may go on over
several lines, and walks to the end of each token with a look at the byte it is on and the
one behind it. A line is a C string: a zero byte hides the rest of it.
-/

namespace Qaoed.Rcfg

open Qaoed.Device
open Qaoed.Config

/-! ## Bytes -/

def tab : UInt8 := 0x09
def newline : UInt8 := 0x0a
def carriageReturn : UInt8 := 0x0d
def space : UInt8 := 0x20
def quote : UInt8 := 0x22
def hash : UInt8 := 0x23
def star : UInt8 := 0x2a
def slash : UInt8 := 0x2f
def semicolon : UInt8 := 0x3b
def equals : UInt8 := 0x3d
def openBrace : UInt8 := 0x7b
def closeBrace : UInt8 := 0x7d

def isBlank (byte : UInt8) : Bool := byte == space || byte == tab

def isDelimiter (byte : UInt8) : Bool :=
  byte == semicolon || byte == equals || byte == openBrace || byte == closeBrace

/-- The first byte, which is the zero byte if there is no other. -/
def firstByte (token : CString) : UInt8 := token.headD 0

@[simp] theorem firstByte_cons (byte : UInt8) (token : CString) : firstByte (byte :: token) = byte := rfl

/-- The bytes that a token does not go on to, or from. -/
def stopsAt (byte : UInt8) : Bool :=
  byte == hash || isDelimiter byte || byte == newline || byte == carriageReturn || byte == tab

def endsLine (byte : UInt8) : Bool := byte == 0 || byte == carriageReturn || byte == newline

/-! ## One line -/

/-- Past the end of a comment, or to the end of the line. -/
def endComment : List UInt8 → Bool × List UInt8
  | [] => (false, [])
  | [_] => (false, [])
  | byte :: next :: line =>
      if byte = star ∧ next = slash then (true, line) else endComment (next :: line)

/-- From the first byte of a token to its last one, and what is behind it. Between
quotation marks blanks belong to the token; a mark is counted when the walk looks at it,
and when it leaves it. -/
def walk : Bool → List UInt8 → Bool × List UInt8 × List UInt8
  | quotation, [] => (quotation, [], [])
  | quotation, [byte] => (quotation, [byte], [])
  | quotation, byte :: next :: line =>
      if stopsAt next || stopsAt byte then (quotation, [byte], next :: line)
      else if next = space ∧ quotation = false then (quotation, [byte], next :: line)
      else
        let marked := byte == quote || next == quote
        let (quotation, token, behind) := walk (quotation ^^ marked) (next :: line)
        (quotation, byte :: token, behind)

/-- A token without the quotation marks around it. `tlen` is one less than its length. -/
def unquote (token : List UInt8) : Option CString :=
  let tlen : Int := token.length - 1
  let (tstart, tlen) := if firstByte token = quote then (token.tail, tlen - 1) else (token, tlen)
  let tlen := if token.getLast? = some quote then tlen - 1 else tlen
  if tlen < 0 then none else some (tstart.take (tlen + 1).toNat)

/-- What `tokenize` keeps from line to line. -/
structure Scanner where
  comment : Bool
  quotation : Bool
  tokens : List CString
  deriving DecidableEq, Repr

/-- Whether a comment goes on, or begins. -/
def inComment (scanner : Scanner) (p : List UInt8) : Bool :=
  scanner.comment || (p.head? == some slash && p.tail.head? == some star)

/-- From the label `start` to the end of the line, which the fuel is enough for if it is
not less than the length. A token that ends in front of its beginning is given up, with
all others. -/
def scanFrom : Nat → Scanner → List UInt8 → Option Scanner
  | 0, scanner, _ => some scanner
  | fuel + 1, scanner, line =>
      let p := line.dropWhile isBlank
      if endsLine (firstByte p) then some scanner
      else if inComment scanner p then
        let (closed, p) := endComment p
        scanFrom fuel { scanner with comment := !closed } p
      else
        let (quotation, token, p) := walk scanner.quotation p
        let last := token.getLast?.getD 0
        if endsLine last || last == hash then some { scanner with quotation := quotation }
        else
          match unquote token with
          | none => none
          | some token =>
              scanFrom fuel { scanner with quotation := quotation, tokens := scanner.tokens ++ [token] } p

/-- A line up to the first zero byte. -/
def cstring (line : List UInt8) : List UInt8 := line.takeWhile fun byte => byte != 0

def scanLine (scanner : Scanner) (line : List UInt8) : Option Scanner :=
  scanFrom line.length scanner (cstring line)

/-! ## All lines -/

/-- A line with its end, or as much of it as there is room for, and what is left. -/
def fgets : Nat → List UInt8 → List UInt8 × List UInt8
  | 0, text => ([], text)
  | _, [] => ([], [])
  | room + 1, byte :: text =>
      if byte = newline then ([byte], text)
      else
        let (line, text) := fgets room text
        (byte :: line, text)

/-- All that is read until the end of the file, with room for 398 bytes each time. -/
def readLines : Nat → List UInt8 → List (List UInt8)
  | fuel + 1, byte :: text =>
      let (line, text) := fgets 398 (byte :: text)
      line :: readLines fuel text
  | _, _ => []

def scan (text : List UInt8) : Option Scanner :=
  (readLines text.length text).foldlM scanLine ⟨false, false, []⟩

/-- The tokens before they are validated, unless NULL is returned: an array that was not
allocated has none. -/
def scanTokens (text : List UInt8) : Option (List CString) :=
  match scan text with
  | none => none
  | some scanner => if scanner.comment then none else some scanner.tokens

/-! ## The rest of a line -/

/-- The string in a buffer ends in front of the first zero byte. -/
theorem not_mem_cstring (line : List UInt8) : 0 ∉ cstring line := by
  intro member
  simpa using List.mem_takeWhile_imp member

theorem endComment_length (line : List UInt8) : (endComment line).2.length ≤ line.length - 1 := by
  induction line with
  | nil => exact Nat.le_refl _
  | cons byte line ih =>
      cases line with
      | nil => exact Nat.zero_le _
      | cons next line =>
          rw [endComment]
          split_ifs
          · simp only [List.length_cons]
            omega
          · simp only [List.length_cons] at ih ⊢
            omega

theorem walk_length (quotation : Bool) (line : List UInt8) :
    (walk quotation line).2.2.length ≤ line.length - 1 := by
  induction line generalizing quotation with
  | nil => exact Nat.le_refl _
  | cons byte line ih =>
      cases line with
      | nil => exact Nat.zero_le _
      | cons next line =>
          rw [walk]
          split_ifs
          · exact Nat.le_refl _
          · exact Nat.le_refl _
          · exact Nat.le_trans (ih _) (Nat.sub_le _ _)

theorem walk_split (quotation : Bool) (line : List UInt8) :
    (walk quotation line).2.1 ++ (walk quotation line).2.2 = line := by
  induction line generalizing quotation with
  | nil => rfl
  | cons byte line ih =>
      cases line with
      | nil => rfl
      | cons next line =>
          rw [walk]
          split_ifs
          · rfl
          · rfl
          · exact congrArg (byte :: ·) (ih _)

/-- A token has the byte it begins with. -/
theorem walk_begins (quotation : Bool) (byte : UInt8) (line : List UInt8) :
    ∃ token, (walk quotation (byte :: line)).2.1 = byte :: token := by
  cases line with
  | nil => exact ⟨[], rfl⟩
  | cons next line =>
      rw [walk]
      split_ifs
      · exact ⟨[], rfl⟩
      · exact ⟨[], rfl⟩
      · exact ⟨_, rfl⟩

/-- One more unit of fuel changes nothing once it is enough. -/
theorem scanFrom_succ {fuel : Nat} {line : List UInt8} (enough : line.length ≤ fuel)
    (scanner : Scanner) : scanFrom (fuel + 1) scanner line = scanFrom fuel scanner line := by
  induction fuel generalizing scanner line with
  | zero =>
      rw [List.length_eq_zero_iff.mp (Nat.le_zero.mp enough)]
      rfl
  | succ fuel ih =>
      have shorter : (line.dropWhile isBlank).length ≤ line.length :=
        (List.dropWhile_suffix isBlank).length_le
      rw [scanFrom, scanFrom]
      dsimp only
      have comment := endComment_length (line.dropWhile isBlank)
      have token := walk_length scanner.quotation (line.dropWhile isBlank)
      rw [ih (by omega)]
      split_ifs
      · rfl
      · rfl
      · rfl
      · split
        · rfl
        · exact ih (Nat.le_trans token (by omega)) _

theorem scanFrom_enough {fuel : Nat} {line : List UInt8} (enough : line.length ≤ fuel)
    (scanner : Scanner) : scanFrom fuel scanner line = scanFrom line.length scanner line := by
  induction fuel, enough using Nat.le_induction with
  | base => rfl
  | succ fuel enough ih => rw [scanFrom_succ enough, ih]

/-- The scanner at the label `start`, with enough fuel for the rest of the line. -/
def scanRest (scanner : Scanner) (line : List UInt8) : Option Scanner :=
  scanFrom line.length scanner line

section Start

variable {scanner : Scanner} {line : List UInt8}

theorem scanRest_end (ends : endsLine (firstByte (line.dropWhile isBlank)) = true) :
    scanRest scanner line = some scanner := by
  cases line with
  | nil => rfl
  | cons byte line =>
      rw [scanRest, List.length_cons, scanFrom]
      dsimp only
      rw [if_pos ends]

theorem scanFrom_one (scanner : Scanner) (line : List UInt8) :
    scanRest scanner line = scanFrom (line.length + 1) scanner line :=
  (scanFrom_succ (Nat.le_refl _) scanner).symm

theorem scanRest_blank {byte : UInt8} (blank : isBlank byte = true) :
    scanRest scanner (byte :: line) = scanRest scanner line := by
  rw [scanRest, List.length_cons, scanFrom_one, scanFrom, scanFrom, List.dropWhile_cons_of_pos blank]

variable {p : List UInt8}

theorem scanRest_comment (skipped : line.dropWhile isBlank = p)
    (goesOn : endsLine (firstByte p) = false) (comment : inComment scanner p = true) :
    scanRest scanner line =
      scanRest { scanner with comment := !(endComment p).1 } (endComment p).2 := by
  have shorter : p.length ≤ line.length := by
    rw [← skipped]
    exact (List.dropWhile_suffix isBlank).length_le
  have progress := endComment_length p
  rw [scanFrom_one, scanFrom, skipped]
  dsimp only
  rw [goesOn, if_neg Bool.false_ne_true, if_pos comment]
  exact scanFrom_enough (by omega) _

theorem scanRest_remark (skipped : line.dropWhile isBlank = p)
    (goesOn : endsLine (firstByte p) = false) (comment : inComment scanner p = false)
    {last : UInt8} (ends : (walk scanner.quotation p).2.1.getLast? = some last)
    (remark : (endsLine last || last == hash) = true) :
    scanRest scanner line = some { scanner with quotation := (walk scanner.quotation p).1 } := by
  rw [scanFrom_one, scanFrom, skipped]
  dsimp only
  rw [goesOn, if_neg Bool.false_ne_true, if_neg (Bool.eq_false_iff.mp comment)]
  simp only [ends, Option.getD_some, remark, if_true]

theorem scanRest_token (skipped : line.dropWhile isBlank = p)
    (goesOn : endsLine (firstByte p) = false) (comment : inComment scanner p = false)
    {last : UInt8} (ends : (walk scanner.quotation p).2.1.getLast? = some last)
    (inside : (endsLine last || last == hash) = false) :
    scanRest scanner line = match unquote (walk scanner.quotation p).2.1 with
      | none => none
      | some token => scanRest { scanner with
          quotation := (walk scanner.quotation p).1
          tokens := scanner.tokens ++ [token] } (walk scanner.quotation p).2.2 := by
  have shorter : p.length ≤ line.length := by
    rw [← skipped]
    exact (List.dropWhile_suffix isBlank).length_le
  have progress := walk_length scanner.quotation p
  rw [scanFrom_one, scanFrom, skipped]
  dsimp only
  rw [goesOn, if_neg Bool.false_ne_true, if_neg (Bool.eq_false_iff.mp comment)]
  simp only [ends, Option.getD_some, inside, Bool.false_eq_true, if_false]
  cases unquote (walk scanner.quotation p).2.1 with
  | none => rfl
  | some token => exact scanFrom_enough (Nat.le_trans progress (by omega)) _

end Start

/-! ## What tokens look like -/

/-- A word: no delimiter is part of it. -/
structure Undelimited (token : CString) : Prop where
  notEmpty : token ≠ []
  bytes : ∀ byte ∈ token, isDelimiter byte = false

/-- A delimiter, or a word. -/
inductive IsToken : CString → Prop
  | delimiter {byte : UInt8} : isDelimiter byte = true → IsToken [byte]
  | word {token : CString} : Undelimited token → IsToken token

section Tokens

/-- A byte of another kind. -/
theorem not_mem_singleton {kind : UInt8 → Bool} {byte other : UInt8} (holds : kind byte = true)
    (fails : kind other = false) : other ∉ [byte] := by
  intro member
  rw [List.mem_singleton.mp member, holds] at fails
  cases fails

theorem isDelimiter_cases {byte : UInt8} (delimiter : isDelimiter byte = true) :
    byte = semicolon ∨ byte = equals ∨ byte = openBrace ∨ byte = closeBrace := by
  simpa [isDelimiter, or_assoc] using delimiter

theorem unquote_plain {token : CString} (notEmpty : token ≠ []) (plain : quote ∉ token) :
    unquote token = some token := by
  have first : firstByte token ≠ quote := by
    cases token with
    | nil => decide
    | cons byte token => exact fun same => plain (same ▸ List.mem_cons_self)
  have last : token.getLast? ≠ some quote := fun same => plain (List.mem_of_getLast? same)
  have length := List.length_pos_iff.mpr notEmpty
  unfold unquote
  simp only [first, last, if_false]
  rw [if_neg (by omega), Int.sub_add_cancel, Int.toNat_natCast, List.take_length]

/-- From a byte that no token goes on from. -/
theorem walk_stop {byte : UInt8} (stops : stopsAt byte = true) (quotation : Bool) (line : List UInt8) :
    walk quotation (byte :: line) = (quotation, [byte], line) := by
  cases line with
  | nil => rfl
  | cons next line => rw [walk, stops, Bool.or_true, if_pos rfl]

theorem walk_delimiter {byte : UInt8} {line : List UInt8} (delimiter : isDelimiter byte = true)
    (quotation : Bool) : walk quotation (byte :: line) = (quotation, [byte], line) :=
  walk_stop (by simp [stopsAt, delimiter]) quotation line

/-- The walk does not go on to what stops it. -/
theorem walk_inside {quotation : Bool} {byte : UInt8} {line : List UInt8} :
    ∀ other ∈ (walk quotation (byte :: line)).2.1, other = byte ∨ stopsAt other = false := by
  induction line generalizing quotation byte with
  | nil =>
      intro other member
      exact .inl (List.mem_singleton.mp member)
  | cons next line ih =>
      intro other member
      rw [walk] at member
      split_ifs at member with stops blank
      · exact .inl (List.mem_singleton.mp member)
      · exact .inl (List.mem_singleton.mp member)
      · rcases List.mem_cons.mp member with rfl | member
        · exact .inl rfl
        · rw [Bool.not_eq_true, Bool.or_eq_false_iff] at stops
          rcases ih other member with rfl | inside
          · exact .inr stops.1
          · exact .inr inside

/-- The walk stops in front of a delimiter. -/
theorem walk_undelimited {quotation : Bool} {byte : UInt8} {line : List UInt8}
    (plain : isDelimiter byte = false) :
    ∀ other ∈ (walk quotation (byte :: line)).2.1, isDelimiter other = false := by
  intro other member
  rcases walk_inside other member with rfl | inside
  · exact plain
  · simp only [stopsAt, Bool.or_eq_false_iff] at inside
    exact inside.1.1.1.2

theorem undelimited_take {part : List UInt8} {tlen : Int}
    (plain : ∀ byte ∈ part, isDelimiter byte = false) (notShort : ¬ tlen < 0)
    (inside : tlen < part.length) : Undelimited (part.take (tlen + 1).toNat) where
  notEmpty := by
    rw [← List.length_pos_iff, List.length_take]
    omega
  bytes byte member := plain byte (List.mem_of_mem_take member)

theorem unquote_undelimited {token result : CString} (plain : ∀ byte ∈ token, isDelimiter byte = false)
    (returns : unquote token = some result) : Undelimited result := by
  have tail : ∀ byte ∈ token.tail, isDelimiter byte = false := fun byte member =>
    plain byte (List.mem_of_mem_tail member)
  have shorter := @List.length_tail _ token
  unfold unquote at returns
  by_cases first : firstByte token = quote
  · simp only [first, if_true] at returns
    split_ifs at returns with last short short
    · cases returns
      exact undelimited_take tail short (by omega)
    · cases returns
      exact undelimited_take tail short (by omega)
  · simp only [first, if_false] at returns
    split_ifs at returns with last short short
    · cases returns
      exact undelimited_take plain short (by omega)
    · cases returns
      exact undelimited_take plain short (by omega)

theorem scanFrom_tokens {fuel : Nat} {scanner scanner' : Scanner} {line : List UInt8}
    (tokens : ∀ token ∈ scanner.tokens, IsToken token)
    (returns : scanFrom fuel scanner line = some scanner') :
    ∀ token ∈ scanner'.tokens, IsToken token := by
  induction fuel generalizing scanner line with
  | zero =>
      cases returns
      exact tokens
  | succ fuel ih =>
      rw [scanFrom] at returns
      dsimp only at returns
      split_ifs at returns with ends comment stays
      · cases returns
        exact tokens
      · exact @ih { scanner with comment := !(endComment (line.dropWhile isBlank)).1 } _ tokens returns
      · cases returns
        exact tokens
      · cases taken : unquote (walk scanner.quotation (line.dropWhile isBlank)).2.1 with
        | none =>
            rw [taken] at returns
            cases returns
        | some token =>
            rw [taken] at returns
            refine @ih { scanner with
              quotation := (walk scanner.quotation (line.dropWhile isBlank)).1
              tokens := scanner.tokens ++ [token] } _ ?_ returns
            intro other member
            rcases List.mem_append.mp member with old | new
            · exact tokens other old
            · rw [List.mem_singleton.mp new]
              cases rest : line.dropWhile isBlank with
              | nil =>
                  rw [rest] at ends
                  exact absurd rfl ends
              | cons byte rest' =>
                  rw [rest] at taken
                  cases delimiter : isDelimiter byte with
                  | true =>
                      have notQuote : quote ∉ [byte] := not_mem_singleton delimiter rfl
                      rw [walk_delimiter delimiter,
                        unquote_plain (List.cons_ne_nil _ _) notQuote] at taken
                      cases taken
                      exact .delimiter delimiter
                  | false => exact .word (unquote_undelimited (walk_undelimited delimiter) taken)

/-- Whatever the text is, each token of it is a delimiter or a word. -/
theorem scanTokens_isToken {text : List UInt8} {tokens : List CString}
    (scanned : scanTokens text = some tokens) : ∀ token ∈ tokens, IsToken token := by
  have lines (lines : List (List UInt8)) (scanner scanner' : Scanner)
      (before : ∀ token ∈ scanner.tokens, IsToken token)
      (returns : lines.foldlM scanLine scanner = some scanner') :
      ∀ token ∈ scanner'.tokens, IsToken token := by
    induction lines generalizing scanner with
    | nil =>
        cases returns
        exact before
    | cons line lines ih =>
        rw [List.foldlM_cons] at returns
        obtain ⟨middle, first, later⟩ := Option.bind_eq_some_iff.mp returns
        exact ih middle (scanFrom_tokens before first) later
  unfold scanTokens at scanned
  cases returns : scan text with
  | none =>
      rw [returns] at scanned
      cases scanned
  | some scanner =>
      rw [returns] at scanned
      dsimp only at scanned
      split_ifs at scanned
      cases scanned
      exact lines _ _ _ (List.forall_mem_nil _) returns

end Tokens

end Qaoed.Rcfg
