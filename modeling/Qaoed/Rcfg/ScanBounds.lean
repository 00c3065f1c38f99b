import Qaoed.Rcfg.Include
import Qaoed.Rcfg.Layout

/-!
# The scan in memory

`tokenize` scans a line with pointers into a buffer, copies tokens out of it, and writes them
into an array that it makes larger when it is full. Here is the scan with its offsets. It has
no result where a byte behind the end of the string is inspected or copied, where a token is
written behind the end of the array, or where a loop does not end.
-/

namespace Qaoed.Rcfg

open Qaoed.Device
open Qaoed.Library
open Qaoed.Config

/-! ## The buffer -/

/-- The byte at an offset of a string, up to the zero byte that ends it. -/
def inspect (line : List UInt8) (p : Nat) : Option UInt8 := (line ++ [0])[p]?

/-- `memcpy` from an offset of a string. -/
def copy (line : List UInt8) (p count : Nat) : Option (List UInt8) :=
  if p + count ≤ line.length then some ((line.drop p).take count) else none

/-! ## The array -/

/-- `struct tok`: `tokidx` is the number of tokens. -/
structure TokenArray where
  tokens : List CString
  tokmax : Nat
  deriving DecidableEq, Repr

def TokenArray.write (array : TokenArray) (token : CString) : Option TokenArray :=
  if array.tokens.length < array.tokmax then some { array with tokens := array.tokens ++ [token] }
  else none

/-- The array of the first token has room for ten, and one that is nearly full becomes larger. -/
def roomFor (tokens : Option TokenArray) : TokenArray :=
  let array := tokens.getD ⟨[], 10⟩
  if array.tokens.length ≥ array.tokmax - 1 then { array with tokmax := array.tokens.length + 10 }
  else array

/-- What is kept from line to line. The array is NULL before the first token. -/
structure ArrayScanner where
  comment : Bool
  quotation : Bool
  tokens : Option TokenArray
  deriving DecidableEq, Repr

/-! ## One line -/

section Line

variable (line : List UInt8)

def skipBlanks : Nat → Nat → Option Nat
  | 0, _ => none
  | fuel + 1, p =>
      (inspect line p).bind fun byte => if isBlank byte then skipBlanks fuel (p + 1) else some p

/-- Two bytes in a row; the second one is inspected if the first one is there. -/
def inspectPair (first second : UInt8) (p : Nat) : Option Bool :=
  (inspect line p).bind fun byte =>
    if byte = first then (inspect line (p + 1)).map (· == second) else some false

/-- To the end of a comment, or of the string. -/
def toCommentEnd : Nat → Nat → Option Nat
  | 0, _ => none
  | fuel + 1, p =>
      (inspectPair line star slash p).bind fun closes =>
        if closes then some p
        else (inspect line p).bind fun byte => if byte ≠ 0 then toCommentEnd fuel (p + 1) else some p

/-- From the first byte of a token to its last one. -/
def walkEnd : Nat → Bool → Nat → Option (Bool × Nat)
  | 0, _, _ => none
  | fuel + 1, quotation, tend =>
      (inspect line (tend + 1)).bind fun next =>
        if next = 0 ∨ stopsAt next then some (quotation, tend)
        else
          (inspect line tend).bind fun byte =>
            if stopsAt byte then some (quotation, tend)
            else if next = space ∧ quotation = false then some (quotation, tend)
            else walkEnd fuel (quotation ^^ (byte == quote || next == quote)) (tend + 1)

/-- The token between two offsets without the quotation marks around it. -/
def copyToken (tstart tend : Nat) : Option (Option CString) :=
  (inspect line tstart).bind fun first =>
    (inspect line tend).bind fun last =>
      let tlen : Int := tend - tstart
      let (tstart, tlen) := if first = quote then (tstart + 1, tlen - 1) else (tstart, tlen)
      let tlen := if last = quote then tlen - 1 else tlen
      if tlen < 0 then some none else (copy line tstart (tlen + 1).toNat).map some

/-- Where the scan goes on: with the next line, at the label `start`, or nowhere. -/
inductive Next where
  | nextLine (state : ArrayScanner)
  | start (state : ArrayScanner) (p : Nat)
  | null
  deriving DecidableEq, Repr

/-- From the label `start` to the next one. -/
def fromStart (state : ArrayScanner) (p : Nat) : Option Next := do
  let p ← skipBlanks line (line.length + 1) p
  let byte ← inspect line p
  if endsLine byte then return .nextLine state
  else if ← (if state.comment then some true else inspectPair line slash star p) then
    let p ← toCommentEnd line (line.length + 1) p
    if ← inspectPair line star slash p then return .start { state with comment := false } (p + 2)
    else return .start { state with comment := true } p
  else
    let (quotation, tend) ← walkEnd line (line.length + 1) state.quotation p
    let last ← inspect line tend
    if endsLine last || last == hash then return .nextLine { state with quotation := quotation }
    else
      match ← copyToken line p tend with
      | none => return .null
      | some token =>
          let tokens ← (roomFor state.tokens).write token
          return .start { state with quotation := quotation, tokens := some tokens } (tend + 1)

/-- The scan of a line; NULL is returned for a token that ends in front of its beginning. -/
def scanLineAt : Nat → ArrayScanner → Nat → Option (Option ArrayScanner)
  | 0, _, _ => none
  | fuel + 1, state, p =>
      (fromStart line state p).bind fun
        | .nextLine state => some (some state)
        | .start state p => scanLineAt fuel state p
        | .null => some none

end Line

def scanLinesAt : List (List UInt8) → ArrayScanner → Option (Option ArrayScanner)
  | [], state => some (some state)
  | line :: lines, state =>
      (scanLineAt (cstring line) ((cstring line).length + 1) state 0).bind fun
        | none => some none
        | some state => scanLinesAt lines state

/-! ## All files -/

/-- A call that does not return tokens, or writes behind the end of an array or a string. -/
inductive ArrayFailure where
  | failed (failure : Failure)
  | overrun
  deriving DecidableEq, Repr

abbrev TokenizedArray := Except ArrayFailure TokenArray

def acceptedArray (source : List UInt8) : TokenizedArray :=
  match scanLinesAt (readLines source.length source) ⟨false, false, none⟩ with
  | none => .error .overrun
  | some none => .error (.failed .null)
  | some (some state) =>
      if state.comment then .error (.failed .null)
      else
        match state.tokens with
        | none => .error (.failed .null)
        | some array =>
            if array.tokens = [] then .error (.failed .null)
            else
              match validatetokens array.tokens with
              | .error .exit => .error (.failed .exit)
              | .error .crash => .error (.failed .crash)
              | .ok result => if result ≠ 0 then .error (.failed .null) else .ok array

section Files

variable {File : Type*}

/-- The array becomes larger by the number of the new tokens, which are copied one by one. -/
def appendAllArray : List File → TokenArray → (TokenArray → Program File TokenizedArray) →
    Program File TokenizedArray
  | [], array, next => next array
  | file :: files, array, next =>
      .call file fun newtokens =>
        match newtokens with
        | .error failure => .done (.error failure)
        | .ok newtokens =>
            let array := { array with tokmax := array.tokmax + newtokens.tokens.length }
            match newtokens.tokens.foldlM TokenArray.write array with
            | none => .done (.error .overrun)
            | some array => appendAllArray files array next

variable (source : File → List UInt8) (glob : CString → List File)

def includeAllArray : List Nat → TokenArray → Program File TokenizedArray
  | [], array => .done (.ok array)
  | i :: indices, array =>
      if array.tokens[i]? = some (text "include") then
        match array.tokens[i + 2]? with
        | none => .done (.error (.failed .crash))
        | some pattern =>
            if glob pattern = [] then .done (.error (.failed .null))
            else appendAllArray (glob pattern) array (includeAllArray indices)
      else includeAllArray indices array

def tokenizeArrayBody (file : File) : Program File TokenizedArray :=
  match acceptedArray (source file) with
  | .error failure => .done (.error failure)
  | .ok array => includeAllArray glob (List.range array.tokens.length) array

/-- `tokenize` with its arrays, and calls up to a depth. -/
def tokenizeArray (depth : Nat) (file : File) : Option TokenizedArray :=
  Program.run (tokenizeArrayBody source glob) depth file

end Files

/-! ## The offsets stay inside -/

section Inside

variable {line : List UInt8} {p : Nat} {fuel : Nat}

/-- The zero byte is found where nothing is left. -/
theorem inspect_eq (inside : p ≤ line.length) : inspect line p = some (firstByte (line.drop p)) := by
  unfold inspect
  rcases Nat.lt_or_eq_of_le inside with before | rfl
  · rw [List.getElem?_append_left before, List.getElem?_eq_getElem before,
      List.drop_eq_getElem_cons before]
    rfl
  · rw [List.getElem?_append_right (Nat.le_refl _), Nat.sub_self, List.drop_length]
    rfl

theorem inside_of_drop {byte : UInt8} {rest : List UInt8} (here : line.drop p = byte :: rest) :
    p < line.length ∧ line.drop (p + 1) = rest := by
  constructor
  · by_contra outside
    rw [List.drop_eq_nil_of_le (Nat.le_of_not_lt outside)] at here
    cases here
  · rw [← List.drop_drop, here]
    rfl

theorem skipBlanks_eq (inside : p ≤ line.length) (enough : line.length - p < fuel) :
    ∃ p', skipBlanks line fuel p = some p' ∧ p ≤ p' ∧ p' ≤ line.length ∧
      line.drop p' = (line.drop p).dropWhile isBlank := by
  induction fuel generalizing p with
  | zero => cases enough
  | succ fuel ih =>
      rw [skipBlanks, inspect_eq inside, Option.bind_some]
      cases here : line.drop p with
      | nil => exact ⟨p, rfl, Nat.le_refl _, inside, here⟩
      | cons byte rest =>
          obtain ⟨before, behind⟩ := inside_of_drop here
          rw [firstByte_cons]
          cases blank : isBlank byte with
          | false =>
              rw [List.dropWhile_cons_of_neg (by simp [blank])]
              exact ⟨p, rfl, Nat.le_refl _, inside, here⟩
          | true =>
              obtain ⟨p', skips, later, inside', split⟩ := @ih (p + 1) before (by omega)
              rw [behind] at split
              rw [List.dropWhile_cons_of_pos blank]
              exact ⟨p', skips, by omega, inside', split⟩

theorem inspectPair_eq {first second : UInt8} (inside : p ≤ line.length) (notNul : first ≠ 0)
    (notNul' : second ≠ 0) :
    inspectPair line first second p =
      some ((line.drop p).head? == some first && (line.drop p).tail.head? == some second) := by
  rw [inspectPair, inspect_eq inside, Option.bind_some]
  cases here : line.drop p with
  | nil => rw [if_neg (show firstByte [] ≠ first from fun same => notNul same.symm)]; rfl
  | cons byte rest =>
      obtain ⟨before, behind⟩ := inside_of_drop here
      rw [firstByte_cons]
      by_cases same : byte = first
      · subst same
        rw [if_pos rfl, inspect_eq before, behind]
        cases rest with
        | nil => simp [firstByte, notNul'.symm]
        | cons next rest => simp [firstByte]
      · rw [if_neg same]
        simp [same]

theorem toCommentEnd_eq (visible : 0 ∉ line) (inside : p ≤ line.length)
    (enough : line.length - p < fuel) :
    ∃ p', toCommentEnd line fuel p = some p' ∧ p ≤ p' ∧ p' ≤ line.length ∧
      line.drop p' = if (endComment (line.drop p)).1 then
        star :: slash :: (endComment (line.drop p)).2 else [] := by
  induction fuel generalizing p with
  | zero => cases enough
  | succ fuel ih =>
      rw [toCommentEnd, inspectPair_eq inside (by decide) (by decide), Option.bind_some,
        inspect_eq inside, Option.bind_some]
      cases here : line.drop p with
      | nil => exact ⟨p, rfl, Nat.le_refl _, inside, here⟩
      | cons byte rest =>
          obtain ⟨before, behind⟩ := inside_of_drop here
          have notNul : byte ≠ 0 := by
            rintro rfl
            exact visible (List.mem_of_mem_drop (here ▸ List.mem_cons_self))
          obtain ⟨p', ends, later, inside', split⟩ := @ih (p + 1) before (by omega)
          rw [behind] at split
          rw [firstByte_cons, if_pos notNul]
          cases rest with
          | nil =>
              refine ⟨p', ?_, by omega, inside', split⟩
              simpa using ends
          | cons next rest =>
              rw [endComment]
              by_cases closes : byte = star ∧ next = slash
              · obtain ⟨rfl, rfl⟩ := closes
                exact ⟨p, rfl, Nat.le_refl _, inside, here⟩
              · rw [if_neg closes]
                refine ⟨p', ?_, by omega, inside', split⟩
                simpa [closes] using ends

theorem walkEnd_eq (visible : 0 ∉ line) {quotation : Bool} {byte : UInt8} {rest : List UInt8}
    (here : line.drop p = byte :: rest) (enough : line.length - p < fuel) :
    ∃ tend, walkEnd line fuel quotation p = some ((walk quotation (byte :: rest)).1, tend) ∧
      tend + 1 = p + (walk quotation (byte :: rest)).2.1.length ∧
      tend < line.length ∧ line.drop (tend + 1) = (walk quotation (byte :: rest)).2.2 := by
  induction fuel generalizing p quotation byte rest with
  | zero => cases enough
  | succ fuel ih =>
      obtain ⟨before, behind⟩ := inside_of_drop here
      have hereByte : inspect line p = some byte := by
        rw [inspect_eq (Nat.le_of_lt before), here]
        rfl
      rw [walkEnd, inspect_eq before, behind, Option.bind_some, hereByte, Option.bind_some]
      cases rest with
      | nil => exact ⟨p, rfl, rfl, before, behind⟩
      | cons next rest =>
          have notNul : next ≠ 0 := by
            rintro rfl
            exact visible (List.mem_of_mem_drop (behind ▸ List.mem_cons_self))
          rw [firstByte_cons, walk]
          cases stopsNext : stopsAt next with
          | true =>
              rw [if_pos (Or.inr rfl)]
              exact ⟨p, rfl, rfl, before, behind⟩
          | false =>
              rw [if_neg (by simp [notNul])]
              cases stopsByte : stopsAt byte with
              | true => exact ⟨p, rfl, rfl, before, behind⟩
              | false =>
                  simp only [Bool.or_self, Bool.false_eq_true, if_false]
                  by_cases blank : next = space ∧ quotation = false
                  · rw [if_pos blank, if_pos blank]
                    exact ⟨p, rfl, rfl, before, behind⟩
                  · rw [if_neg blank, if_neg blank]
                    obtain ⟨tend, walks, length, inside, split⟩ := @ih (p + 1)
                      (quotation ^^ (byte == quote || next == quote)) next rest behind (by omega)
                    exact ⟨tend, walks, length.trans (Nat.add_right_comm p 1 _), inside, split⟩

/-- The last byte of the token is the one where the walk ended. -/
theorem inspect_last {byte : UInt8} {token behind : List UInt8} {tend : Nat}
    (here : line.drop p = byte :: token ++ behind) (length : tend + 1 = p + (byte :: token).length)
    (inside : tend < line.length) : inspect line tend = (byte :: token).getLast? := by
  have index : tend = p + token.length := by
    rw [List.length_cons] at length
    omega
  rw [inspect, List.getElem?_append_left inside, index, ← List.getElem?_drop, here,
    List.getElem?_append_left (by simp), List.getLast?_eq_getElem?]
  rfl

/-- The token between the offsets, as the scan of the list has it. -/
theorem copyToken_eq {byte : UInt8} {token behind : List UInt8} {tend : Nat}
    (here : line.drop p = byte :: token ++ behind) (length : tend + 1 = p + (byte :: token).length)
    (inside : tend < line.length) : copyToken line p tend = some (unquote (byte :: token)) := by
  have before : p ≤ tend := by
    rw [List.length_cons] at length
    omega
  have first : inspect line p = some byte := by
    rw [inspect_eq (Nat.le_trans before (Nat.le_of_lt inside)), here]
    rfl
  have last := inspect_last here length inside
  have taken (skip count : Nat) (short : skip + count ≤ (byte :: token).length) :
      copy line (p + skip) count = some (((byte :: token).drop skip).take count) := by
    rw [copy, if_pos (by omega), ← List.drop_drop, here, List.drop_append_of_le_length (by omega),
      List.take_append_of_le_length]
    rw [List.length_drop]
    omega
  obtain ⟨final, ends⟩ : ∃ final, (byte :: token).getLast? = some final :=
    ⟨_, List.getLast?_eq_some_getLast (List.cons_ne_nil _ _)⟩
  have tlen : (tend : Int) - p = ((byte :: token).length : Int) - 1 := by omega
  unfold copyToken unquote
  rw [first, last, ends, Option.bind_some, Option.bind_some, firstByte_cons, tlen]
  simp only [Option.some.injEq]
  have copied (count : Int) (small : count < (byte :: token).length) (positive : ¬ count < 0) :
      copy line p (count + 1).toNat = some ((byte :: token).take (count + 1).toNat) :=
    taken 0 _ (by omega)
  have copiedBehind (count : Int) (small : count + 1 < (byte :: token).length)
      (positive : ¬ count < 0) :
      copy line (p + 1) (count + 1).toNat = some ((byte :: token).tail.take (count + 1).toNat) :=
    taken 1 _ (by omega)
  by_cases opens : byte = quote
  · rw [if_pos opens, if_pos opens]
    dsimp only
    split_ifs with closes short short
    · rfl
    · rw [copiedBehind _ (by omega) short]
      rfl
    · rfl
    · rw [copiedBehind _ (by omega) short]
      rfl
  · rw [if_neg opens, if_neg opens]
    dsimp only
    split_ifs with closes short short
    · rfl
    · rw [copied _ (by omega) short]
      rfl
    · rfl
    · rw [copied _ (by omega) short]
      rfl

end Inside

/-! ## From one label to the next -/

/-- An array that was not allocated has no tokens. -/
def tokensOf (tokens : Option TokenArray) : List CString := (tokens.map TokenArray.tokens).getD []

/-- The scan without its array. -/
def ArrayScanner.scanner (state : ArrayScanner) : Scanner :=
  ⟨state.comment, state.quotation, tokensOf state.tokens⟩

/-- There is room behind the last token. -/
def TokenArray.Roomy (array : TokenArray) : Prop := array.tokens.length < array.tokmax

def ArrayScanner.Roomy (state : ArrayScanner) : Prop := ∀ array ∈ state.tokens, array.Roomy

/-- The scan goes on behind where it was, and as the scan of the list does. -/
def Next.Follows (line : List UInt8) (state : ArrayScanner) (p : Nat) : Next → Prop
  | .nextLine next => next.Roomy ∧ scanRest state.scanner (line.drop p) = some next.scanner
  | .start next p' => p < p' ∧ p' ≤ line.length ∧ next.Roomy ∧
      scanRest state.scanner (line.drop p) = scanRest next.scanner (line.drop p')
  | .null => scanRest state.scanner (line.drop p) = none

section Start

variable {line : List UInt8} {state : ArrayScanner} {p : Nat}

theorem TokenArray.write_roomy {array : TokenArray} (roomy : array.Roomy) (token : CString) :
    array.write token = some { array with tokens := array.tokens ++ [token] } :=
  if_pos roomy

/-- The array that has room has it for one token more. -/
theorem roomFor_write {tokens : Option TokenArray} (roomy : ∀ array ∈ tokens, array.Roomy)
    (token : CString) :
    ∃ array, (roomFor tokens).write token = some array ∧ array.Roomy ∧
      array.tokens = tokensOf tokens ++ [token] := by
  have before : (tokens.getD ⟨[], 10⟩).Roomy ∧ (tokens.getD ⟨[], 10⟩).tokens = tokensOf tokens := by
    cases tokens with
    | none => exact ⟨Nat.succ_pos 9, rfl⟩
    | some array => exact ⟨roomy array rfl, rfl⟩
  obtain ⟨roomyBefore, same⟩ := before
  unfold TokenArray.Roomy at roomyBefore
  rw [roomFor]
  split_ifs with full
  · refine ⟨_, TokenArray.write_roomy (by simp [TokenArray.Roomy]) token, ?_, ?_⟩
    · simp [TokenArray.Roomy]
    · rw [← same]
  · refine ⟨_, TokenArray.write_roomy roomyBefore token, ?_, ?_⟩
    · rw [TokenArray.Roomy, List.length_append, List.length_singleton]
      dsimp only
      omega
    · rw [← same]

/-- A comment is skipped to its end, or to that of the line. -/
theorem comment_follows (visible : 0 ∉ line) (roomy : state.Roomy) {start : Nat} (later : p ≤ start)
    (inside : start ≤ line.length) (skipped : (line.drop p).dropWhile isBlank = line.drop start)
    (ends : endsLine (firstByte (line.drop start)) = false)
    (comment : inComment state.scanner (line.drop start) = true) :
    ∃ next : Next, (do
      let p ← toCommentEnd line (line.length + 1) start
      if ← inspectPair line star slash p then return .start { state with comment := false } (p + 2)
      else return .start { state with comment := true } p) = some next ∧ next.Follows line state p := by
  have goesOn := @scanRest_comment state.scanner (line.drop p) _ skipped ends comment
  obtain ⟨p', reaches, after, inside', split⟩ :=
    @toCommentEnd_eq line start (line.length + 1) visible inside (by omega)
  simp only [Option.bind_eq_bind]
  rw [reaches, Option.bind_some, inspectPair_eq inside' (by decide) (by decide), Option.bind_some, split]
  cases closed : (endComment (line.drop start)).1 with
  | true =>
      rw [closed, if_pos rfl] at split
      obtain ⟨first, behind⟩ := inside_of_drop split
      obtain ⟨second, behind'⟩ := inside_of_drop behind
      refine ⟨.start { state with comment := false } (p' + 2), rfl, by omega, by omega, roomy, ?_⟩
      rw [goesOn, closed, ← behind']
      rfl
  | false =>
      rw [closed, if_neg Bool.false_ne_true] at split
      have atEnd : line.length ≤ p' := List.drop_eq_nil_iff.mp split
      have before : start < line.length := by
        by_contra outside
        rw [List.drop_eq_nil_of_le (Nat.le_of_not_lt outside)] at ends
        exact absurd ends (by decide)
      refine ⟨.start { state with comment := true } p', rfl, by omega, inside', roomy, ?_⟩
      rw [goesOn, split, endComment_unclosed closed]
      rfl

/-- A token is copied behind the last one, unless it is given up. -/
theorem copied_follows (roomy : state.Roomy) {tend : Nat} {quotation : Bool} {token : List UInt8}
    (later : p ≤ tend) (inside : tend < line.length)
    (goesOn : scanRest state.scanner (line.drop p) = match unquote token with
      | none => none
      | some token => scanRest { state.scanner with
          quotation := quotation
          tokens := state.scanner.tokens ++ [token] } (line.drop (tend + 1))) :
    ∃ next : Next, (do
      match unquote token with
      | none => return .null
      | some token =>
          let tokens ← (roomFor state.tokens).write token
          return .start { state with quotation := quotation, tokens := some tokens } (tend + 1)) =
        some next ∧ next.Follows line state p := by
  cases taken : unquote token with
  | none =>
      rw [taken] at goesOn
      exact ⟨.null, rfl, goesOn⟩
  | some token =>
      rw [taken] at goesOn
      obtain ⟨array, written, roomyNow, tokens⟩ := roomFor_write roomy token
      have same : ArrayScanner.scanner { state with quotation := quotation, tokens := some array } =
          ⟨state.scanner.comment, quotation, state.scanner.tokens ++ [token]⟩ :=
        congrArg (Scanner.mk _ _) tokens
      simp only [Option.bind_eq_bind]
      rw [written]
      refine ⟨.start _ (tend + 1), rfl, Nat.lt_succ_of_le later, inside, ?_, ?_⟩
      · rintro _ ⟨⟩
        exact roomyNow
      · rw [goesOn, same]

theorem fromStart_follows (visible : 0 ∉ line) (inside : p ≤ line.length) (roomy : state.Roomy) :
    ∃ next, fromStart line state p = some next ∧ next.Follows line state p := by
  obtain ⟨start, skips, later, inside', skipped⟩ :=
    @skipBlanks_eq line p (line.length + 1) inside (by omega)
  have skipped : (line.drop p).dropWhile isBlank = line.drop start := skipped.symm
  unfold fromStart
  rw [skips]
  simp only [Option.bind_eq_bind, Option.bind_some]
  rw [inspect_eq inside', Option.bind_some]
  cases ends : endsLine (firstByte (line.drop start)) with
  | true =>
      refine ⟨.nextLine state, rfl, roomy, scanRest_end ?_⟩
      rw [skipped, ends]
  | false =>
      rw [if_neg Bool.false_ne_true]
      have commented : (if state.comment = true then some true else inspectPair line slash star start) =
          some (inComment state.scanner (line.drop start)) := by
        rw [inspectPair_eq inside' (by decide) (by decide), inComment, ArrayScanner.scanner]
        cases state.comment <;> rfl
      rw [commented, Option.bind_some]
      cases comment : inComment state.scanner (line.drop start) with
      | true =>
          rw [if_pos rfl]
          exact comment_follows visible roomy later inside' skipped ends comment
      | false =>
          rw [if_neg Bool.false_ne_true]
          cases here : line.drop start with
          | nil =>
              rw [here] at ends
              exact absurd ends (by decide)
          | cons byte rest =>
              rw [here] at skipped ends comment
              obtain ⟨tend, walks, length, before, behind⟩ :=
                @walkEnd_eq line start (line.length + 1) visible state.quotation byte rest here (by omega)
              obtain ⟨token, begins⟩ := walk_begins state.quotation byte rest
              have walked : (walk state.scanner.quotation (byte :: rest)).2.1 = byte :: token := begins
              have split : line.drop start =
                  byte :: token ++ (walk state.quotation (byte :: rest)).2.2 := by
                rw [here, ← begins, walk_split]
              rw [begins] at length
              have last := inspect_last split length before
              obtain ⟨final, isLast⟩ : ∃ final, (byte :: token).getLast? = some final :=
                ⟨_, List.getLast?_eq_some_getLast (List.cons_ne_nil _ _)⟩
              rw [isLast] at last
              have isLast' : (walk state.scanner.quotation (byte :: rest)).2.1.getLast? = some final := by
                rw [walked, isLast]
              rw [walks, Option.bind_some, last, Option.bind_some]
              cases remark : (endsLine final || final == hash) with
              | true =>
                  exact ⟨.nextLine _, rfl, roomy, scanRest_remark skipped ends comment isLast' remark⟩
              | false =>
                  have goesOn := scanRest_token skipped ends comment isLast' remark
                  have onward : p ≤ tend := by
                    rw [List.length_cons] at length
                    omega
                  rw [walked] at goesOn
                  rw [if_neg Bool.false_ne_true, copyToken_eq split length before, Option.bind_some]
                  apply copied_follows roomy onward before
                  rw [goesOn, behind]
                  rfl

/-- The scan of a line ends, as the label is further on each time. -/
theorem scanLineAt_eq {fuel : Nat} (visible : 0 ∉ line) (inside : p ≤ line.length)
    (roomy : state.Roomy) (enough : line.length - p < fuel) :
    ∃ result, scanLineAt line fuel state p = some result ∧ (∀ next ∈ result, next.Roomy) ∧
      result.map ArrayScanner.scanner = scanRest state.scanner (line.drop p) := by
  induction fuel generalizing state p with
  | zero => cases enough
  | succ fuel ih =>
      obtain ⟨next, goes, follows⟩ := fromStart_follows visible inside roomy
      rw [scanLineAt, goes, Option.bind_some]
      cases next with
      | nextLine next =>
          refine ⟨some next, rfl, ?_, follows.2.symm⟩
          rintro _ ⟨⟩
          exact follows.1
      | start next p' =>
          obtain ⟨further, inside', roomy', same⟩ := follows
          rw [same]
          exact ih inside' roomy' (by omega)
      | null => exact ⟨none, rfl, by rintro _ ⟨⟩, follows.symm⟩

theorem scanLinesAt_eq (lines : List (List UInt8)) (roomy : state.Roomy) :
    ∃ result, scanLinesAt lines state = some result ∧ (∀ next ∈ result, next.Roomy) ∧
      result.map ArrayScanner.scanner = lines.foldlM scanLine state.scanner := by
  induction lines generalizing state with
  | nil =>
      refine ⟨some state, rfl, ?_, rfl⟩
      rintro _ ⟨⟩
      exact roomy
  | cons line lines ih =>
      have visible := not_mem_cstring line
      obtain ⟨result, scans, roomyAfter, same⟩ :=
        @scanLineAt_eq (cstring line) state 0 ((cstring line).length + 1) visible (Nat.zero_le _)
          roomy (by omega)
      rw [scanLinesAt, scans, Option.bind_some, List.foldlM_cons, scanLine_eq]
      rw [List.drop_zero] at same
      rw [← same]
      cases result with
      | none => exact ⟨none, rfl, by rintro _ ⟨⟩, rfl⟩
      | some next => exact ih (roomyAfter next rfl)

end Start

/-! ## Included files -/

section Files

variable {File : Type*} {source : File → List UInt8} {glob : CString → List File}

/-- An array holds the tokens of a list and has room behind them; a failure is the same. -/
inductive Holding : TokenizedArray → Tokenized → Prop
  | tokens {array : TokenArray} : array.Roomy → Holding (.ok array) (.ok array.tokens)
  | failed (failure : Failure) : Holding (.error (.failed failure)) (.error failure)

theorem acceptedArray_holding (source : List UInt8) :
    Holding (acceptedArray source) (accepted source) := by
  have roomy : (ArrayScanner.mk false false none).Roomy := by rintro _ ⟨⟩
  obtain ⟨result, scans, roomyAfter, same⟩ :=
    scanLinesAt_eq (readLines source.length source) roomy
  have same : result.map ArrayScanner.scanner = scan source := same
  unfold acceptedArray accepted scanTokens
  rw [scans, ← same]
  cases result with
  | none => exact .failed .null
  | some state =>
      obtain ⟨comment, quotation, tokens⟩ := state
      cases comment with
      | true => exact .failed .null
      | false =>
          cases tokens with
          | none => exact .failed .null
          | some array =>
              have roomyNow : array.Roomy := roomyAfter _ rfl array rfl
              simp only [ArrayScanner.scanner, tokensOf, Option.map_some, Option.getD_some,
                Bool.false_eq_true, if_false]
              split_ifs
              · exact .failed .null
              · cases validatetokens array.tokens with
                | error halt =>
                    cases halt with
                    | exit => exact .failed .exit
                    | crash => exact .failed .crash
                | ok result =>
                    dsimp only
                    split_ifs
                    · exact .failed .null
                    · exact .tokens roomyNow

/-- All new tokens have room in an array with room for as many. -/
theorem foldlM_write {tokens : List CString} {array : TokenArray}
    (room : array.tokens.length + tokens.length ≤ array.tokmax) :
    tokens.foldlM TokenArray.write array = some { array with tokens := array.tokens ++ tokens } := by
  induction tokens generalizing array with
  | nil =>
      rw [List.append_nil]
      rfl
  | cons token tokens ih =>
      rw [List.length_cons] at room
      have roomy : array.Roomy := by
        rw [TokenArray.Roomy]
        omega
      rw [List.foldlM_cons, TokenArray.write_roomy roomy]
      have later : (array.tokens ++ [token]).length + tokens.length ≤ array.tokmax := by
        rw [List.length_append, List.length_singleton]
        omega
      exact (ih later).trans (by rw [List.append_assoc, List.singleton_append])

theorem appendAllArray_simulates {files : List File} {array : TokenArray} (roomy : array.Roomy)
    {next : TokenArray → Program File TokenizedArray} {next' : List CString → Program File Tokenized}
    (later : ∀ array : TokenArray, array.Roomy →
      Program.Simulates Holding (next array) (next' array.tokens)) :
    Program.Simulates Holding (appendAllArray files array next)
      (appendAll files array.tokens next') := by
  induction files generalizing array with
  | nil => exact later array roomy
  | cons file files ih =>
      refine .call fun result result' holding => ?_
      cases holding with
      | failed failure => exact .done (.failed failure)
      | @tokens newtokens _ =>
          unfold TokenArray.Roomy at roomy
          dsimp only
          rw [foldlM_write (Nat.add_le_add_right (Nat.le_of_lt roomy) _)]
          refine @ih ⟨array.tokens ++ newtokens.tokens, _⟩ ?_
          rw [TokenArray.Roomy, List.length_append]
          exact Nat.add_lt_add_right roomy _

theorem includeAllArray_simulates {indices : List Nat} {array : TokenArray} (roomy : array.Roomy) :
    Program.Simulates Holding (includeAllArray glob indices array)
      (includeAll glob indices array.tokens) := by
  induction indices generalizing array with
  | nil => exact .done (.tokens roomy)
  | cons i indices ih =>
      rw [includeAllArray, includeAll]
      split_ifs with keyword
      · cases array.tokens[i + 2]? with
        | none => exact .done (.failed .crash)
        | some pattern =>
            dsimp only
            split_ifs
            · exact .done (.failed .null)
            · exact appendAllArray_simulates roomy fun _ roomy => ih roomy
      · exact ih roomy

theorem tokenizeArrayBody_simulates (file : File) :
    Program.Simulates Holding (tokenizeArrayBody source glob file) (tokenizeBody source glob file) := by
  have holding := acceptedArray_holding (source file)
  unfold tokenizeArrayBody tokenizeBody
  revert holding
  generalize acceptedArray (source file) = result, accepted (source file) = result'
  rintro (roomy | failure)
  · exact includeAllArray_simulates roomy
  · exact .done (.failed failure)

theorem tokenizeArray_holding (depth : Nat) (file : File) :
    Option.Rel Holding (tokenizeArray source glob depth file) (tokenize source glob depth file) :=
  Program.run_related tokenizeArrayBody_simulates depth file

end Files

/-- From every offset in the string that is in the buffer the scan comes to the next label
further on, or to the end of the line; it gets through all lines, and `tokenize` gets through
all files that are included. Nothing outside the strings is inspected or copied on the way,
and there is room for each token that is written; the tokens are those of the scan of lists. -/
theorem tokenize_bounded (File : Type) (source : File → List UInt8) (glob : CString → List File)
    (depth : Nat) (file : File) (line : List UInt8) (lines : List (List UInt8))
    (state : ArrayScanner) (p : Nat) (roomy : state.Roomy) (inside : p ≤ (cstring line).length) :
    (∃ next, fromStart (cstring line) state p = some next ∧ next.Follows (cstring line) state p) ∧
    (∃ result, scanLinesAt lines state = some result ∧ (∀ next ∈ result, next.Roomy) ∧
      result.map ArrayScanner.scanner = lines.foldlM scanLine state.scanner) ∧
    Option.Rel Holding (tokenizeArray source glob depth file) (tokenize source glob depth file) :=
  ⟨fromStart_follows (not_mem_cstring _) inside roomy, scanLinesAt_eq lines roomy,
    tokenizeArray_holding depth file⟩

/-- A quotation mark and a comment that are not closed, in a line of the second file. -/
theorem tokenize_bounded_unbalanced :
    (∃ next, fromStart (cstring (text "\"a /*")) ⟨false, false, none⟩ 0 = some next ∧
      next.Follows (cstring (text "\"a /*")) ⟨false, false, none⟩ 0) ∧
    (∃ result, scanLinesAt [text "\"a /*"] ⟨false, false, none⟩ = some result ∧
      (∀ next ∈ result, next.Roomy) ∧
      result.map ArrayScanner.scanner = [text "\"a /*"].foldlM scanLine ⟨false, false, []⟩) ∧
    Option.Rel Holding (tokenizeArray twoFiles globTwo 2 true) (tokenize twoFiles globTwo 2 true) :=
  tokenize_bounded Bool twoFiles globTwo 2 true (text "\"a /*") [text "\"a /*"] ⟨false, false, none⟩ 0
    (by rintro _ ⟨⟩) (Nat.zero_le _)

end Qaoed.Rcfg
