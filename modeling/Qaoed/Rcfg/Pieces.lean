import Qaoed.Rcfg.Layout

/-!
# Pieces of a line

A line is scanned piece by piece: comments and tokens. What a piece comes to does not
depend on the rest of the line if it ends in front of it; here is what it comes to if it
goes on.
-/

namespace Qaoed.Rcfg

open Qaoed.Device
open Qaoed.Config

/-! ## Comments and tokens in two parts -/

section Pieces

variable {p rest chunk : List UInt8} {quotation : Bool}

theorem inComment_append {scanner : Scanner} (comment : inComment scanner p = true) :
    inComment scanner (p ++ rest) = true := by
  unfold inComment at comment ⊢
  rcases p with _ | ⟨byte, _ | ⟨next, p⟩⟩
  · simp_all
  · simp_all
  · exact comment

theorem endComment_suffix (p : List UInt8) : (endComment p).2 <:+ p := by
  induction p with
  | nil => exact List.suffix_rfl
  | cons byte p ih =>
      cases p with
      | nil => exact List.nil_suffix
      | cons next p =>
          rw [endComment]
          split_ifs
          · exact (List.suffix_cons next p).trans (List.suffix_cons byte _)
          · exact ih.trans (List.suffix_cons byte _)

theorem endComment_closes (closes : (endComment p).1 = true) :
    endComment (p ++ rest) = (true, (endComment p).2 ++ rest) := by
  induction p with
  | nil => cases closes
  | cons byte p ih =>
      cases p with
      | nil => cases closes
      | cons next p =>
          rw [List.cons_append, List.cons_append]
          rw [endComment] at closes ⊢
          split_ifs at closes ⊢ with ends
          · rw [endComment, if_pos ends]
          · rw [endComment, if_neg ends]
            exact ih closes

/-- A comment that is open goes on as it would from its next byte, unless that is the
second one of its end. -/
theorem endComment_goesOn (goesOn : (endComment p).1 = false)
    (whole : ¬ (p.getLast? = some star ∧ rest.head? = some slash)) :
    endComment (p ++ rest) = endComment rest := by
  induction p with
  | nil => rfl
  | cons byte p ih =>
      cases p with
      | nil =>
          cases rest with
          | nil => rfl
          | cons next rest =>
              rw [List.singleton_append, endComment, if_neg]
              rintro ⟨rfl, rfl⟩
              exact whole ⟨rfl, rfl⟩
      | cons next p =>
          rw [endComment] at goesOn
          split_ifs at goesOn with ends
          rw [List.cons_append, List.cons_append, endComment, if_neg ends]
          exact ih goesOn whole

theorem endComment_split (goesOn : (endComment p).1 = false) (last : p.getLast? = some star) :
    endComment (p ++ [slash]) = (true, []) := by
  induction p with
  | nil => cases last
  | cons byte p ih =>
      cases p with
      | nil =>
          cases last
          rfl
      | cons next p =>
          rw [endComment] at goesOn
          split_ifs at goesOn with ends
          rw [List.cons_append, List.cons_append, endComment, if_neg ends]
          exact ih goesOn last

/-- As much as there is up to the end of the comment. -/
theorem endComment_first (closes : (endComment p).1 = true) :
    ∃ comment, comment <+: p ∧ endComment comment = (true, []) := by
  induction p with
  | nil => cases closes
  | cons byte p ih =>
      cases p with
      | nil => cases closes
      | cons next p =>
          rw [endComment] at closes
          split_ifs at closes with ends
          · exact ⟨[byte, next], ⟨p, rfl⟩, by rw [endComment, if_pos ends]⟩
          · obtain ⟨comment, ⟨behind, rest⟩, first⟩ := ih closes
            refine ⟨byte :: comment, ⟨behind, congrArg (byte :: ·) rest⟩, ?_⟩
            cases comment with
            | nil => cases first
            | cons other comment =>
                cases rest
                rw [endComment, if_neg ends]
                exact first

theorem endComment_dropWhile (p : List UInt8) :
    (endComment (p.dropWhile isBlank)) = endComment p := by
  induction p with
  | nil => rfl
  | cons byte p ih =>
      cases blank : isBlank byte with
      | false => rw [dropWhile_stays blank]
      | true =>
          rw [List.dropWhile_cons_of_pos blank, ih]
          cases p with
          | nil => rfl
          | cons next p =>
              rw [endComment.eq_3, if_neg]
              rintro ⟨rfl, -⟩
              cases blank

/-- A token that ends in front of the end of what is there of a line. -/
theorem walk_ends {byte : UInt8} (ends : (walk quotation (byte :: p)).2.2 ≠ []) :
    walk quotation (byte :: p ++ rest) = ((walk quotation (byte :: p)).1,
      (walk quotation (byte :: p)).2.1, (walk quotation (byte :: p)).2.2 ++ rest) := by
  induction p generalizing quotation byte with
  | nil => exact absurd rfl ends
  | cons next p ih =>
      rw [List.cons_append, List.cons_append]
      rw [walk] at ends ⊢
      split_ifs at ends ⊢ with stops blank
      · rw [walk, if_pos stops]
        rfl
      · rw [walk, if_neg stops, if_pos blank]
        rfl
      · rw [walk, if_neg stops, if_neg blank]
        dsimp only at ends ⊢
        rw [← List.cons_append, ih ends]

/-- The walk ends between two bytes. -/
def breaksAt (quotation : Bool) (last next : UInt8) : Bool :=
  stopsAt next || stopsAt last || (next == space && !quotation)

/-- A token up to the end of what is there of a line, with more of the line. -/
theorem walk_over {byte : UInt8} (goesOn : (walk quotation (byte :: p)).2.2 = []) (next : UInt8) :
    ∃ last, (byte :: p).getLast? = some last ∧
      walk quotation (byte :: p ++ next :: rest) =
        if breaksAt (walk quotation (byte :: p)).1 last next then
          ((walk quotation (byte :: p)).1, byte :: p, next :: rest)
        else
          let marked := last == quote || next == quote
          let (quotation, token, behind) :=
            walk ((walk quotation (byte :: p)).1 ^^ marked) (next :: rest)
          (quotation, byte :: p ++ token, behind) := by
  induction p generalizing quotation byte with
  | nil =>
      refine ⟨byte, rfl, ?_⟩
      have single : walk quotation [byte] = (quotation, [byte], []) := rfl
      rw [single, List.singleton_append, walk, breaksAt]
      by_cases stops : (stopsAt next || stopsAt byte) = true
      · rw [if_pos stops, stops, Bool.true_or, if_pos rfl]
      · rw [if_neg stops, Bool.eq_false_iff.mpr stops, Bool.false_or]
        cases quotation <;> by_cases blank : next = space <;> simp [blank]
  | cons second p ih =>
      rw [walk] at goesOn
      split_ifs at goesOn with stops blank
      obtain ⟨last, isLast, walked⟩ := ih goesOn
      refine ⟨last, isLast, ?_⟩
      rw [List.cons_append, List.cons_append, walk, if_neg stops, if_neg blank, walk, if_neg stops,
        if_neg blank]
      dsimp only
      rw [← List.cons_append, walked]
      split_ifs <;> rfl

/-- The walk over a token ends where the token does. -/
theorem walk_token (quotation : Bool) (line : List UInt8) :
    walk quotation (walk quotation line).2.1 =
      ((walk quotation line).1, (walk quotation line).2.1, []) := by
  induction line generalizing quotation with
  | nil => rfl
  | cons byte line ih =>
      cases line with
      | nil => rfl
      | cons next line =>
          rw [walk]
          split_ifs with stops blank
          · rfl
          · rfl
          · have rest := ih (quotation ^^ (byte == quote || next == quote))
            obtain ⟨token, begins⟩ :=
              walk_begins (quotation ^^ (byte == quote || next == quote)) next line
            dsimp only
            rw [begins] at rest ⊢
            rw [walk, if_neg stops, if_neg blank]
            dsimp only
            rw [rest]

theorem scanRest_dropWhile (scanner : Scanner) (line : List UInt8) :
    scanRest scanner (line.dropWhile isBlank) = scanRest scanner line := by
  induction line with
  | nil => rfl
  | cons byte line ih =>
      cases blank : isBlank byte with
      | false => rw [dropWhile_stays blank]
      | true => rw [List.dropWhile_cons_of_pos blank, ih, scanRest_blank blank]

/-- A word that begins behind blanks ends inside of the line. -/
theorem walk_goesOn {byte : UInt8} (begins : endsLine byte = false) (notRemark : byte ≠ hash)
    (visible : 0 ∉ byte :: p) : ∃ last, (walk quotation (byte :: p)).2.1.getLast? = some last ∧
      (endsLine last || last == hash) = false := by
  obtain ⟨last, isLast⟩ := walk_last quotation byte p
  refine ⟨last, isLast, ?_⟩
  have member := List.mem_of_getLast? isLast
  rcases walk_inside last member with rfl | inside
  · rw [begins, Bool.false_or]
    exact beq_false_of_ne notRemark
  · have notZero : last ≠ 0 := by
      rintro rfl
      apply visible
      rw [← walk_split quotation (byte :: p)]
      exact List.mem_append_left _ member
    simp only [stopsAt, Bool.or_eq_false_iff] at inside
    simp [endsLine, notZero, inside]

/-- What comes first behind the blanks is the same for the beginning of a line. -/
theorem firstByte_prefix {first : List UInt8} (begins : first <+: chunk)
    (notEmpty : first.dropWhile isBlank ≠ []) :
    firstByte (first.dropWhile isBlank) = firstByte (chunk.dropWhile isBlank) := by
  obtain ⟨rest, rfl⟩ := begins
  rw [List.dropWhile_append, if_neg]
  · cases skipped : first.dropWhile isBlank with
    | nil => exact absurd skipped notEmpty
    | cons byte first => rfl
  · rw [List.isEmpty_iff]
    exact notEmpty

/-- As much as is read up to the end of a comment. -/
theorem closes_first (closes : (endComment chunk).1 = true) :
    ∃ first, first <+: chunk ∧ endComment first = (true, []) ∧
      firstByte (first.dropWhile isBlank) = firstByte (chunk.dropWhile isBlank) := by
  obtain ⟨first, begins, closed⟩ := endComment_first closes
  refine ⟨first, begins, closed, firstByte_prefix begins ?_⟩
  intro none
  have same := endComment_dropWhile first
  rw [none, closed] at same
  cases same

end Pieces

/-! ## Marks -/

section Marks

variable {p : List UInt8}

/-- Marks are all there is of a token that is given up. -/
theorem unquote_none_iff (token : List UInt8) : unquote token = none ↔
    token.length ≤ (if firstByte token = quote then 1 else 0) +
      (if token.getLast? = some quote then 1 else 0) := by
  have given (short : Prop) [Decidable short] (rest : CString) :
      (if short then none else some rest) = none ↔ short := by
    by_cases holds : short
    · rw [if_pos holds]
      exact iff_of_true rfl holds
    · rw [if_neg holds]
      exact iff_of_false (Option.some_ne_none _) holds
  unfold unquote
  split_ifs with first last last
  all_goals
    dsimp only
    rw [given]
    omega

theorem unquote_quote (none : unquote p = none) (notEmpty : p ≠ []) : p.head? = some quote := by
  cases p with
  | nil => exact absurd rfl notEmpty
  | cons byte p =>
      by_contra other
      have first : firstByte (byte :: p) ≠ quote := fun same => other (congrArg some same)
      rw [unquote_none_iff, if_neg first, List.length_cons] at none
      cases p with
      | nil =>
          have last : [byte].getLast? ≠ some quote := other
          rw [if_neg last] at none
          cases none
      | cons next p =>
          rw [List.length_cons] at none
          split_ifs at none
          · omega
          · omega

/-- How long a token is without its marks. -/
theorem unquote_length {token result : List UInt8} (taken : unquote token = some result) :
    result.length + (if firstByte token = quote then 1 else 0) +
      (if token.getLast? = some quote then 1 else 0) = token.length := by
  have tail := @List.length_tail _ token
  unfold unquote at taken
  split_ifs at taken ⊢ with first last last
  all_goals
    simp only at taken
    split_ifs at taken with short
    cases taken
    rw [List.length_take]
    omega

theorem unquote_opened {token result : List UInt8} (taken : unquote token = some result)
    (notEmpty : token ≠ []) : ∃ result', unquote (token ++ [quote]) = some result' := by
  have first : firstByte (token ++ [quote]) = firstByte token := by
    cases token with
    | nil => exact absurd rfl notEmpty
    | cons byte token => rfl
  have some' : unquote token ≠ none := by
    rw [taken]
    exact Option.some_ne_none _
  rw [ne_eq, unquote_none_iff] at some'
  rw [← Option.isSome_iff_exists, Option.isSome_iff_ne_none, ne_eq, unquote_none_iff, first,
    List.getLast?_concat, if_pos rfl, List.length_append, List.length_singleton]
  omega

/-- A word gets longer with a blank behind it that belongs to it. -/
theorem unquote_space {word : CString} (notEmpty : p ≠ []) (taken : unquote p = some word) :
    unquote (p ++ [space]) ≠ some word := by
  intro same
  have length := unquote_length taken
  have length' := unquote_length same
  have first : firstByte (p ++ [space]) = firstByte p := by
    cases p with
    | nil => exact absurd rfl notEmpty
    | cons byte p => rfl
  have last : (p ++ [space]).getLast? ≠ some quote := by
    rw [List.getLast?_append]
    exact fun same => absurd (Option.some.inj same) (by decide)
  rw [first, if_neg last, List.length_append, List.length_singleton] at length'
  omega

end Marks

/-! ## The first piece -/

section FirstPiece

variable {before scanner : Scanner} {byte : UInt8} {p chunk : List UInt8}

/-- A comment that ends in front of the rest of the line. -/
theorem scanRest_closed (notBlank : isBlank byte = false) (goesOn : endsLine byte = false)
    (comment : inComment scanner (byte :: p) = true) (closes : (endComment (byte :: p)).1 = true)
    (rest : List UInt8) : scanRest scanner (byte :: p ++ rest) =
      scanRest { scanner with comment := false } ((endComment (byte :: p)).2 ++ rest) := by
  have stays : (byte :: p ++ rest).dropWhile isBlank = byte :: p ++ rest := dropWhile_stays notBlank
  rw [scanRest_comment stays goesOn (inComment_append comment), endComment_closes closes]
  rfl

/-- A token that ends in front of the rest of the line. -/
theorem scanRest_ended (notBlank : isBlank byte = false) (goesOn : endsLine byte = false)
    (notComment : inComment scanner (byte :: p) = false) (notRemark : byte ≠ hash)
    (visible : 0 ∉ byte :: p) (ends : (walk scanner.quotation (byte :: p)).2.2 ≠ [])
    (rest : List UInt8) : scanRest scanner (byte :: p ++ rest) =
      match unquote (walk scanner.quotation (byte :: p)).2.1 with
      | none => none
      | some token => scanRest { scanner with
          quotation := (walk scanner.quotation (byte :: p)).1
          tokens := scanner.tokens ++ [token] } ((walk scanner.quotation (byte :: p)).2.2 ++ rest) := by
  have stays : (byte :: p ++ rest).dropWhile isBlank = byte :: p ++ rest := dropWhile_stays notBlank
  have notComment' : inComment scanner (byte :: p ++ rest) = false := by
    cases p with
    | nil => exact absurd rfl ends
    | cons next p => exact notComment
  obtain ⟨last, isLast, inside⟩ := @walk_goesOn p scanner.quotation byte goesOn notRemark visible
  have read := scanRest_token stays goesOn notComment' (by rw [walk_ends ends]; exact isLast) inside
  rw [walk_ends ends] at read
  exact read

/-- The rest of a line in a comment, looked at from its beginning. -/
theorem scanRest_inside (seen : (endsLine (firstByte (chunk.dropWhile isBlank)) && (endComment chunk).1) = false) :
    scanRest { before with comment := true } chunk =
      scanRest { before with comment := !(endComment chunk).1 } (endComment chunk).2 := by
  cases ends : endsLine (firstByte (chunk.dropWhile isBlank)) with
  | true =>
      rw [ends, Bool.true_and] at seen
      rw [scanRest_end ends, endComment_unclosed seen]
      rfl
  | false => rw [scanRest_comment rfl ends (by rfl), endComment_dropWhile]

end FirstPiece

end Qaoed.Rcfg
