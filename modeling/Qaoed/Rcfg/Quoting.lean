import Qaoed.Rcfg.Buffers
import Qaoed.Rcfg.Pieces

/-!
# Values between quotation marks

`tokenize` looks for the end of a token before it looks at quotation marks, and counts a
mark only when it goes on from it or to it. So blanks inside of a value are part of it, and
what ends a token ends it between marks as well.
-/

namespace Qaoed.Rcfg

open Qaoed.Device
open Qaoed.Config

/-! ## Lines -/

def quotedLine (name s : CString) : List UInt8 :=
  name ++ space :: equals :: space :: quote :: (s ++ [quote, semicolon])

def plainLine (name word : CString) : List UInt8 :=
  name ++ space :: equals :: space :: (word ++ [semicolon])

/-- Printable characters, blanks and tabs, without quotation marks. -/
def Quotable (s : CString) : Prop :=
  ∀ byte ∈ s, byte ≠ quote ∧ (byte = tab ∨ (0x20 ≤ byte ∧ byte ≠ 0x7f))

instance (s : CString) : Decidable (Quotable s) :=
  inferInstanceAs (Decidable (∀ byte ∈ s, byte ≠ quote ∧ (byte = tab ∨ (0x20 ≤ byte ∧ byte ≠ 0x7f))))

/-- Lines that leave the scanner outside of comments and of quotations. -/
structure Outside (earlier : List UInt8) (before : List CString) : Prop where
  lines : EndsLines earlier
  scanned : scan earlier = some ⟨false, false, before⟩

/-- The line may be the first one. -/
theorem outside_nothing : Outside [] [] := by
  refine ⟨?_, rfl⟩
  rintro _ ⟨⟩

/-- The line is four tokens wherever it stands, and whatever comes behind it is scanned as
it is behind the line with an ordinary word for the value. -/
structure Faithful (name s : CString) : Prop where
  fourTokens : ∀ earlier before, Outside earlier before →
    scanTokens (earlier ++ quotedLine name s) =
      some (before ++ [name, [equals], s, [semicolon]])
  following : ∀ earlier before, Outside earlier before → ∀ word, IsWord word →
    (plainLine name word).length < 398 → ∀ rest, ∃ later : Option (List CString),
      scanTokens (earlier ++ (quotedLine name s ++ newline :: rest)) =
        later.map (before ++ [name, [equals], s, [semicolon]] ++ ·) ∧
      scanTokens (earlier ++ (plainLine name word ++ newline :: rest)) =
        later.map (before ++ [name, [equals], word, [semicolon]] ++ ·)

/-- What quotation marks are enough for: not for an empty value, nor for a blank at its
beginning, nor for what ends a token anywhere. -/
structure Protected (s : CString) : Prop where
  notEmpty : s ≠ []
  notBlank : s.head? ≠ some space
  bytes : ∀ byte ∈ s, byte ≠ tab ∧ byte ≠ hash ∧ isDelimiter byte = false

section Bytes

variable {s : CString}

theorem stopsAt_false_iff {byte : UInt8} (quotable : byte = tab ∨ (0x20 ≤ byte ∧ byte ≠ 0x7f)) :
    stopsAt byte = false ↔ byte ≠ tab ∧ byte ≠ hash ∧ isDelimiter byte = false := by
  have notEnd : byte ≠ newline ∧ byte ≠ carriageReturn := by
    rcases quotable with rfl | ⟨printable, _⟩
    · decide
    · constructor
      · rintro rfl
        exact absurd printable (by decide)
      · rintro rfl
        exact absurd printable (by decide)
  simp only [stopsAt, Bool.or_eq_false_iff, beq_eq_false_iff_ne]
  constructor
  · rintro ⟨⟨⟨⟨notHash, plain⟩, _⟩, _⟩, notTab⟩
    exact ⟨notTab, notHash, plain⟩
  · rintro ⟨notTab, notHash, plain⟩
    exact ⟨⟨⟨⟨notHash, plain⟩, notEnd.1⟩, notEnd.2⟩, notTab⟩

theorem Quotable.notZero (quotable : Quotable s) : 0 ∉ s := by
  intro member
  rcases (quotable 0 member).2 with same | ⟨printable, _⟩
  · exact absurd same (by decide)
  · exact absurd printable (by decide)

theorem Quotable.notNewline (quotable : Quotable s) : newline ∉ s := by
  intro member
  rcases (quotable newline member).2 with same | ⟨printable, _⟩
  · exact absurd same (by decide)
  · exact absurd printable (by decide)

theorem Quotable.notQuote (quotable : Quotable s) : quote ∉ s := fun member =>
  (quotable quote member).1 rfl

end Bytes

/-! ## Between the marks -/

section Walk

variable {line : List UInt8}

/-- Inside of a quotation the walk goes on over blanks. -/
theorem walk_quotation {byte : UInt8} {token : List UInt8}
    (bytes : ∀ other ∈ byte :: token, stopsAt other = false ∧ other ≠ quote) :
    walk true (byte :: token) = (true, byte :: token, []) := by
  induction token generalizing byte with
  | nil => rfl
  | cons next token ih =>
      have here := bytes byte List.mem_cons_self
      have there := bytes next (List.mem_cons_of_mem _ List.mem_cons_self)
      have rest := ih fun other member => bytes other (List.mem_cons_of_mem _ member)
      rw [walk, there.1, here.1, Bool.or_self, if_neg Bool.false_ne_true,
        if_neg fun both => Bool.noConfusion both.2, beq_false_of_ne here.2, beq_false_of_ne there.2]
      simp only [Bool.or_self, Bool.xor_false, rest]

/-- Up to the mark behind a value. -/
theorem walk_marked {byte : UInt8} {token : List UInt8}
    (bytes : ∀ other ∈ byte :: token, stopsAt other = false ∧ other ≠ quote) (ends : EndsWord line) :
    walk true (byte :: token ++ quote :: line) = (false, byte :: token ++ [quote], line) := by
  have inside := walk_quotation bytes
  obtain ⟨last, isLast, walked⟩ := @walk_over token line true byte (by rw [inside]) quote
  have goesOn : breaksAt true last quote = false := by
    rw [breaksAt, (bytes last (List.mem_of_getLast? isLast)).1]
    decide
  have closes : walk false (quote :: line) = (false, [quote], line) := walk_ending (by decide) ends
  rw [walked, inside, goesOn, if_neg Bool.false_ne_true, beq_self_eq_true, Bool.or_true]
  dsimp only
  rw [Bool.xor_self, closes]

/-- Up to what ends a token, marks or not. -/
theorem walk_broken {byte stop : UInt8} {token : List UInt8}
    (bytes : ∀ other ∈ byte :: token, stopsAt other = false ∧ other ≠ quote)
    (stops : stopsAt stop = true) :
    walk true (byte :: token ++ stop :: line) = (true, byte :: token, stop :: line) := by
  have inside := walk_quotation bytes
  obtain ⟨last, isLast, walked⟩ := @walk_over token line true byte (by rw [inside]) stop
  rw [walked, inside, breaksAt, stops, Bool.true_or, Bool.true_or, if_pos rfl]

/-- From the first mark on, if a value begins behind it. -/
theorem walk_mark {next : UInt8} (inside : stopsAt next = false) (notSpace : next ≠ space) :
    walk false (quote :: next :: line) =
      ((walk true (next :: line)).1, quote :: (walk true (next :: line)).2.1,
        (walk true (next :: line)).2.2) := by
  have mark : stopsAt quote = false := by decide
  rw [walk, inside, mark, Bool.or_self, if_neg Bool.false_ne_true, if_neg fun both => notSpace both.1,
    beq_self_eq_true, Bool.true_or]
  rfl

theorem unquote_marked {s : CString} (notEmpty : s ≠ []) : unquote (quote :: (s ++ [quote])) = some s := by
  have length := List.length_pos_iff.mpr notEmpty
  have last : (quote :: (s ++ [quote])).getLast? = some quote := by
    rw [← List.cons_append, List.getLast?_concat]
  unfold unquote
  simp only [firstByte_cons, last, if_true, List.length_cons, List.length_append, List.length_nil,
    List.tail_cons]
  rw [if_neg (by omega)]
  have whole : ((s.length + (0 + 1) + 1 : Nat) - 1 - 1 - 1 + 1 : Int).toNat = s.length := by omega
  rw [whole, List.take_left]

/-- With a mark in front of it only. -/
theorem unquote_open {s : CString} (notEmpty : s ≠ []) (plain : quote ∉ s) :
    unquote (quote :: s) = some s := by
  have length := List.length_pos_iff.mpr notEmpty
  have last : (quote :: s).getLast? ≠ some quote := by
    rw [List.getLast?_cons_of_ne_nil notEmpty]
    exact fun same => plain (List.mem_of_getLast? same)
  unfold unquote
  simp only [firstByte_cons, last, if_true, if_false, List.length_cons, List.tail_cons]
  rw [if_neg (by omega)]
  have whole : ((s.length + 1 : Nat) - 1 - 1 + 1 : Int).toNat = s.length := by omega
  rw [whole, List.take_length]

theorem scanLine_quoted {s : CString} (notEmpty : s ≠ []) (notBlank : s.head? ≠ some space)
    (bytes : ∀ byte ∈ s, stopsAt byte = false ∧ byte ≠ quote) (visible : 0 ∉ s) (ends : EndsWord line)
    (tokens : List CString) :
    scanLine ⟨false, false, tokens⟩ (quote :: (s ++ quote :: line)) =
      scanLine ⟨false, false, tokens ++ [s]⟩ line := by
  have visible' : 0 ∉ quote :: (s ++ [quote]) := by
    rw [List.mem_cons, List.mem_append, not_or, not_or]
    exact ⟨by decide, visible, by decide⟩
  have regroup (line : List UInt8) : quote :: (s ++ quote :: line) = quote :: (s ++ [quote]) ++ line := by
    rw [List.cons_append, List.append_assoc]
    rfl
  have walked : walk false (quote :: (s ++ quote :: cstring line)) =
      (false, quote :: (s ++ [quote]), cstring line) := by
    cases s with
    | nil => exact absurd rfl notEmpty
    | cons byte s =>
        have first := (bytes byte List.mem_cons_self).1
        rw [List.cons_append, walk_mark first fun same => notBlank (congrArg some same),
          ← List.cons_append, walk_marked bytes (endsWord_cstring ends)]
  have isLast : (quote :: (s ++ [quote])).getLast? = some quote := by
    rw [← List.cons_append, List.getLast?_concat]
  have skipped : (quote :: (s ++ quote :: cstring line)).dropWhile isBlank =
      quote :: (s ++ quote :: cstring line) := dropWhile_stays rfl
  rw [scanLine_eq, scanLine_eq, regroup, cstring_append visible', ← regroup,
    scanRest_token skipped (by rfl) (by rfl) (by rw [walked]; exact isLast) (by decide), walked]
  dsimp only
  rw [unquote_marked notEmpty]

/-- A line of a name, a value and what stands between and behind them. -/
theorem scanLine_statement {name value s : CString} (word : IsWord name) (before : List CString)
    (reads : ∀ tokens, scanLine ⟨false, false, tokens⟩ (value ++ [semicolon]) =
      scanLine ⟨false, false, tokens ++ [s]⟩ [semicolon]) :
    scanLine ⟨false, false, before⟩ (name ++ space :: equals :: space :: (value ++ [semicolon])) =
      some ⟨false, false, before ++ [name, [equals], s, [semicolon]]⟩ := by
  have ends : EndsWord (space :: equals :: space :: (value ++ [semicolon])) := endsWord_cons rfl
  have done (tokens : List CString) : scanLine ⟨false, false, tokens⟩ [semicolon] =
      some ⟨false, false, tokens ++ [[semicolon]]⟩ := by
    rw [scanLine_delimiter tokens (by rfl), scanLine_nil]
  rw [scanLine_word before word ends, scanLine_blank (by rfl), scanLine_delimiter _ (by rfl),
    scanLine_blank (by rfl), reads, done, List.append_assoc, List.append_assoc, List.append_assoc]
  rfl

end Walk

/-! ## Behind what has been scanned -/

section Behind

variable {scanner : Scanner} (before : List CString)

/-- A scanner that has come from other tokens. -/
def Scanner.behind (scanner : Scanner) : Scanner :=
  { scanner with tokens := before ++ scanner.tokens }

/-- The scanner does not look at the tokens it has. -/
theorem scanFrom_behind (fuel : Nat) (scanner : Scanner) (line : List UInt8) :
    scanFrom fuel (scanner.behind before) line =
      (scanFrom fuel scanner line).map (Scanner.behind before) := by
  induction fuel generalizing scanner line with
  | zero => rfl
  | succ fuel ih =>
      have comment (p : List UInt8) : inComment (scanner.behind before) p = inComment scanner p := rfl
      have quotation : (scanner.behind before).quotation = scanner.quotation := rfl
      rw [scanFrom, scanFrom]
      dsimp only
      rw [comment, quotation]
      split_ifs
      · rfl
      · exact ih { scanner with comment := !(endComment (line.dropWhile isBlank)).1 } _
      · rfl
      · cases unquote (walk scanner.quotation (line.dropWhile isBlank)).2.1 with
        | none => rfl
        | some token =>
            dsimp only
            rw [← ih, Scanner.behind, Scanner.behind, List.append_assoc]

theorem scanBuffered_behind (scanner : Scanner) (text : List UInt8) :
    scanBuffered (scanner.behind before) text =
      (scanBuffered scanner text).map (Scanner.behind before) := by
  unfold scanBuffered
  induction readLines text.length text generalizing scanner with
  | nil => rfl
  | cons line lines ih =>
      rw [List.foldlM_cons, List.foldlM_cons, scanLine, scanLine, scanFrom_behind]
      cases scanFrom line.length scanner (cstring line) with
      | none => rfl
      | some scanner => exact ih scanner

theorem returned_behind (result : Option Scanner) :
    returned (result.map (Scanner.behind before)) = (returned result).map (before ++ ·) := by
  cases result with
  | none => rfl
  | some scanner =>
      rw [Option.map_some, returned, returned]
      have comment : (scanner.behind before).comment = scanner.comment := rfl
      rw [comment]
      split_ifs <;> rfl

/-- The tokens that have been taken stay. -/
theorem scanRest_keeps {scanner scanner' : Scanner} {line : List UInt8}
    (returns : scanRest scanner line = some scanner') : scanner.tokens <+: scanner'.tokens := by
  have seen := scanFrom_behind scanner.tokens line.length { scanner with tokens := [] } line
  have start : Scanner.behind scanner.tokens { scanner with tokens := [] } = scanner := by
    rw [Scanner.behind, List.append_nil]
  rw [scanRest] at returns
  rw [start, returns] at seen
  obtain ⟨later, _, rfl⟩ := Option.map_eq_some_iff.mp seen.symm
  exact ⟨later.tokens, rfl⟩

variable {before : List CString} {earlier line : List UInt8} {tokens : List CString}

theorem Outside.line_tokens (outside : Outside earlier before) (whole : newline ∉ line)
    (short : line.length < 398)
    (read : scanLine ⟨false, false, before⟩ line = some ⟨false, false, before ++ tokens⟩) :
    scanTokens (earlier ++ line) = some (before ++ tokens) := by
  have scanned : scanBuffered ⟨false, false, []⟩ earlier = _ := outside.scanned
  rw [scanTokens_eq, scanBuffered_earlier outside.lines, scanned, Option.bind_some,
    scanBuffered_last whole (Nat.le_of_lt short), read]
  rfl

/-- What comes behind the line has the tokens it has alone. -/
theorem Outside.rest_tokens (outside : Outside earlier before) (whole : newline ∉ line)
    (short : line.length < 398)
    (read : scanLine ⟨false, false, before⟩ line = some ⟨false, false, before ++ tokens⟩)
    (rest : List UInt8) : scanTokens (earlier ++ (line ++ newline :: rest)) =
      (scanTokens rest).map (before ++ tokens ++ ·) := by
  have scanned : scanBuffered ⟨false, false, []⟩ earlier = _ := outside.scanned
  have start : (⟨false, false, before ++ tokens⟩ : Scanner) =
      Scanner.behind (before ++ tokens) ⟨false, false, []⟩ := by
    rw [Scanner.behind, List.append_nil]
  rw [scanTokens_eq, scanBuffered_earlier outside.lines, scanned, Option.bind_some,
    scanBuffered_short whole short, read, Option.bind_some, start, scanBuffered_behind,
    returned_behind, scanTokens_eq]

end Behind

/-! ## Which values are protected -/

section Values

variable {name s word : CString}

theorem IsWord.notNewline (isWord : IsWord name) : newline ∉ name := fun member =>
  absurd (isWord.bytes newline member).1 (by decide)

theorem quotedLine_whole (isWord : IsWord name) (quotable : Quotable s) : newline ∉ quotedLine name s := by
  simp only [quotedLine, List.mem_append, List.mem_cons, not_or]
  exact ⟨isWord.notNewline, by decide, by decide, by decide, by decide, quotable.notNewline, by decide,
    by decide, List.not_mem_nil⟩

theorem plainLine_whole (isWord : IsWord name) (isWord' : IsWord word) :
    newline ∉ plainLine name word := by
  simp only [plainLine, List.mem_append, List.mem_cons, not_or]
  exact ⟨isWord.notNewline, by decide, by decide, by decide, isWord'.notNewline, by decide,
    List.not_mem_nil⟩

theorem Protected.inside (protects : Protected s) (quotable : Quotable s) :
    ∀ byte ∈ s, stopsAt byte = false ∧ byte ≠ quote := fun byte member =>
  ⟨(stopsAt_false_iff (quotable byte member).2).mpr (protects.bytes byte member),
    (quotable byte member).1⟩

theorem scanLine_quotedLine (isWord : IsWord name) (quotable : Quotable s) (protects : Protected s)
    (before : List CString) : scanLine ⟨false, false, before⟩ (quotedLine name s) =
      some ⟨false, false, before ++ [name, [equals], s, [semicolon]]⟩ := by
  have regroup : quotedLine name s =
      name ++ space :: equals :: space :: (quote :: (s ++ [quote]) ++ [semicolon]) := by
    rw [quotedLine, List.cons_append, List.append_assoc]
    rfl
  have ends : EndsWord [semicolon] := endsWord_cons rfl
  rw [regroup]
  apply scanLine_statement isWord before
  intro tokens
  rw [List.cons_append, List.append_assoc]
  exact scanLine_quoted protects.notEmpty protects.notBlank (protects.inside quotable) quotable.notZero
    ends tokens

theorem scanLine_plainLine (isWord : IsWord name) (isWord' : IsWord word) (before : List CString) :
    scanLine ⟨false, false, before⟩ (plainLine name word) =
      some ⟨false, false, before ++ [name, [equals], word, [semicolon]]⟩ := by
  have ends : EndsWord [semicolon] := endsWord_cons rfl
  exact scanLine_statement isWord before fun tokens => scanLine_word tokens isWord' ends

theorem Protected.faithful (protects : Protected s) (isWord : IsWord name) (quotable : Quotable s)
    (short : (quotedLine name s).length < 398) : Faithful name s where
  fourTokens _ before outside := outside.line_tokens (quotedLine_whole isWord quotable) short
    (scanLine_quotedLine isWord quotable protects before)
  following _ before outside _ isWord' short' rest :=
    ⟨scanTokens rest,
      outside.rest_tokens (quotedLine_whole isWord quotable) short
        (scanLine_quotedLine isWord quotable protects before) rest,
      outside.rest_tokens (plainLine_whole isWord isWord') short'
        (scanLine_plainLine isWord isWord' before) rest⟩

/-- The line up to the first mark. -/
theorem scanTokens_quotedLine (isWord : IsWord name) (quotable : Quotable s)
    (short : (quotedLine name s).length < 398) : scanTokens (quotedLine name s) =
      returned (scanRest ⟨false, false, [name, [equals]]⟩ (quote :: (s ++ [quote, semicolon]))) := by
  have ends : EndsWord (space :: equals :: space :: quote :: (s ++ [quote, semicolon])) :=
    endsWord_cons rfl
  have visible : 0 ∉ quote :: (s ++ [quote, semicolon]) := by
    rw [List.mem_cons, List.mem_append, not_or, not_or]
    exact ⟨by decide, quotable.notZero, by decide⟩
  rw [scanTokens_eq, scanBuffered_last (quotedLine_whole isWord quotable) (Nat.le_of_lt short), quotedLine,
    scanLine_word [] isWord ends, scanLine_blank (by rfl), scanLine_delimiter _ (by rfl),
    scanLine_blank (by rfl), scanLine_eq, cstring_visible visible]
  rfl

/-- A value that the first mark is not part of the token of. -/
theorem scanRest_lost {next : UInt8} (lost : stopsAt next = true ∨ next = space)
    (tokens : List CString) (line : List UInt8) :
    scanRest ⟨false, false, tokens⟩ (quote :: next :: line) = none := by
  have walked : walk false (quote :: next :: line) = (false, [quote], next :: line) := by
    rw [walk]
    rcases lost with stops | rfl
    · rw [stops, Bool.true_or, if_pos rfl]
    · rfl
  have skipped : (quote :: next :: line).dropWhile isBlank = quote :: next :: line := dropWhile_stays rfl
  have none : unquote [quote] = none := by decide
  rw [scanRest_token skipped (by rfl) (by rfl)
    (congrArg (fun result => result.2.1.getLast?) walked) (by decide), walked]
  dsimp only
  rw [none]

/-- A value with something in it that ends a token: only what stands in front of it is
taken. -/
theorem scanRest_cut {byte stop : UInt8} {token line : List UInt8} (notSpace : byte ≠ space)
    (bytes : ∀ other ∈ byte :: token, stopsAt other = false ∧ other ≠ quote)
    (visible : 0 ∉ byte :: token ++ stop :: line) (stops : stopsAt stop = true) (tokens : List CString) :
    scanRest ⟨false, false, tokens⟩ (quote :: (byte :: token ++ stop :: line)) =
      scanRest ⟨false, true, tokens ++ [byte :: token]⟩ (stop :: line) := by
  have walked : walk false (quote :: (byte :: token ++ stop :: line)) =
      (true, quote :: byte :: token, stop :: line) := by
    rw [List.cons_append, walk_mark (bytes byte List.mem_cons_self).1 notSpace, ← List.cons_append,
      walk_broken bytes stops]
  have plain : quote ∉ byte :: token := fun member => (bytes quote member).2 rfl
  have skipped : (quote :: (byte :: token ++ stop :: line)).dropWhile isBlank =
      quote :: (byte :: token ++ stop :: line) := dropWhile_stays rfl
  have visible' : 0 ∉ quote :: (byte :: token ++ stop :: line) := by
    rw [List.mem_cons, not_or]
    exact ⟨by decide, visible⟩
  obtain ⟨last, isLast, inside⟩ :=
    @walk_goesOn (byte :: token ++ stop :: line) false quote (by rfl) (by decide) visible'
  rw [scanRest_token skipped (by rfl) (by rfl) isLast inside, walked]
  dsimp only
  rw [unquote_open (List.cons_ne_nil _ _) plain]

theorem firstStop {byte : UInt8} {s : List UInt8} (first : stopsAt byte = false)
    (stops : ¬ ∀ other ∈ byte :: s, stopsAt other = false) :
    ∃ token stop behind, s = token ++ stop :: behind ∧
      (∀ other ∈ token, stopsAt other = false) ∧ stopsAt stop = true := by
  have found : (s.find? stopsAt).isSome = true := by
    rw [List.find?_isSome]
    by_contra none
    refine stops fun other member => ?_
    rcases List.mem_cons.mp member with rfl | member
    · exact first
    · exact Bool.not_eq_true _ ▸ fun stop => none ⟨other, member, stop⟩
  obtain ⟨stop, found⟩ := Option.isSome_iff_exists.mp found
  obtain ⟨stop', token, behind, split, before⟩ := List.find?_eq_some_iff_append.mp found
  exact ⟨token, stop, behind, split, fun other member => by simpa using before other member, stop'⟩

theorem protected_of_tokens (isWord : IsWord name) (quotable : Quotable s)
    (short : (quotedLine name s).length < 398)
    (four : scanTokens (quotedLine name s) = some [name, [equals], s, [semicolon]]) : Protected s := by
  rw [scanTokens_quotedLine isWord quotable short] at four
  have visible : 0 ∉ s ++ [quote, semicolon] := by
    rw [List.mem_append, not_or]
    exact ⟨quotable.notZero, by decide⟩
  cases s with
  | nil =>
      have none : scanRest ⟨false, false, [name, [equals]]⟩ [quote, quote, semicolon] = none := rfl
      rw [List.nil_append, none] at four
      cases four
  | cons byte s =>
      by_cases lost : stopsAt byte = true ∨ byte = space
      · rw [List.cons_append, scanRest_lost lost] at four
        cases four
      · rw [not_or, Bool.not_eq_true] at lost
        by_cases inside : ∀ other ∈ byte :: s, stopsAt other = false
        · exact ⟨List.cons_ne_nil _ _, fun same => lost.2 (Option.some.inj same), fun other member =>
            (stopsAt_false_iff (quotable other member).2).mp (inside other member)⟩
        · -- The third token is what stands in front of the first byte that ends one.
          obtain ⟨token, stop, behind, rfl, before, stops⟩ := firstStop lost.1 inside
          have bytes : ∀ other ∈ byte :: token, stopsAt other = false ∧ other ≠ quote := by
            intro other member
            have here : other ∈ byte :: (token ++ stop :: behind) := by
              rw [← List.cons_append]
              exact List.mem_append_left _ member
            refine ⟨?_, (quotable other here).1⟩
            rcases List.mem_cons.mp member with rfl | member
            · exact lost.1
            · exact before other member
          have regroup : byte :: (token ++ stop :: behind) ++ [quote, semicolon] =
              byte :: token ++ stop :: (behind ++ [quote, semicolon]) := by
            rw [List.cons_append, List.append_assoc]
            rfl
          rw [regroup] at visible four
          rw [scanRest_cut lost.2 bytes visible stops] at four
          cases returns : scanRest ⟨false, true, [name, [equals]] ++ [byte :: token]⟩
              (stop :: (behind ++ [quote, semicolon])) with
          | none =>
              rw [returns] at four
              cases four
          | some after =>
              have keeps := scanRest_keeps returns
              rw [returns, returned] at four
              split_ifs at four
              rw [Option.some.inj four] at keeps
              simp at keeps

end Values

/-- Quoting is faithful for the values that quotation marks protect, and for no others. -/
theorem faithful_iff (name s : CString) (isWord : IsWord name) (quotable : Quotable s)
    (short : (quotedLine name s).length < 398) : Faithful name s ↔ Protected s := by
  constructor
  · intro faithful
    exact protected_of_tokens isWord quotable short (faithful.fourTokens [] [] outside_nothing)
  · intro protects
    exact protects.faithful isWord quotable short

theorem name_isWord : IsWord (text "name") := ⟨by decide, by decide +kernel, by decide⟩

theorem faithful_iff_blank : Faithful (text "name") (text "a b") :=
  (faithful_iff (text "name") (text "a b") name_isWord (by decide +kernel) (by decide)).mpr
    ⟨by decide, by decide, by decide +kernel⟩

/-- A value with a tab in it, which quotation marks are meant for. -/
def tabbed : CString := text "a" ++ tab :: text "b"

theorem faithful_fails : IsWord (text "name") ∧ Quotable tabbed ∧
    (quotedLine (text "name") tabbed).length < 398 ∧ ¬ Faithful (text "name") tabbed := by
  refine ⟨name_isWord, by decide +kernel, by decide, fun faithful => ?_⟩
  have five : scanTokens (quotedLine (text "name") tabbed) =
      some [text "name", [equals], text "a", text "b", [semicolon]] := by decide +kernel
  have four := faithful.fourTokens [] [] outside_nothing
  rw [List.nil_append, List.nil_append, five] at four
  cases four

end Qaoed.Rcfg
