import Qaoed.Rcfg.Tokenize

/-!
# Layouts of a sequence of tokens

The same tokens can be written with any blanks, line ends and comments between them. The
scanner comes to the same sequence for each such text, but for a comment that is closed on
a line it does not look at: one that begins with a carriage return, or where a zero byte
stands in front of the end of the comment.
-/

namespace Qaoed.Rcfg

open Qaoed.Device
open Qaoed.Config

/-! ## Texts -/

/-- A word without quotation marks. -/
structure IsWord (token : CString) : Prop where
  notEmpty : token ≠ []
  bytes : ∀ byte ∈ token, stopsAt byte = false ∧ byte ≠ space ∧ byte ≠ 0 ∧ byte ≠ quote
  notComment : ¬ [slash, star] <+: token

/-- Behind a word there is something that ends it. -/
def EndsWord (text : List UInt8) : Prop :=
  ∀ byte ∈ text.head?, (isBlank byte || byte == newline || byte == hash || isDelimiter byte) = true

/-- What may stand between the marks of a comment. -/
structure IsBody (body : List UInt8) : Prop where
  notClosed : ¬ [star, slash] <:+: body
  notSlash : body.head? ≠ some slash

/-- A text that is laid out for a sequence of tokens, with comments of a kind. -/
inductive Layout (allowed : List UInt8 → Prop) : List CString → List UInt8 → Prop
  | done : Layout allowed [] []
  | blank {byte : UInt8} {tokens : List CString} {text : List UInt8} :
      isBlank byte = true → Layout allowed tokens text → Layout allowed tokens (byte :: text)
  | newline {tokens : List CString} {text : List UInt8} :
      Layout allowed tokens text → Layout allowed tokens (newline :: text)
  | remark {remark : List UInt8} {tokens : List CString} {text : List UInt8} :
      Rcfg.newline ∉ remark → (∀ byte ∈ text.head?, byte = Rcfg.newline) →
      Layout allowed tokens text → Layout allowed tokens (hash :: (remark ++ text))
  | comment {body : List UInt8} {tokens : List CString} {text : List UInt8} :
      IsBody body → allowed body → Layout allowed tokens text →
      Layout allowed tokens (slash :: star :: (body ++ star :: slash :: text))
  | delimiter {byte : UInt8} {tokens : List CString} {text : List UInt8} :
      isDelimiter byte = true → Layout allowed tokens text →
      Layout allowed ([byte] :: tokens) (byte :: text)
  | word {token : CString} {tokens : List CString} {text : List UInt8} :
      IsWord token → EndsWord text → Layout allowed tokens text →
      Layout allowed (token :: tokens) (token ++ text)

/-- No line is longer than what is read at once. -/
def ShortLines (text : List UInt8) : Prop := ∀ line ∈ text.splitOn newline, line.length < 398

/-- The scanner looks at the line a comment is closed on: no zero byte hides the end of it,
and if it is another line than that of the beginning, it is not taken for an empty one. -/
structure Closable (body : List UInt8) : Prop where
  visible : ∀ last, last <:+ body → newline ∉ last → 0 ∉ last
  notReturn : ∀ last, newline :: last <:+ body → newline ∉ last →
    firstByte (last.dropWhile isBlank) ≠ carriageReturn

theorem Closable.suffix {body rest : List UInt8} (closable : Closable body) (suffix : rest <:+ body) :
    Closable rest where
  visible last here := closable.visible last (here.trans suffix)
  notReturn last here := closable.notReturn last (here.trans suffix)

/-! ## Tokens and comments on a line -/

section Line

variable {line : List UInt8}

theorem cstring_append {first : List UInt8} (visible : 0 ∉ first) :
    cstring (first ++ line) = first ++ cstring line := by
  apply List.takeWhile_append_of_pos
  intro byte member
  rw [bne_iff_ne]
  rintro rfl
  exact visible member

theorem cstring_visible (visible : 0 ∉ line) : cstring line = line := by
  have whole := @cstring_append [] line visible
  rw [List.append_nil] at whole
  rw [whole]
  exact List.append_nil line

theorem cstring_hidden {first : List UInt8} (hidden : 0 ∈ first) :
    cstring (first ++ line) = cstring first := by
  rw [cstring, cstring, List.takeWhile_append]
  split_ifs with whole
  · have same := List.IsPrefix.eq_of_length (List.takeWhile_prefix _) whole
    have seen := List.takeWhile_eq_self_iff.mp same 0 hidden
    exact absurd seen (by decide)
  · rfl

theorem dropWhile_stays {byte : UInt8} (notBlank : isBlank byte = false) :
    (byte :: line).dropWhile isBlank = byte :: line :=
  List.dropWhile_cons_of_neg (by rw [notBlank]; exact Bool.false_ne_true)

theorem scanLine_eq (scanner : Scanner) : scanLine scanner line = scanRest scanner (cstring line) :=
  scanFrom_enough (List.takeWhile_prefix _).length_le scanner

theorem endsWord_cons {byte : UInt8}
    (ends : (isBlank byte || byte == newline || byte == hash || isDelimiter byte) = true) :
    EndsWord (byte :: line) := by
  rintro _ ⟨⟩
  exact ends

theorem endsWord_cstring (ends : EndsWord line) : EndsWord (cstring line) := by
  cases line with
  | nil => exact ends
  | cons byte line =>
      rw [cstring, List.takeWhile_cons]
      split_ifs
      · exact ends
      · intro other member
        cases member

/-- The walk ends in front of what ends a word. -/
theorem walk_ending {byte : UInt8} (inside : stopsAt byte = false) (ends : EndsWord line) :
    walk false (byte :: line) = (false, [byte], line) := by
  cases line with
  | nil => rfl
  | cons next line =>
      have stops := ends next rfl
      rw [walk, inside, Bool.or_false]
      by_cases blank : next = space
      · rw [blank, if_neg (by decide), if_pos ⟨rfl, rfl⟩]
      · rw [if_pos]
        simp only [isBlank, beq_false_of_ne blank, Bool.false_or] at stops
        simp only [stopsAt]
        revert stops
        cases next == tab <;> cases next == newline <;> cases next == hash <;>
          cases isDelimiter next <;> simp

/-- The walk ends where the word does. -/
theorem walk_word {byte : UInt8} {token : List UInt8}
    (bytes : ∀ other ∈ byte :: token,
      stopsAt other = false ∧ other ≠ space ∧ other ≠ 0 ∧ other ≠ quote)
    (ends : EndsWord line) : walk false (byte :: token ++ line) = (false, byte :: token, line) := by
  induction token generalizing byte with
  | nil => exact walk_ending (bytes byte List.mem_cons_self).1 ends
  | cons next token ih =>
      have here := bytes byte List.mem_cons_self
      have there := bytes next (List.mem_cons_of_mem _ List.mem_cons_self)
      have rest := ih fun other member => bytes other (List.mem_cons_of_mem _ member)
      rw [List.cons_append, List.cons_append, walk, there.1, here.1, Bool.or_self,
        if_neg Bool.false_ne_true, if_neg fun both => there.2.1 both.1,
        beq_false_of_ne here.2.2.2, beq_false_of_ne there.2.2.2]
      rw [List.cons_append] at rest
      simp only [Bool.or_self, Bool.xor_self, rest]

theorem endComment_open (notClosed : ¬ [star, slash] <:+: line) : endComment line = (false, []) := by
  induction line with
  | nil => rfl
  | cons byte line ih =>
      cases line with
      | nil => rfl
      | cons next line =>
          have here : ¬ (byte = star ∧ next = slash) := by
            rintro ⟨rfl, rfl⟩
            exact notClosed ⟨[], line, rfl⟩
          rw [endComment, if_neg here]
          exact ih fun later => notClosed (later.trans (List.suffix_cons byte _).isInfix)

theorem endComment_closed {body : List UInt8} (notClosed : ¬ [star, slash] <:+: body) :
    endComment (body ++ star :: slash :: line) = (true, line) := by
  induction body with
  | nil =>
      rw [List.nil_append, endComment, if_pos ⟨rfl, rfl⟩]
  | cons byte body ih =>
      have rest := ih fun later => notClosed (later.trans (List.suffix_cons byte _).isInfix)
      cases body with
      | nil =>
          rw [List.singleton_append, endComment, if_neg fun both => absurd both.2 (by decide)]
          exact rest
      | cons next body =>
          have here : ¬ (byte = star ∧ next = slash) := by
            rintro ⟨rfl, rfl⟩
            exact notClosed ⟨[], body, rfl⟩
          rw [List.cons_append, List.cons_append, endComment, if_neg here]
          exact rest

/-! ## One piece of a line -/

variable (tokens : List CString)

theorem scanLine_blank {byte : UInt8} (blank : isBlank byte = true) (scanner : Scanner) :
    scanLine scanner (byte :: line) = scanLine scanner line := by
  have visible : 0 ∉ [byte] := not_mem_singleton blank rfl
  rw [scanLine_eq, scanLine_eq, ← List.singleton_append, cstring_append visible,
    List.singleton_append, scanRest_blank blank]

theorem scanLine_delimiter {byte : UInt8} (delimiter : isDelimiter byte = true) :
    scanLine ⟨false, false, tokens⟩ (byte :: line) =
      scanLine ⟨false, false, tokens ++ [[byte]]⟩ line := by
  have stays : isBlank byte = false ∧ endsLine byte = false ∧ byte ≠ slash ∧ byte ≠ hash := by
    rcases isDelimiter_cases delimiter with rfl | rfl | rfl | rfl <;> decide
  obtain ⟨notBlank, goesOn, notSlash, notHash⟩ := stays
  have visible : 0 ∉ [byte] := not_mem_singleton delimiter rfl
  have notQuote : quote ∉ [byte] := not_mem_singleton delimiter rfl
  have comment : inComment ⟨false, false, tokens⟩ (byte :: cstring line) = false := by
    simp [inComment, notSlash]
  have walked := @walk_delimiter byte (cstring line) delimiter false
  have inside : (endsLine byte || byte == hash) = false := by
    rw [goesOn, beq_false_of_ne notHash, Bool.or_false]
  rw [scanLine_eq, scanLine_eq, ← List.singleton_append, cstring_append visible,
    List.singleton_append, scanRest_token (dropWhile_stays notBlank)
      goesOn comment (congrArg (fun result => result.2.1.getLast?) walked) inside, walked]
  dsimp only
  rw [unquote_plain (List.cons_ne_nil _ _) notQuote]

theorem scanLine_word {token : CString} (word : IsWord token) (ends : EndsWord line) :
    scanLine ⟨false, false, tokens⟩ (token ++ line) =
      scanLine ⟨false, false, tokens ++ [token]⟩ line := by
  obtain ⟨notEmpty, bytes, notComment⟩ := word
  have visible : 0 ∉ token := fun member => (bytes 0 member).2.2.1 rfl
  have plain : quote ∉ token := fun member => (bytes quote member).2.2.2 rfl
  rw [scanLine_eq, scanLine_eq, cstring_append visible]
  replace ends := endsWord_cstring ends
  cases token with
  | nil => exact absurd rfl notEmpty
  | cons byte token =>
      have walked := walk_word bytes ends
      obtain ⟨stops, notSpace, notZero, _⟩ := bytes byte List.mem_cons_self
      have notBlank : isBlank byte = false := by
        simp only [stopsAt, Bool.or_eq_false_iff] at stops
        simp [isBlank, notSpace, stops.2]
      have goesOn : endsLine byte = false := by
        simp only [stopsAt, Bool.or_eq_false_iff] at stops
        simp [endsLine, notZero, stops]
      have comment : inComment ⟨false, false, tokens⟩ (byte :: token ++ cstring line) = false := by
        simp only [inComment, Bool.false_or, List.cons_append, List.head?_cons, List.tail_cons]
        by_contra begins
        rw [Bool.not_eq_false, Bool.and_eq_true, beq_iff_eq, beq_iff_eq, Option.some.injEq] at begins
        obtain ⟨rfl, second⟩ := begins
        cases token with
        | nil =>
            have other := ends star second
            exact absurd other (by decide)
        | cons next token =>
            rw [List.cons_append, List.head?_cons, Option.some.injEq] at second
            rw [second] at notComment
            exact notComment ⟨token, rfl⟩
      obtain ⟨last, isLast⟩ := Option.isSome_iff_exists.mp
        (List.getLast?_isSome.mpr (List.cons_ne_nil byte token))
      have inside : (endsLine last || last == hash) = false := by
        obtain ⟨stops, _, notZero, _⟩ := bytes last (List.mem_of_getLast? isLast)
        simp only [stopsAt, Bool.or_eq_false_iff] at stops
        simp [endsLine, notZero, stops]
      have ended : (walk false (byte :: token ++ cstring line)).2.1.getLast? = some last := by
        rw [walked]
        exact isLast
      have skipped : (byte :: token ++ cstring line).dropWhile isBlank =
          byte :: token ++ cstring line := dropWhile_stays notBlank
      rw [scanRest_token skipped goesOn comment ended inside, walked]
      dsimp only
      rw [unquote_plain notEmpty plain]

/-- From a hash on, nothing is taken of the line. -/
theorem scanRest_hash {scanner : Scanner} {p : List UInt8} (outside : scanner.comment = false)
    (skipped : line.dropWhile isBlank = hash :: p) : scanRest scanner line = some scanner := by
  have stops : stopsAt hash = true := by decide
  have walked := walk_stop stops scanner.quotation p
  have notComment : inComment scanner (hash :: p) = false := by
    rw [inComment, outside]
    rfl
  rw [scanRest_remark skipped (by rfl) notComment
    (congrArg (fun result => result.2.1.getLast?) walked) (by rfl), walked]

theorem scanLine_remark (remark : List UInt8) :
    scanLine ⟨false, false, tokens⟩ (hash :: remark) = some ⟨false, false, tokens⟩ := by
  have visible : 0 ∉ [hash] := by decide
  rw [scanLine_eq, ← List.singleton_append, cstring_append visible, List.singleton_append]
  exact scanRest_hash rfl (dropWhile_stays rfl)

theorem cstring_comment {body : List UInt8} (visible : 0 ∉ body) :
    cstring (body ++ star :: slash :: line) = body ++ star :: slash :: cstring line := by
  have marks : 0 ∉ [star, slash] := by decide
  have shown : cstring (star :: slash :: line) = star :: slash :: cstring line :=
    cstring_append marks
  rw [cstring_append visible, shown]

/-- A comment that begins and ends on the line. -/
theorem scanLine_comment {body : List UInt8} (notClosed : ¬ [star, slash] <:+: slash :: star :: body)
    (visible : 0 ∉ body) :
    scanLine ⟨false, false, tokens⟩ (slash :: star :: (body ++ star :: slash :: line)) =
      scanLine ⟨false, false, tokens⟩ line := by
  have visible' : 0 ∉ slash :: star :: body := by
    rw [List.mem_cons, List.mem_cons, not_or, not_or]
    exact ⟨by decide, by decide, visible⟩
  have goesOn : endsLine slash = false := by decide
  have skipped : (slash :: star :: body ++ star :: slash :: cstring line).dropWhile isBlank =
      slash :: star :: body ++ star :: slash :: cstring line := dropWhile_stays rfl
  rw [scanLine_eq, scanLine_eq, ← List.cons_append, ← List.cons_append, cstring_comment visible',
    scanRest_comment skipped goesOn (by rfl), endComment_closed notClosed]
  rfl

/-- A comment that begins on the line, and goes on. -/
theorem scanLine_commentOpens (notClosed : ¬ [star, slash] <:+: slash :: star :: line) :
    scanLine ⟨false, false, tokens⟩ (slash :: star :: line) = some ⟨true, false, tokens⟩ := by
  have marks : 0 ∉ [slash, star] := by decide
  have goesOn : endsLine slash = false := by decide
  have shown : cstring (slash :: star :: line) = slash :: star :: cstring line :=
    cstring_append marks
  have hidden : ¬ [star, slash] <:+: slash :: star :: cstring line := by
    rw [← shown]
    exact fun closes => notClosed (closes.trans (List.takeWhile_prefix _).isInfix)
  rw [scanLine_eq, shown, scanRest_comment (@dropWhile_stays _ slash rfl) goesOn (by rfl),
    endComment_open hidden]
  rfl

/-- A line inside a comment. -/
theorem scanLine_commentGoesOn (notClosed : ¬ [star, slash] <:+: line) :
    scanLine ⟨true, false, tokens⟩ line = some ⟨true, false, tokens⟩ := by
  rw [scanLine_eq]
  cases ends : endsLine (firstByte ((cstring line).dropWhile isBlank)) with
  | true => exact scanRest_end ends
  | false =>
      have hidden : ¬ [star, slash] <:+: (cstring line).dropWhile isBlank := fun closes =>
        notClosed (closes.trans
          ((List.dropWhile_suffix _).isInfix.trans (List.takeWhile_prefix _).isInfix))
      rw [scanRest_comment rfl ends (by rfl), endComment_open hidden]
      rfl

/-- The line a comment ends on, looked at from its beginning. -/
theorem scanLine_commentCloses {body : List UInt8} (notClosed : ¬ [star, slash] <:+: body)
    (visible : 0 ∉ body) (whole : newline ∉ body)
    (notReturn : firstByte (body.dropWhile isBlank) ≠ carriageReturn) :
    scanLine ⟨true, false, tokens⟩ (body ++ star :: slash :: line) =
      scanLine ⟨false, false, tokens⟩ line := by
  have skipped : (body ++ star :: slash :: cstring line).dropWhile isBlank =
      body.dropWhile isBlank ++ star :: slash :: cstring line := by
    rw [List.dropWhile_append]
    split_ifs with none
    · rw [List.isEmpty_iff.mp none]
      exact List.dropWhile_cons_of_neg (by decide)
    · rfl
  have goesOn : endsLine (firstByte (body.dropWhile isBlank ++ star :: slash :: cstring line)) =
      false := by
    cases rest : body.dropWhile isBlank with
    | nil => exact (by decide : endsLine star = false)
    | cons byte rest' =>
        have member : byte ∈ body :=
          (List.dropWhile_suffix isBlank).mem (rest ▸ List.mem_cons_self)
        rw [rest] at notReturn
        have notZero : byte ≠ 0 := fun same => visible (same ▸ member)
        have notNewline : byte ≠ newline := fun same => whole (same ▸ member)
        rw [firstByte_cons] at notReturn
        simp [endsLine, notZero, notNewline, notReturn]
  have hidden : ¬ [star, slash] <:+: body.dropWhile isBlank := fun closes =>
    notClosed (closes.trans (List.dropWhile_suffix _).isInfix)
  rw [scanLine_eq, scanLine_eq, cstring_comment visible, scanRest_comment skipped goesOn (by rfl),
    endComment_closed hidden]
  rfl

end Line

/-! ## Whole texts -/

/-- The scanner on all lines of a text, or on what is left of it from the middle of a line. -/
def scanText (scanner : Scanner) (text : List UInt8) : Option Scanner :=
  (text.splitOn newline).foldlM scanLine scanner

section Text

variable {scanner scanner' : Scanner} {text : List UInt8}

theorem scanText_line {line : List UInt8} (whole : newline ∉ line) :
    scanText scanner line = scanLine scanner line := by
  rw [scanText, List.splitOn_eq_singleton whole, List.foldlM_cons]
  exact bind_pure _

theorem scanText_lines {line : List UInt8} (whole : newline ∉ line) :
    scanText scanner (line ++ newline :: text) =
      (scanLine scanner line).bind fun scanner => scanText scanner text := by
  rw [scanText, List.splitOn_append_cons_self_of_not_mem whole, List.foldlM_cons]
  rfl

/-- What the scanner makes of a piece of a line in front of the rest of the line, it makes
of it in front of the rest of the text. -/
theorem scanText_append {piece : List UInt8} (whole : newline ∉ piece)
    (same : ∀ line, line <+: text → scanLine scanner (piece ++ line) = scanLine scanner' line) :
    scanText scanner (piece ++ text) = scanText scanner' text := by
  by_cases ends : newline ∈ text
  · obtain ⟨line, rest, rfl, whole'⟩ := List.eq_append_cons_of_mem ends
    have both : newline ∉ piece ++ line := by
      rw [List.mem_append, not_or]
      exact ⟨whole, whole'⟩
    rw [← List.append_assoc, scanText_lines both, scanText_lines whole',
      same line (List.prefix_append _ _)]
  · have both : newline ∉ piece ++ text := by
      rw [List.mem_append, not_or]
      exact ⟨whole, ends⟩
    rw [scanText_line both, scanText_line ends, same text List.prefix_rfl]

variable (tokens : List CString)

/-- A comment that has begun on an earlier line, by induction on the lines of it. -/
theorem scanText_commentGoesOn {body : List UInt8} (notClosed : ¬ [star, slash] <:+: body)
    (closable : Closable (newline :: body)) :
    scanText ⟨true, false, tokens⟩ (body ++ star :: slash :: text) =
      scanText ⟨false, false, tokens⟩ text := by
  induction length : body.length using Nat.strong_induction_on generalizing body with
  | _ length ih =>
      by_cases ends : newline ∈ body
      · obtain ⟨line, rest, rfl, whole⟩ := List.eq_append_cons_of_mem ends
        have goesOn : ¬ [star, slash] <:+: line := fun closes =>
          notClosed (closes.trans (List.prefix_append _ _).isInfix)
        have later : newline :: rest <:+ line ++ newline :: rest := List.suffix_append _ _
        have restOpen : ¬ [star, slash] <:+: rest := fun closes =>
          notClosed (closes.trans ((List.suffix_cons _ _).trans later).isInfix)
        rw [List.append_assoc, List.cons_append, scanText_lines whole,
          scanLine_commentGoesOn tokens goesOn, Option.bind_some]
        apply ih rest.length _ restOpen (closable.suffix (later.trans (List.suffix_cons _ _))) rfl
        rw [← length, List.length_append, List.length_cons]
        omega
      · have piece : newline ∉ body ++ [star, slash] := by
          rw [List.mem_append, not_or]
          exact ⟨ends, by decide⟩
        have regroup (line : List UInt8) :
            body ++ star :: slash :: line = (body ++ [star, slash]) ++ line :=
          (List.append_assoc body [star, slash] line).symm
        rw [regroup]
        apply scanText_append piece
        intro line _
        rw [← regroup]
        exact scanLine_commentCloses tokens notClosed
          (closable.visible body (List.suffix_cons _ _) ends) ends
          (closable.notReturn body List.suffix_rfl ends)

theorem scanText_comment {body : List UInt8} (isBody : IsBody body) (closable : Closable body) :
    scanText ⟨false, false, tokens⟩ (slash :: star :: (body ++ star :: slash :: text)) =
      scanText ⟨false, false, tokens⟩ text := by
  have notClosed : ¬ [star, slash] <:+: slash :: star :: body := by
    rintro closes
    rcases List.infix_cons_iff.mp closes with first | closes
    · exact absurd (List.cons_prefix_cons.mp first).1 (by decide)
    · rcases List.infix_cons_iff.mp closes with second | closes
      · cases body with
        | nil => exact absurd second (by decide)
        | cons byte body =>
            have same := (List.cons_prefix_cons.mp (List.cons_prefix_cons.mp second).2).1
            exact isBody.notSlash (congrArg some same.symm)
      · exact isBody.notClosed closes
  by_cases ends : newline ∈ body
  · obtain ⟨line, rest, rfl, whole⟩ := List.eq_append_cons_of_mem ends
    have marks : newline ∉ slash :: star :: line := by
      rw [List.mem_cons, List.mem_cons, not_or, not_or]
      exact ⟨by decide, by decide, whole⟩
    have opens : ¬ [star, slash] <:+: slash :: star :: line := fun closes =>
      notClosed (closes.trans (List.prefix_append (slash :: star :: line) (newline :: rest)).isInfix)
    have later : newline :: rest <:+ line ++ newline :: rest := List.suffix_append _ _
    have restOpen : ¬ [star, slash] <:+: rest := fun closes =>
      isBody.notClosed (closes.trans ((List.suffix_cons _ _).trans later).isInfix)
    rw [List.append_assoc, List.cons_append, ← List.cons_append, ← List.cons_append,
      scanText_lines marks, scanLine_commentOpens tokens opens, Option.bind_some]
    exact scanText_commentGoesOn tokens restOpen (closable.suffix later)
  · have piece : newline ∉ slash :: star :: (body ++ [star, slash]) := by
      rw [List.mem_cons, List.mem_cons, not_or, not_or, List.mem_append, not_or]
      exact ⟨by decide, by decide, ends, by decide⟩
    have regroup (line : List UInt8) : slash :: star :: (body ++ star :: slash :: line) =
        slash :: star :: (body ++ [star, slash]) ++ line := by
      rw [List.cons_append, List.cons_append, List.append_assoc]
      rfl
    rw [regroup]
    apply scanText_append piece
    intro line _
    rw [← regroup]
    exact scanLine_comment tokens notClosed (closable.visible body List.suffix_rfl ends)

end Text

/-- The scanner on a layout, by induction on the pieces it is made of. -/
theorem scanText_layout {tokens : List CString} {text : List UInt8}
    (layout : Layout Closable tokens text) (before : List CString) :
    scanText ⟨false, false, before⟩ text = some ⟨false, false, before ++ tokens⟩ := by
  induction layout generalizing before with
  | done =>
      rw [List.append_nil]
      rfl
  | @blank byte tokens text blank _ ih =>
      have whole : newline ∉ [byte] := not_mem_singleton blank rfl
      rw [← List.singleton_append, scanText_append whole fun line _ => scanLine_blank blank _]
      exact ih before
  | @newline tokens text _ ih =>
      rw [← List.nil_append (newline :: text), scanText_lines List.not_mem_nil]
      exact ih before
  | @remark remark tokens text whole ends _ ih =>
      have line : newline ∉ hash :: remark := by
        rw [List.mem_cons, not_or]
        exact ⟨by decide, whole⟩
      rw [← ih before, ← List.cons_append]
      cases text with
      | nil =>
          rw [List.append_nil, scanText_line line, scanLine_remark]
          rfl
      | cons byte text =>
          rw [ends byte rfl, scanText_lines line, scanLine_remark,
            ← List.nil_append (newline :: text), scanText_lines List.not_mem_nil]
          rfl
  | @comment body tokens text isBody closable _ ih =>
      rw [scanText_comment before isBody closable]
      exact ih before
  | @delimiter byte tokens text delimiter _ ih =>
      have whole : newline ∉ [byte] := not_mem_singleton delimiter rfl
      rw [← List.singleton_append, scanText_append whole fun line _ =>
        scanLine_delimiter before delimiter, ih, List.append_assoc]
      rfl
  | @word token tokens text word ends _ ih =>
      have whole : newline ∉ token := fun member => absurd (word.bytes newline member).1 (by decide)
      have same (line : List UInt8) (begins : line <+: text) :
          scanLine ⟨false, false, before⟩ (token ++ line) =
            scanLine ⟨false, false, before ++ [token]⟩ line := by
        apply scanLine_word before word
        obtain ⟨rest, rfl⟩ := begins
        intro byte member
        cases line with
        | nil => cases member
        | cons first line => exact ends byte member
      rw [scanText_append whole same, ih, List.append_assoc]
      rfl

/-! ## Reading line by line -/

section Reading

/-- The end of a line is not part of a token. -/
theorem endComment_newline (line : List UInt8) :
    endComment (line ++ [newline]) = ((endComment line).1,
      if (endComment line).1 then (endComment line).2 ++ [newline] else []) := by
  induction line with
  | nil => rfl
  | cons byte line ih =>
      cases line with
      | nil =>
          have other : newline ≠ slash := by decide
          simp [endComment, other]
      | cons next line =>
          rw [List.cons_append, List.cons_append, endComment, endComment]
          by_cases ends : byte = star ∧ next = slash
          · rw [if_pos ends, if_pos ends]
            rfl
          · rw [if_neg ends, if_neg ends]
            exact ih

theorem walk_newline (quotation : Bool) (byte : UInt8) (line : List UInt8) :
    walk quotation (byte :: line ++ [newline]) = ((walk quotation (byte :: line)).1,
      (walk quotation (byte :: line)).2.1, (walk quotation (byte :: line)).2.2 ++ [newline]) := by
  induction line generalizing quotation byte with
  | nil =>
      have stops : stopsAt newline = true := by decide
      have ends : walk quotation [byte, newline] = (quotation, [byte], [newline]) := by
        rw [walk, stops, Bool.true_or, if_pos rfl]
      exact ends
  | cons next line ih =>
      rw [List.cons_append, List.cons_append, walk, walk]
      split_ifs
      · rfl
      · rfl
      · dsimp only
        rw [← List.cons_append, ih]

theorem endComment_unclosed {line : List UInt8} (unclosed : (endComment line).1 = false) :
    endComment line = (false, []) := by
  induction line with
  | nil => rfl
  | cons byte line ih =>
      cases line with
      | nil => rfl
      | cons next line =>
          rw [endComment] at unclosed ⊢
          split_ifs at unclosed ⊢ with ends
          exact ih unclosed

theorem inComment_newline (scanner : Scanner) (byte : UInt8) (rest : List UInt8) :
    inComment scanner (byte :: rest ++ [newline]) = inComment scanner (byte :: rest) := by
  cases rest with
  | nil => rfl
  | cons next rest => rfl

theorem walk_last (quotation : Bool) (byte : UInt8) (line : List UInt8) :
    ∃ last, (walk quotation (byte :: line)).2.1.getLast? = some last := by
  obtain ⟨token, begins⟩ := walk_begins quotation byte line
  rw [begins]
  exact Option.isSome_iff_exists.mp (List.getLast?_isSome.mpr (List.cons_ne_nil byte token))

/-- From one stop to the next, by induction on what is left of the line. -/
theorem scanRest_newline (scanner : Scanner) (line : List UInt8) :
    scanRest scanner (line ++ [newline]) = scanRest scanner line := by
  induction length : line.length using Nat.strong_induction_on generalizing scanner line with
  | _ length ih =>
      cases skipped : line.dropWhile isBlank with
      | nil =>
          have skipped' : (line ++ [newline]).dropWhile isBlank = [newline] := by
            rw [List.dropWhile_append, skipped]
            rfl
          rw [scanRest_end (by rw [skipped']; rfl), scanRest_end (by rw [skipped]; rfl)]
      | cons byte rest =>
          have skipped' : (line ++ [newline]).dropWhile isBlank = byte :: rest ++ [newline] := by
            rw [List.dropWhile_append, skipped]
            rfl
          have shorter : rest.length + 1 ≤ line.length := by
            have suffix := (List.dropWhile_suffix isBlank (l := line)).length_le
            rw [skipped] at suffix
            exact suffix
          cases goesOn : endsLine byte with
          | true =>
              rw [scanRest_end (by rw [skipped']; exact goesOn),
                scanRest_end (by rw [skipped]; exact goesOn)]
          | false =>
              have goesOn' : endsLine (firstByte (byte :: rest ++ [newline])) = false := goesOn
              have comment := inComment_newline scanner byte rest
              cases inside : inComment scanner (byte :: rest) with
              | true =>
                  have progress := endComment_length (byte :: rest)
                  rw [List.length_cons, Nat.add_sub_cancel] at progress
                  rw [scanRest_comment skipped goesOn inside,
                    scanRest_comment skipped' goesOn' (comment.trans inside), endComment_newline]
                  cases closed : (endComment (byte :: rest)).1 with
                  | true => exact ih _ (by omega) _ _ rfl
                  | false =>
                      rw [endComment_unclosed closed]
                      rfl
              | false =>
                  have progress := walk_length scanner.quotation (byte :: rest)
                  rw [List.length_cons, Nat.add_sub_cancel] at progress
                  have walked := walk_newline scanner.quotation byte rest
                  obtain ⟨last, isLast⟩ := walk_last scanner.quotation byte rest
                  have isLast' : (walk scanner.quotation (byte :: rest ++ [newline])).2.1.getLast? =
                      some last := by rw [walked]; exact isLast
                  cases stays : endsLine last || last == hash with
                  | true =>
                      rw [scanRest_remark skipped goesOn inside isLast stays,
                        scanRest_remark skipped' goesOn' (comment.trans inside) isLast' stays, walked]
                  | false =>
                      rw [scanRest_token skipped goesOn inside isLast stays,
                        scanRest_token skipped' goesOn' (comment.trans inside) isLast' stays, walked]
                      dsimp only
                      cases unquote (walk scanner.quotation (byte :: rest)).2.1 with
                      | none => rfl
                      | some token => exact ih _ (Nat.lt_of_le_of_lt progress (by omega)) _ _ rfl

theorem scanLine_newline (scanner : Scanner) {line : List UInt8} :
    scanLine scanner (line ++ [newline]) = scanLine scanner line := by
  rw [scanLine_eq, scanLine_eq]
  by_cases visible : 0 ∈ line
  · rw [cstring_hidden visible]
  · rw [cstring_append visible, cstring_visible visible]
    exact scanRest_newline scanner line

theorem fgets_line {line rest : List UInt8} {room : Nat} (whole : newline ∉ line)
    (short : line.length < room) : fgets room (line ++ newline :: rest) = (line ++ [newline], rest) := by
  induction line generalizing room with
  | nil =>
      obtain ⟨room, rfl⟩ := Nat.exists_eq_add_one_of_ne_zero (Nat.ne_zero_of_lt short)
      rw [List.nil_append, fgets, if_pos rfl]
      rfl
  | cons byte line ih =>
      obtain ⟨room, rfl⟩ := Nat.exists_eq_add_one_of_ne_zero (Nat.ne_zero_of_lt short)
      rw [List.mem_cons, not_or] at whole
      rw [List.cons_append, fgets, if_neg (Ne.symm whole.1), ih whole.2 (Nat.lt_of_succ_lt_succ short)]
      rfl

theorem fgets_last {line : List UInt8} {room : Nat} (whole : newline ∉ line)
    (short : line.length < room) : fgets room line = (line, []) := by
  induction line generalizing room with
  | nil =>
      obtain ⟨room, rfl⟩ := Nat.exists_eq_add_one_of_ne_zero (Nat.ne_zero_of_lt short)
      rfl
  | cons byte line ih =>
      obtain ⟨room, rfl⟩ := Nat.exists_eq_add_one_of_ne_zero (Nat.ne_zero_of_lt short)
      rw [List.mem_cons, not_or] at whole
      rw [fgets, if_neg (Ne.symm whole.1), ih whole.2 (Nat.lt_of_succ_lt_succ short)]

/-- Lines that are short are read one by one. -/
theorem readLines_scanText {fuel : Nat} {text : List UInt8} (short : ShortLines text)
    (enough : text.length ≤ fuel) (scanner : Scanner) :
    (readLines fuel text).foldlM scanLine scanner = scanText scanner text := by
  induction fuel generalizing text scanner with
  | zero =>
      rw [List.length_eq_zero_iff.mp (Nat.le_zero.mp enough), scanText_line List.not_mem_nil]
      rfl
  | succ fuel ih =>
      by_cases ends : newline ∈ text
      · obtain ⟨line, rest, rfl, whole⟩ := List.eq_append_cons_of_mem ends
        rw [ShortLines, List.splitOn_append_cons_self_of_not_mem whole, List.forall_mem_cons] at short
        rw [List.length_append, List.length_cons] at enough
        have read : readLines (fuel + 1) (line ++ newline :: rest) =
            (line ++ [newline]) :: readLines fuel rest := by
          cases line with
          | nil =>
              rw [List.nil_append, readLines, ← List.nil_append (newline :: rest),
                fgets_line whole short.1]
          | cons byte line =>
              rw [List.cons_append, readLines, ← List.cons_append, fgets_line whole short.1]
        rw [read, List.foldlM_cons, scanLine_newline, scanText_lines whole]
        congr 1
        funext scanner
        exact ih short.2 (by omega) scanner
      · rw [ShortLines, List.splitOn_eq_singleton ends, List.forall_mem_singleton] at short
        rw [scanText_line ends]
        cases text with
        | nil => rfl
        | cons byte text =>
            rw [readLines, fgets_last ends short]
            have done : readLines fuel [] = [] := by
              cases fuel <;> rfl
            dsimp only
            rw [done, List.foldlM_cons]
            exact bind_pure _

theorem scanTokens_layout {tokens : List CString} {text : List UInt8}
    (layout : Layout Closable tokens text) (short : ShortLines text) :
    scanTokens text = some tokens := by
  have scanned : scan text = some ⟨false, false, tokens⟩ := by
    rw [scan, readLines_scanText short (Nat.le_refl _)]
    exact scanText_layout layout []
  rw [scanTokens, scanned]
  rfl

end Reading

/-- Whatever blanks, line ends and comments stand between the tokens, the scanner finds
the tokens: with comments whose last line it looks at. -/
theorem layout_tokenized (tokens : List CString) (text : List UInt8)
    (layout : Layout Closable tokens text) (short : ShortLines text) :
    scanTokens text = some tokens :=
  scanTokens_layout layout short

/-- `a` and `=` on two lines, with a comment that goes on over both. -/
def twoLines : List UInt8 :=
  text "a" ++ space :: slash :: star :: ([newline] ++ star :: slash :: equals :: hash :: (text "b" ++ []))

theorem layout_tokenized_twoLines : scanTokens twoLines = some [text "a", [equals]] := by
  apply layout_tokenized
  · refine .word ⟨by decide, by decide +kernel, by decide⟩ ?_ (.blank rfl (.comment ⟨by decide, by decide⟩
      ?_ (.delimiter rfl (.remark (by decide) ?_ .done))))
    · intro byte member
      cases member
      rfl
    · refine ⟨fun last suffix _ member => absurd (suffix.mem member) (by decide), ?_⟩
      intro last suffix _
      have none : last = [] := by
        have length := suffix.length_le
        rw [List.length_cons] at length
        exact List.length_eq_zero_iff.mp (Nat.le_zero.mp (Nat.le_of_succ_le_succ length))
      rw [none]
      decide
    · intro byte member
      cases member
  · unfold ShortLines
    decide

/-- A word behind a comment. -/
def behindComment (body : List UInt8) : List UInt8 :=
  slash :: star :: (body ++ star :: slash :: space :: (text "a" ++ []))

/-- The text is a layout of the word but for the kind of its comment, and the scanner does
not find the word. -/
def Hidden (body : List UInt8) : Prop :=
  Layout (fun _ => True) [text "a"] (behindComment body) ∧ ShortLines (behindComment body) ∧
    scanTokens (behindComment body) ≠ some [text "a"]

/-- A comment that ends on a line with a carriage return in front, and one with a zero
byte in it: the scanner does not see the end of them, and gives up. -/
theorem unclosedTexts_refused : Hidden [newline, carriageReturn] ∧ Hidden [0] := by
  have laid (body : List UInt8) (isBody : IsBody body) :
      Layout (fun _ => True) [text "a"] (behindComment body) :=
    .comment isBody trivial (.blank rfl (.word ⟨by decide, by decide +kernel, by decide⟩
      (fun byte member => nomatch member) .done))
  refine ⟨⟨laid _ ⟨by decide, by decide⟩, ?_, by decide⟩, laid _ ⟨by decide, by decide⟩, ?_, by decide⟩
  · unfold ShortLines
    decide
  · unfold ShortLines
    decide

end Qaoed.Rcfg
