import Qaoed.Rcfg.Buffers
import Qaoed.Rcfg.Pieces

/-!
# Where a buffer ends

What the scanner makes of a line in one piece and what it makes of it buffer by buffer
differ where a buffer ends inside of what the scanner takes together. The place where it
ends says whether they do, for all that may come next.
-/

namespace Qaoed.Rcfg

open Qaoed.Device
open Qaoed.Config

/-- What the end of a buffer falls on, as the scanner sees it from the beginning of the
line: nothing but blanks, a comment or a word from its first byte on, a line that is not
looked at any more, or one that NULL has been returned for. -/
inductive Place
  | refused
  | ended (inside : Bool)
  | between (inside : Bool)
  | comment (p : List UInt8)
  | word (quotation : Bool) (p : List UInt8)
  deriving DecidableEq, Repr

/-- From the label `start`, with fuel as the scanner has it. -/
def placeFrom : Nat → Scanner → List UInt8 → Place
  | 0, scanner, _ => .between scanner.comment
  | fuel + 1, scanner, front =>
      let p := front.dropWhile isBlank
      if p = [] then .between scanner.comment
      else if endsLine (firstByte p) then .ended scanner.comment
      else if inComment scanner p then
        let (closed, behind) := endComment p
        if closed then placeFrom fuel { scanner with comment := false } behind else .comment p
      else if firstByte p = hash then .ended false
      else
        let (quotation, token, behind) := walk scanner.quotation p
        if behind = [] then .word scanner.quotation p
        else
          match unquote token with
          | none => .refused
          | some token =>
              placeFrom fuel { scanner with quotation := quotation, tokens := scanner.tokens ++ [token] } behind

/-- A zero byte hides what comes behind it. -/
def Place.hide : Place → Place
  | refused => refused
  | ended inside => ended inside
  | between inside => ended inside
  | comment _ => ended true
  | word _ p => if (unquote p).isNone then refused else ended false

def placeAt (scanner : Scanner) (front : List UInt8) : Place :=
  let place := placeFrom (cstring front).length scanner (cstring front)
  if 0 ∈ front then place.hide else place

/-- Nothing is taken from a line that begins so. -/
def ignores (comment : Bool) (chunk : List UInt8) : Bool :=
  let p := chunk.dropWhile isBlank
  endsLine (firstByte p) || if comment then !(endComment p).1 else firstByte p == hash

/-- What the next buffer begins with makes no difference to what it would be in one piece
with the line in front of it: a word goes no further, the end of a comment is in one of
the two, and nothing behind the end of the line is taken for a line. -/
def Place.continues : Place → List UInt8 → Bool
  | refused, _ => true
  | ended inside, chunk => ignores inside chunk
  | between _, _ => true
  | comment p, chunk =>
      !(p.getLast? == some star && chunk.head? == some slash) &&
        !(endsLine (firstByte (chunk.dropWhile isBlank)) && (endComment chunk).1)
  | word quotation p, chunk =>
      let token := (walk quotation (p ++ chunk)).2.1
      token == p || ((unquote p).isNone && (unquote token).isNone)

/-! ## What a place says of the line -/

/-- A word up to the end of what is there of a line. -/
structure OpenWord (before : Scanner) (p : List UInt8) : Prop where
  inside : before.comment = false
  begins : ∀ byte ∈ p.head?, isBlank byte = false ∧ endsLine byte = false ∧ byte ≠ hash
  notEmpty : p ≠ []
  visible : 0 ∉ p
  notComment : inComment before p = false
  goesOn : (walk before.quotation p).2.2 = []

/-- A comment up to the end of what is there of a line. -/
structure OpenComment (before : Scanner) (p : List UInt8) : Prop where
  begins : ∀ byte ∈ p.head?, isBlank byte = false ∧ endsLine byte = false
  notEmpty : p ≠ []
  comment : inComment before p = true
  goesOn : (endComment p).1 = false

/-- What the scanner makes of a line for all that may come behind the part it has seen. -/
inductive Stands (reads : List UInt8 → Option Scanner) : Place → Prop
  | refused : (∀ rest, reads rest = none) → Stands reads .refused
  | ended {after : Scanner} : (∀ rest, reads rest = some after) → Stands reads (.ended after.comment)
  | between {after : Scanner} :
      (∀ rest, reads rest = scanRest after rest) → Stands reads (.between after.comment)
  | comment {before : Scanner} {p : List UInt8} :
      (∀ rest, reads rest = scanRest before (p ++ rest)) → OpenComment before p →
      Stands reads (.comment p)
  | word {before : Scanner} {p : List UInt8} :
      (∀ rest, reads rest = scanRest before (p ++ rest)) → OpenWord before p →
      Stands reads (.word before.quotation p)

/-- By induction on the pieces that end in front of the end of the buffer. -/
theorem placeFrom_stands {fuel : Nat} {scanner : Scanner} {front : List UInt8} (visible : 0 ∉ front)
    (enough : front.length ≤ fuel) :
    Stands (fun rest => scanRest scanner (front ++ rest)) (placeFrom fuel scanner front) := by
  induction fuel generalizing scanner front with
  | zero =>
      rw [List.length_eq_zero_iff.mp (Nat.le_zero.mp enough)]
      exact .between fun rest => rfl
  | succ fuel ih =>
      have suffix := List.dropWhile_suffix isBlank (l := front)
      have skips (rest : List UInt8) : scanRest scanner (front ++ rest) =
          scanRest scanner ((front ++ rest).dropWhile isBlank) := (scanRest_dropWhile scanner _).symm
      rw [placeFrom]
      dsimp only
      cases skipped : front.dropWhile isBlank with
      | nil =>
          rw [if_pos rfl]
          refine .between fun rest => ?_
          rw [skips, List.dropWhile_append, skipped, List.isEmpty_nil, if_pos rfl, scanRest_dropWhile]
      | cons byte p =>
          have notBlank : isBlank byte = false := by
            have first := List.head?_dropWhile_not isBlank front
            rw [skipped] at first
            exact first
          rw [skipped] at suffix
          have shorter := suffix.length_le
          rw [List.length_cons] at shorter
          have visible' : 0 ∉ byte :: p := fun member => visible (suffix.mem member)
          have reads : (fun rest => scanRest scanner (front ++ rest)) =
              fun rest => scanRest scanner (byte :: p ++ rest) := by
            funext rest
            rw [skips, List.dropWhile_append, skipped]
            rfl
          rw [reads, if_neg (List.cons_ne_nil _ _), firstByte_cons]
          cases goesOn : endsLine byte with
          | true =>
              rw [if_pos rfl]
              exact .ended fun rest => scanRest_end (by
                rw [List.cons_append, dropWhile_stays notBlank]
                exact goesOn)
          | false =>
              rw [if_neg Bool.false_ne_true]
              cases comment : inComment scanner (byte :: p) with
              | true =>
                  rw [if_pos rfl]
                  cases closes : (endComment (byte :: p)).1 with
                  | false =>
                      rw [if_neg Bool.false_ne_true]
                      refine .comment (fun rest => rfl) ⟨?_, List.cons_ne_nil _ _, comment, closes⟩
                      rintro _ ⟨⟩
                      exact ⟨notBlank, goesOn⟩
                  | true =>
                      have behind := endComment_suffix (byte :: p)
                      have progress := endComment_length (byte :: p)
                      rw [List.length_cons, Nat.add_sub_cancel] at progress
                      rw [if_pos rfl, funext (scanRest_closed notBlank goesOn comment closes)]
                      exact ih (fun member => visible' (behind.mem member)) (by omega)
              | false =>
                  have outside : scanner.comment = false := by
                    rw [inComment, Bool.or_eq_false_iff] at comment
                    exact comment.1
                  rw [if_neg Bool.false_ne_true]
                  by_cases remark : byte = hash
                  · subst remark
                    rw [if_pos rfl, ← outside]
                    exact .ended fun rest => scanRest_hash outside (dropWhile_stays notBlank)
                  · rw [if_neg remark]
                    by_cases ends : (walk scanner.quotation (byte :: p)).2.2 = []
                    · rw [if_pos ends]
                      refine .word (fun rest => rfl)
                        ⟨outside, ?_, List.cons_ne_nil _ _, visible', comment, ends⟩
                      rintro _ ⟨⟩
                      exact ⟨notBlank, goesOn, remark⟩
                    · have progress := walk_length scanner.quotation (byte :: p)
                      rw [List.length_cons, Nat.add_sub_cancel] at progress
                      have behind : 0 ∉ (walk scanner.quotation (byte :: p)).2.2 := by
                        intro member
                        apply visible'
                        rw [← walk_split scanner.quotation (byte :: p)]
                        exact List.mem_append_right _ member
                      have token := scanRest_ended notBlank goesOn comment remark visible' ends
                      rw [if_neg ends, funext token]
                      cases unquote (walk scanner.quotation (byte :: p)).2.1 with
                      | none => exact .refused fun rest => rfl
                      | some token => exact ih behind (by omega)

/-! ## One piece of the line -/

section Standing

variable {reads : List UInt8 → Option Scanner} {before scanner : Scanner} {p chunk : List UInt8}

theorem ignores_scan (ignored : ignores scanner.comment chunk = true) :
    scanRest scanner chunk = some scanner := by
  cases ends : endsLine (firstByte (chunk.dropWhile isBlank)) with
  | true => exact scanRest_end ends
  | false =>
      rw [ignores, ends, Bool.false_or] at ignored
      cases inside : scanner.comment with
      | true =>
          rw [inside, if_pos rfl, Bool.not_eq_true'] at ignored
          have comment : inComment scanner (chunk.dropWhile isBlank) = true := by
            rw [inComment, inside, Bool.true_or]
          rw [scanRest_comment rfl ends comment, endComment_unclosed ignored, Bool.not_false, ← inside]
          rfl
      | false =>
          rw [inside, if_neg Bool.false_ne_true, beq_iff_eq] at ignored
          cases rest : chunk.dropWhile isBlank with
          | nil =>
              rw [rest] at ends
              cases ends
          | cons byte rest' =>
              rw [rest, firstByte_cons] at ignored
              subst ignored
              exact scanRest_hash inside rest

theorem OpenComment.read (opened : OpenComment before p) (rest : List UInt8) :
    scanRest before (p ++ rest) =
      scanRest { before with comment := !(endComment (p ++ rest)).1 } (endComment (p ++ rest)).2 := by
  cases p with
  | nil => exact absurd rfl opened.notEmpty
  | cons byte p =>
      obtain ⟨notBlank, goesOn⟩ := opened.begins byte rfl
      have stays : (byte :: p ++ rest).dropWhile isBlank = byte :: p ++ rest := dropWhile_stays notBlank
      exact scanRest_comment stays goesOn (inComment_append opened.comment)

/-- Behind the buffer the comment goes on. -/
theorem OpenComment.ends (opened : OpenComment before p) :
    scanRest before p = some { before with comment := true } := by
  have read := opened.read []
  rw [List.append_nil, endComment_unclosed opened.goesOn] at read
  exact read

theorem OpenWord.read (opened : OpenWord before p) {rest : List UInt8} (visible : 0 ∉ rest)
    (notComment : inComment before (p ++ rest) = false) :
    scanRest before (p ++ rest) = match unquote (walk before.quotation (p ++ rest)).2.1 with
      | none => none
      | some token => scanRest { before with
          quotation := (walk before.quotation (p ++ rest)).1
          tokens := before.tokens ++ [token] } (walk before.quotation (p ++ rest)).2.2 := by
  cases p with
  | nil => exact absurd rfl opened.notEmpty
  | cons byte p =>
      obtain ⟨notBlank, goesOn, notRemark⟩ := opened.begins byte rfl
      have stays : (byte :: p ++ rest).dropWhile isBlank = byte :: p ++ rest := dropWhile_stays notBlank
      have visible' : 0 ∉ byte :: (p ++ rest) := by
        rw [← List.cons_append, List.mem_append, not_or]
        exact ⟨opened.visible, visible⟩
      obtain ⟨last, isLast, inside⟩ :=
        @walk_goesOn (p ++ rest) before.quotation byte goesOn notRemark visible'
      exact scanRest_token stays goesOn notComment isLast inside

/-- Where the line ends with the word. -/
theorem OpenWord.read_all (opened : OpenWord before p) {rest : List UInt8} (visible : 0 ∉ rest)
    (notComment : inComment before (p ++ rest) = false)
    (all : (walk before.quotation (p ++ rest)).2.2 = []) :
    scanRest before (p ++ rest) =
      (unquote (walk before.quotation (p ++ rest)).2.1).map fun token => { before with
        quotation := (walk before.quotation (p ++ rest)).1, tokens := before.tokens ++ [token] } := by
  rw [opened.read visible notComment, all]
  cases unquote (walk before.quotation (p ++ rest)).2.1 <;> rfl

theorem OpenWord.whole (opened : OpenWord before p) : (walk before.quotation p).2.1 = p := by
  have whole := walk_split before.quotation p
  rw [opened.goesOn, List.append_nil] at whole
  exact whole

/-- Behind the buffer the word is a token. -/
theorem OpenWord.ends (opened : OpenWord before p) :
    scanRest before p = (unquote p).map fun token => { before with
      quotation := (walk before.quotation p).1, tokens := before.tokens ++ [token] } := by
  have read := @OpenWord.read_all before p opened [] List.not_mem_nil
  rw [List.append_nil, opened.whole] at read
  exact read opened.notComment opened.goesOn

theorem returned_token (outside : before.comment = false) (quotation : Bool) (taken : Option CString) :
    returned (taken.map fun token => { before with
      quotation := quotation, tokens := before.tokens ++ [token] }) =
      taken.map fun token => before.tokens ++ [token] := by
  cases taken with
  | none => rfl
  | some token => simp [returned, outside]

theorem OpenWord.returned_ends (opened : OpenWord before p) :
    returned (scanRest before p) = (unquote p).map fun token => before.tokens ++ [token] := by
  rw [opened.ends, returned_token opened.inside]

/-- The whole of an open word, alone or with what does not belong to it. -/
theorem OpenWord.walk_same (opened : OpenWord before p)
    (same : (walk before.quotation (p ++ chunk)).2.1 = p) :
    walk before.quotation (p ++ chunk) = ((walk before.quotation p).1, p, chunk) := by
  cases p with
  | nil => exact absurd rfl opened.notEmpty
  | cons byte p =>
      cases chunk with
      | nil =>
          rw [List.append_nil, Prod.ext_iff, Prod.ext_iff]
          exact ⟨rfl, opened.whole, opened.goesOn⟩
      | cons next chunk =>
          obtain ⟨last, _, walked⟩ := @walk_over p chunk before.quotation byte opened.goesOn next
          split_ifs at walked
          · exact walked
          · obtain ⟨token, begins⟩ :=
              walk_begins ((walk before.quotation (byte :: p)).1 ^^ (last == quote || next == quote)) next chunk
            rw [walked] at same
            dsimp only at same
            rw [begins] at same
            exact absurd (List.append_right_eq_self.mp same) (List.cons_ne_nil _ _)

/-- Only a slash may be the first byte of a comment that the scanner has not seen. -/
theorem OpenWord.inComment_eq (opened : OpenWord before p) :
    inComment before (p ++ chunk) = (p == [slash] && chunk.head? == some star) := by
  obtain _ | ⟨byte, _ | ⟨next, p⟩⟩ := p
  · exact absurd rfl opened.notEmpty
  · rw [inComment, opened.inside]
    cases chunk <;> simp
  · have long : (byte :: next :: p == [slash]) = false := by simp
    rw [long, Bool.false_and]
    exact opened.notComment

theorem OpenWord.notComment_same (opened : OpenWord before p)
    (same : (walk before.quotation (p ++ chunk)).2.1 = p) : inComment before (p ++ chunk) = false := by
  rw [opened.inComment_eq, Bool.and_eq_false_iff, beq_eq_false_iff_ne, beq_eq_false_iff_ne]
  by_contra both
  rw [not_or, not_not, not_not] at both
  obtain ⟨rfl, second⟩ := both
  cases chunk with
  | nil => cases second
  | cons next chunk =>
      cases second
      have inside : ¬ (stopsAt star || stopsAt slash) = true := by decide
      have notSpace : ¬ (star = space ∧ before.quotation = false) := fun both => absurd both.1 (by decide)
      obtain ⟨token, begins⟩ := walk_begins (before.quotation ^^ (slash == quote || star == quote)) star chunk
      rw [List.singleton_append, walk, if_neg inside, if_neg notSpace] at same
      dsimp only at same
      rw [begins] at same
      cases same

theorem OpenWord.notComment_none (opened : OpenWord before p) (none : unquote p = none) :
    inComment before (p ++ chunk) = false := by
  have first := unquote_quote none opened.notEmpty
  rw [opened.inComment_eq, Bool.and_eq_false_iff, beq_eq_false_iff_ne]
  left
  rintro rfl
  cases first

theorem Stands.continues {place : Place} (stands : Stands reads place) (visible : 0 ∉ chunk)
    (continues : place.continues chunk = true) :
    reads chunk = (reads []).bind fun scanner => scanRest scanner chunk := by
  cases stands with
  | refused none =>
      rw [none, none]
      rfl
  | ended stays =>
      rw [stays, stays, Option.bind_some, ignores_scan continues]
  | between stands =>
      rw [stands, stands]
      rfl
  | @comment before p stands opened =>
      rw [Place.continues, Bool.and_eq_true, Bool.not_eq_true', Bool.not_eq_true', Bool.and_eq_false_iff,
        beq_eq_false_iff_ne, beq_eq_false_iff_ne, ← not_and_or] at continues
      rw [stands, stands, List.append_nil, opened.ends, Option.bind_some, opened.read,
        endComment_goesOn opened.goesOn continues.1, scanRest_inside continues.2]
  | @word before p stands opened =>
      rw [Place.continues, Bool.or_eq_true, Bool.and_eq_true, beq_iff_eq, Option.isNone_iff_eq_none,
        Option.isNone_iff_eq_none] at continues
      rw [stands, stands, List.append_nil, opened.ends]
      rcases continues with same | ⟨none, none'⟩
      · rw [opened.read visible (opened.notComment_same same), opened.walk_same same]
        cases unquote p <;> rfl
      · rw [opened.read visible (opened.notComment_none none), none', none]
        rfl

/-- A single byte as a word. -/
theorem openWord_single {byte : UInt8} (outside : scanner.comment = false)
    (notBlank : isBlank byte = false) (goesOn : endsLine byte = false) (notRemark : byte ≠ hash) :
    OpenWord scanner [byte] where
  inside := outside
  begins := by
    rintro _ ⟨⟩
    exact ⟨notBlank, goesOn, notRemark⟩
  notEmpty := List.cons_ne_nil _ _
  visible := by
    rw [List.mem_singleton]
    rintro rfl
    cases goesOn
  notComment := by
    rw [inComment, outside]
    simp
  goesOn := rfl

theorem over_parts (differs : ignores scanner.comment chunk = false) :
    ∃ chunk', chunk' <+: chunk ∧ returned (some scanner) ≠ returned (scanRest scanner chunk') := by
  rw [ignores, Bool.or_eq_false_iff] at differs
  obtain ⟨goesOn, differs⟩ := differs
  cases inside : scanner.comment with
  | true =>
      rw [inside, if_pos rfl, Bool.not_eq_false', endComment_dropWhile] at differs
      obtain ⟨first, begins, closed, same⟩ := closes_first differs
      refine ⟨first, begins, ?_⟩
      have comment : inComment scanner (first.dropWhile isBlank) = true := by
        rw [inComment, inside, Bool.true_or]
      rw [scanRest_comment rfl (by rw [same]; exact goesOn) comment, endComment_dropWhile, closed]
      have goes : scanRest { scanner with comment := !true } [] =
          some { scanner with comment := false } := rfl
      rw [goes]
      simp [returned, inside]
  | false =>
      rw [inside, if_neg Bool.false_ne_true, beq_eq_false_iff_ne] at differs
      cases skipped : chunk.dropWhile isBlank with
      | nil =>
          rw [skipped] at goesOn
          cases goesOn
      | cons byte rest =>
          have notBlank : isBlank byte = false := by
            have first := List.head?_dropWhile_not isBlank chunk
            rw [skipped] at first
            exact first
          rw [skipped] at differs goesOn
          have opened := openWord_single inside notBlank goesOn differs
          have alone : (chunk.takeWhile isBlank ++ [byte]).dropWhile isBlank = [byte] := by
            rw [List.dropWhile_append_of_pos fun other member => List.mem_takeWhile_imp member]
            exact dropWhile_stays notBlank
          refine ⟨chunk.takeWhile isBlank ++ [byte], ⟨rest, ?_⟩, ?_⟩
          · rw [List.append_assoc, List.singleton_append, ← skipped]
            exact List.takeWhile_append_dropWhile
          · rw [← scanRest_dropWhile, alone, opened.ends]
            cases unquote [byte] <;> simp [returned, inside]

theorem OpenComment.parts (opened : OpenComment before p)
    (differs : (Place.comment p).continues chunk = false) : ∃ chunk', chunk' <+: chunk ∧
      returned (scanRest before (p ++ chunk')) ≠
        returned (scanRest { before with comment := true } chunk') := by
  by_cases split : p.getLast? = some star ∧ chunk.head? = some slash
  · obtain ⟨last, first⟩ := split
    refine ⟨[slash], ?_, ?_⟩
    · cases chunk with
      | nil => cases first
      | cons byte chunk =>
          cases first
          exact ⟨chunk, rfl⟩
    · have inside : scanRest { before with comment := true } [slash] =
          some { before with comment := true } := rfl
      rw [inside, opened.read, endComment_split opened.goesOn last]
      exact Option.some_ne_none _
  · have ends : (endsLine (firstByte (chunk.dropWhile isBlank)) && (endComment chunk).1) = true := by
      rw [Place.continues, Bool.and_eq_false_iff, Bool.not_eq_false', Bool.not_eq_false'] at differs
      rcases differs with here | later
      · rw [Bool.and_eq_true, beq_iff_eq, beq_iff_eq] at here
        exact absurd here split
      · exact later
    rw [Bool.and_eq_true] at ends
    obtain ⟨first, begins, closed, same⟩ := closes_first ends.2
    have whole : ¬ (p.getLast? = some star ∧ first.head? = some slash) := by
      rintro ⟨last, second⟩
      obtain ⟨rest, rfl⟩ := begins
      cases first with
      | nil => cases second
      | cons byte first => exact split ⟨last, second⟩
    refine ⟨first, begins, ?_⟩
    have inside : scanRest { before with comment := true } first =
        some { before with comment := true } := scanRest_end (by rw [same]; exact ends.1)
    rw [inside, opened.read, endComment_goesOn opened.goesOn whole, closed]
    exact Option.some_ne_none _

/-- A word that goes on behind the buffer. -/
theorem OpenWord.longer (opened : OpenWord before p)
    (longer : (walk before.quotation (p ++ chunk)).2.1 ≠ p) :
    ∃ next rest token, chunk = next :: rest ∧ token <+: chunk ∧
      (walk before.quotation (p ++ chunk)).2.1 = p ++ token ∧
      stopsAt next = false ∧ (walk before.quotation (p ++ [next])).2 = (p ++ [next], []) := by
  cases p with
  | nil => exact absurd rfl opened.notEmpty
  | cons byte p =>
      cases chunk with
      | nil =>
          rw [List.append_nil] at longer
          exact absurd opened.whole longer
      | cons next rest =>
          obtain ⟨last, isLast, walked⟩ := @walk_over p rest before.quotation byte opened.goesOn next
          obtain ⟨last', isLast', walked'⟩ := @walk_over p [] before.quotation byte opened.goesOn next
          cases isLast.symm.trans isLast'
          split_ifs at walked walked' with parted
          · rw [walked] at longer
            exact absurd rfl longer
          · have split := walk_split
              ((walk before.quotation (byte :: p)).1 ^^ (last == quote || next == quote)) (next :: rest)
            refine ⟨next, rest, _, rfl, ⟨_, split⟩, ?_, ?_, ?_⟩
            · rw [walked]
            · rw [Bool.not_eq_true, breaksAt, Bool.or_eq_false_iff, Bool.or_eq_false_iff] at parted
              exact parted.1.1
            · rw [walked']
              rfl

/-- NULL is returned at the end of the buffer, and not for the longer word. -/
theorem OpenWord.parts_none (opened : OpenWord before p) (visible : 0 ∉ chunk) {token : List UInt8}
    (begins : token <+: chunk) (walked : (walk before.quotation (p ++ chunk)).2.1 = p ++ token)
    (lost : unquote p = none) (taken : unquote (p ++ token) ≠ none) :
    returned (scanRest before (p ++ token)) ≠
      returned ((scanRest before p).bind fun scanner => scanRest scanner token) := by
  have all := walk_token before.quotation (p ++ chunk)
  rw [walked] at all
  rw [opened.ends, lost, opened.read_all (fun member => visible (begins.mem member))
    (opened.notComment_none lost) (by rw [all]), all, returned_token opened.inside]
  cases whole : unquote (p ++ token) with
  | none => exact absurd whole taken
  | some word => exact Option.some_ne_none _

/-- The first byte that the word goes on with is no part of it behind the buffer. -/
theorem OpenWord.parts_some (opened : OpenWord before p) {next : UInt8} (notZero : next ≠ 0)
    (inside : stopsAt next = false)
    (walked : (walk before.quotation (p ++ [next])).2 = (p ++ [next], [])) {word : CString}
    (taken : unquote p = some word) :
    returned (scanRest before (p ++ [next])) ≠
      returned ((scanRest before p).bind fun scanner => scanRest scanner [next]) := by
  have outside := opened.inside
  have visible : 0 ∉ [next] := fun member => notZero (List.mem_singleton.mp member).symm
  simp only [stopsAt, Bool.or_eq_false_iff] at inside
  rw [opened.ends, taken, Option.map_some, Option.bind_some]
  cases comment : inComment before (p ++ [next]) with
  | true =>
      rw [opened.inComment_eq, Bool.and_eq_true, beq_iff_eq, beq_iff_eq, List.head?_cons,
        Option.some.injEq] at comment
      obtain ⟨rfl, rfl⟩ := comment
      have begun : scanRest before [slash, star] = some { before with comment := true } :=
        scanRest_comment rfl (by rfl) (by rw [inComment, outside]; rfl)
      have alone := @openWord_single { before with
        quotation := (walk before.quotation [slash]).1, tokens := before.tokens ++ [word] } star outside
        rfl rfl (by decide)
      have plain : unquote [star] = some [star] := by decide
      rw [List.singleton_append, begun, alone.returned_ends, plain]
      exact (Option.some_ne_none _).symm
  | false =>
      rw [opened.read_all visible comment (by rw [walked]), returned_token outside, walked]
      by_cases blank : next = space
      · -- The blank is skipped behind the buffer.
        subst blank
        have other := unquote_space opened.notEmpty taken
        rw [scanRest_end (by rfl), returned, outside, if_neg Bool.false_ne_true]
        cases longer : unquote (p ++ [space]) with
        | none => exact (Option.some_ne_none _).symm
        | some word' =>
            rw [longer, ne_eq, Option.some.injEq] at other
            simpa using other
      · have notBlank : isBlank next = false := by simp [isBlank, blank, inside]
        have goesOn : endsLine next = false := by simp [endsLine, notZero, inside]
        have alone := @openWord_single { before with
          quotation := (walk before.quotation p).1, tokens := before.tokens ++ [word] } next outside
          notBlank goesOn (by simpa using inside.1.1.1.1)
        rw [alone.returned_ends]
        by_cases marked : next = quote
        · subst marked
          obtain ⟨word', longer⟩ := unquote_opened taken opened.notEmpty
          have lost : unquote [quote] = none := by decide
          rw [longer, lost]
          exact Option.some_ne_none _
        · have plain : unquote [next] = some [next] :=
            unquote_plain (List.cons_ne_nil _ _) fun member => marked (List.mem_singleton.mp member).symm
          rw [plain]
          cases unquote (p ++ [next]) with
          | none => exact (Option.some_ne_none _).symm
          | some word' => simp

theorem OpenWord.parts (opened : OpenWord before p) (visible : 0 ∉ chunk)
    (differs : (Place.word before.quotation p).continues chunk = false) : ∃ chunk', chunk' <+: chunk ∧
      returned (scanRest before (p ++ chunk')) ≠
        returned ((scanRest before p).bind fun scanner => scanRest scanner chunk') := by
  rw [Place.continues, Bool.or_eq_false_iff, beq_eq_false_iff_ne] at differs
  obtain ⟨longer, differs⟩ := differs
  obtain ⟨next, rest, token, rfl, begins, walked, inside, walked'⟩ := opened.longer longer
  cases taken : unquote p with
  | none =>
      rw [taken, Option.isNone_none, Bool.true_and, walked, Option.isNone_eq_false_iff,
        Option.isSome_iff_ne_none] at differs
      exact ⟨token, begins, opened.parts_none visible begins walked taken differs⟩
  | some word =>
      have notZero : next ≠ 0 := fun same => visible (same ▸ List.mem_cons_self)
      exact ⟨[next], ⟨rest, rfl⟩, opened.parts_some notZero inside walked' taken⟩

/-- Where the buffer makes a difference, there is a beginning of what comes next for which
the tokens are not the same. -/
theorem Stands.parts {place : Place} (stands : Stands reads place) (visible : 0 ∉ chunk)
    (differs : place.continues chunk = false) : ∃ chunk', chunk' <+: chunk ∧
      returned (reads chunk') ≠
        returned ((reads []).bind fun scanner => scanRest scanner chunk') := by
  cases stands with
  | refused none => cases differs
  | between stands => cases differs
  | ended stays =>
      obtain ⟨chunk', begins, other⟩ := over_parts differs
      refine ⟨chunk', begins, ?_⟩
      rw [stays, stays]
      exact other
  | comment stands opened =>
      obtain ⟨chunk', begins, other⟩ := opened.parts differs
      refine ⟨chunk', begins, ?_⟩
      rw [stands, stands, List.append_nil, opened.ends]
      exact other
  | word stands opened =>
      obtain ⟨chunk', begins, other⟩ := opened.parts visible differs
      refine ⟨chunk', begins, ?_⟩
      rw [stands, stands, List.append_nil]
      exact other

theorem Stands.hide {place : Place} (stands : Stands reads place) :
    Stands (fun _ => reads []) place.hide := by
  cases stands with
  | refused none => exact .refused fun _ => none []
  | ended stays => exact .ended fun _ => stays []
  | between stands => exact .ended fun _ => stands []
  | @comment before p stands opened =>
      refine @Stands.ended _ { before with comment := true } fun _ => ?_
      rw [stands, List.append_nil, opened.ends]
  | @word before p stands opened =>
      have read := stands []
      rw [List.append_nil, opened.ends] at read
      rw [Place.hide]
      cases taken : unquote p with
      | none =>
          rw [taken] at read
          exact .refused fun _ => read
      | some token =>
          have inside := opened.inside
          rw [taken, Option.map_some, inside] at read
          exact .ended fun _ => read

theorem placeAt_stands (scanner : Scanner) (front : List UInt8) :
    ∃ reads, Stands reads (placeAt scanner front) ∧
      ∀ chunk, scanLine scanner (front ++ chunk) = reads (cstring chunk) := by
  have stands := @placeFrom_stands _ scanner (cstring front) (not_mem_cstring front) (Nat.le_refl _)
  rw [placeAt]
  split_ifs with hidden
  · refine ⟨_, stands.hide, fun chunk => ?_⟩
    rw [scanLine_eq, cstring_hidden hidden, List.append_nil]
  · refine ⟨_, stands, fun chunk => ?_⟩
    rw [scanLine_eq, cstring_append hidden, cstring_visible hidden]

variable {front : List UInt8}

theorem scanLine_continues (continues : (placeAt scanner front).continues (cstring chunk) = true) :
    scanLine scanner (front ++ chunk) =
      (scanLine scanner front).bind fun scanner => scanLine scanner chunk := by
  obtain ⟨reads, stands, seen⟩ := placeAt_stands scanner front
  have alone := seen []
  rw [List.append_nil] at alone
  simp only [@scanLine_eq chunk]
  rw [seen, alone]
  exact stands.continues (not_mem_cstring chunk) continues

theorem scanLine_parts (differs : (placeAt scanner front).continues (cstring chunk) = false) :
    ∃ chunk', chunk' <+: chunk ∧ returned (scanLine scanner (front ++ chunk')) ≠
      returned ((scanLine scanner front).bind fun scanner => scanLine scanner chunk') := by
  obtain ⟨reads, stands, seen⟩ := placeAt_stands scanner front
  have alone := seen []
  rw [List.append_nil] at alone
  obtain ⟨chunk', begins, other⟩ := stands.parts (not_mem_cstring chunk) differs
  have same : cstring chunk' = chunk' :=
    cstring_visible fun member => not_mem_cstring chunk (begins.mem member)
  refine ⟨chunk', begins.trans (List.takeWhile_prefix _), ?_⟩
  simp only [@scanLine_eq chunk']
  rw [seen, alone, same]
  exact other

end Standing

end Qaoed.Rcfg
