import Qaoed.Rcfg.Layout

/-!
# Reading buffer by buffer

`fgets` has room for 398 bytes of a line, and `tokenize` takes what it gives for a line of
its own. A text is read one line after the other, and a line one buffer after the other.
-/

namespace Qaoed.Rcfg

open Qaoed.Device
open Qaoed.Config

/-- `tokenize` on a text, or on the rest of one. -/
def scanBuffered (scanner : Scanner) (text : List UInt8) : Option Scanner :=
  (readLines text.length text).foldlM scanLine scanner

/-- What is returned in the end. -/
def returned : Option Scanner → Option (List CString)
  | none => none
  | some scanner => if scanner.comment then none else some scanner.tokens

theorem scanTokens_eq (text : List UInt8) :
    scanTokens text = returned (scanBuffered ⟨false, false, []⟩ text) := by
  unfold scanTokens scan
  rfl

/-- A text ends where a line does. -/
def EndsLines (earlier : List UInt8) : Prop := ∀ byte ∈ earlier.getLast?, byte = newline

theorem EndsLines.later {line rest : List UInt8} (ends : EndsLines (line ++ newline :: rest)) :
    EndsLines rest := by
  intro byte member
  apply ends
  rw [List.getLast?_append, List.getLast?_cons, Option.mem_def.mp member]
  rfl

theorem EndsLines.newline_mem {earlier : List UInt8} (ends : EndsLines earlier) (notEmpty : earlier ≠ []) :
    newline ∈ earlier := by
  rw [← ends _ (List.getLast?_eq_some_getLast notEmpty)]
  exact List.getLast_mem notEmpty

section Reading

variable {scanner : Scanner} {line rest text : List UInt8}

theorem scanLine_nil : scanLine scanner [] = some scanner := rfl

theorem fgets_length (room : Nat) (byte : UInt8) (text : List UInt8) :
    (fgets (room + 1) (byte :: text)).2.length ≤ text.length := by
  induction text generalizing room byte with
  | nil =>
      rw [fgets]
      split_ifs
      · exact Nat.le_refl _
      · cases room <;> exact Nat.le_refl _
  | cons next text ih =>
      rw [fgets]
      split_ifs
      · exact Nat.le_refl _
      · cases room with
        | zero => exact Nat.le_refl _
        | succ room => exact Nat.le_succ_of_le (ih room next)

theorem fgets_full {front : List UInt8} (whole : newline ∉ front) :
    fgets front.length (front ++ rest) = (front, rest) := by
  induction front with
  | nil => cases rest <;> rfl
  | cons byte front ih =>
      rw [List.mem_cons, not_or] at whole
      rw [List.length_cons, List.cons_append, fgets, if_neg (Ne.symm whole.1), ih whole.2]

theorem readLines_enough {fuel : Nat} (enough : text.length ≤ fuel) :
    readLines fuel text = readLines text.length text := by
  induction length : text.length using Nat.strong_induction_on generalizing fuel text with
  | _ length ih =>
      cases text with
      | nil =>
          subst length
          cases fuel <;> rfl
      | cons byte text =>
          have shorter := fgets_length 397 byte text
          rw [List.length_cons] at enough length
          obtain ⟨fuel, rfl⟩ := Nat.exists_eq_add_one_of_ne_zero (Nat.ne_zero_of_lt enough)
          subst length
          rw [readLines, readLines]
          dsimp only
          rw [ih _ (Nat.lt_succ_of_le shorter) (Nat.le_trans shorter (Nat.le_of_succ_le_succ enough)) rfl,
            ih _ (Nat.lt_succ_of_le shorter) shorter rfl]

/-- One buffer, and then those behind it. -/
theorem scanBuffered_fgets {buffer : List UInt8} (notEmpty : text ≠ [])
    (read : fgets 398 text = (buffer, rest)) :
    scanBuffered scanner text =
      (scanLine scanner buffer).bind fun scanner => scanBuffered scanner rest := by
  cases text with
  | nil => exact absurd rfl notEmpty
  | cons byte text =>
      have shorter := fgets_length 397 byte text
      rw [read] at shorter
      rw [scanBuffered, List.length_cons, readLines, read]
      dsimp only
      rw [readLines_enough shorter, List.foldlM_cons]
      rfl

theorem scanBuffered_full {front : List UInt8} (whole : newline ∉ front) (full : front.length = 398) :
    scanBuffered scanner (front ++ rest) =
      (scanLine scanner front).bind fun scanner => scanBuffered scanner rest := by
  have read := @fgets_full rest front whole
  rw [full] at read
  apply scanBuffered_fgets _ read
  rintro none
  rw [(List.append_eq_nil_iff.mp none).1] at full
  cases full

theorem scanBuffered_short (whole : newline ∉ line) (short : line.length < 398) :
    scanBuffered scanner (line ++ newline :: rest) =
      (scanLine scanner line).bind fun scanner => scanBuffered scanner rest := by
  have notEmpty : line ++ newline :: rest ≠ [] := List.append_ne_nil_of_right_ne_nil _ (List.cons_ne_nil _ _)
  rw [scanBuffered_fgets notEmpty (fgets_line whole short), scanLine_newline]

theorem scanBuffered_last (whole : newline ∉ line) (short : line.length ≤ 398) :
    scanBuffered scanner line = scanLine scanner line := by
  rcases Nat.lt_or_eq_of_le short with short | full
  · cases line with
    | nil => rfl
    | cons byte line =>
        rw [scanBuffered_fgets (List.cons_ne_nil _ _) (fgets_last whole short)]
        exact Option.bind_fun_some _
  · have read := @scanBuffered_full scanner [] line whole full
    rw [List.append_nil] at read
    rw [read]
    exact Option.bind_fun_some _

/-- What fills a number of buffers is read before the rest of the line. -/
theorem scanBuffered_append {front : List UInt8} (whole : newline ∉ front)
    (buffers : 398 ∣ front.length) : scanBuffered scanner (front ++ rest) =
      (scanBuffered scanner front).bind fun scanner => scanBuffered scanner rest := by
  obtain ⟨count, length⟩ := buffers
  induction count generalizing scanner front with
  | zero =>
      rw [List.length_eq_zero_iff.mp length]
      rfl
  | succ count ih =>
      have first : newline ∉ front.take 398 := fun member => whole (List.mem_of_mem_take member)
      have later : newline ∉ front.drop 398 := fun member => whole (List.mem_of_mem_drop member)
      have full : (front.take 398).length = 398 := by
        rw [List.length_take]
        omega
      have left : (front.drop 398).length = 398 * count := by
        rw [List.length_drop]
        omega
      have split : scanBuffered scanner front = (scanLine scanner (front.take 398)).bind
          fun scanner => scanBuffered scanner (front.drop 398) := by
        rw [← scanBuffered_full first full, List.take_append_drop]
      rw [split, Option.bind_assoc]
      nth_rewrite 1 [← List.take_append_drop 398 front]
      rw [List.append_assoc, scanBuffered_full first full]
      congr 1
      funext scanner
      exact ih later left

/-- A line is read to its end before the next one. -/
theorem scanBuffered_lines (whole : newline ∉ line) :
    scanBuffered scanner (line ++ newline :: rest) =
      (scanBuffered scanner line).bind fun scanner => scanBuffered scanner rest := by
  -- The last buffer of the line is the one the end of the line is in.
  have first : newline ∉ line.take (398 * (line.length / 398)) := fun member =>
    whole (List.mem_of_mem_take member)
  have last : newline ∉ line.drop (398 * (line.length / 398)) := fun member =>
    whole (List.mem_of_mem_drop member)
  have buffers : 398 ∣ (line.take (398 * (line.length / 398))).length := by
    rw [List.length_take, Nat.min_eq_left (Nat.mul_div_le _ _)]
    exact Nat.dvd_mul_right _ _
  have short : (line.drop (398 * (line.length / 398))).length < 398 := by
    rw [List.length_drop]
    omega
  have split : scanBuffered scanner line =
      (scanBuffered scanner (line.take (398 * (line.length / 398)))).bind fun scanner =>
        scanLine scanner (line.drop (398 * (line.length / 398))) := by
    nth_rewrite 1 [← List.take_append_drop (398 * (line.length / 398)) line]
    rw [scanBuffered_append first buffers]
    congr 1
    funext scanner
    exact scanBuffered_last last (Nat.le_of_lt short)
  rw [split, Option.bind_assoc]
  nth_rewrite 1 [← List.take_append_drop (398 * (line.length / 398)) line]
  rw [List.append_assoc, scanBuffered_append first buffers]
  congr 1
  funext scanner
  exact scanBuffered_short last short

/-- By induction on the lines. -/
theorem scanBuffered_earlier {earlier : List UInt8} (ends : EndsLines earlier) :
    scanBuffered scanner (earlier ++ rest) =
      (scanBuffered scanner earlier).bind fun scanner => scanBuffered scanner rest := by
  induction length : earlier.length using Nat.strong_induction_on generalizing scanner earlier with
  | _ length ih =>
      by_cases none : earlier = []
      · rw [none]
        rfl
      · obtain ⟨line, later, rfl, whole⟩ := List.eq_append_cons_of_mem (ends.newline_mem none)
        rw [List.length_append, List.length_cons] at length
        rw [List.append_assoc, List.cons_append, scanBuffered_lines whole, scanBuffered_lines whole,
          Option.bind_assoc]
        congr 1
        funext scanner
        exact ih later.length (by omega) ends.later rfl

end Reading

/-! ## The end of a text -/

section Texts

variable {text earlier front chunk : List UInt8} {scanner : Scanner}

theorem scanText_earlier (ends : EndsLines earlier) (rest : List UInt8) :
    scanText scanner (earlier ++ rest) =
      (scanText scanner earlier).bind fun scanner => scanText scanner rest := by
  induction length : earlier.length using Nat.strong_induction_on generalizing scanner earlier with
  | _ length ih =>
      by_cases none : earlier = []
      · rw [none, scanText_line List.not_mem_nil]
        rfl
      · obtain ⟨line, later, rfl, whole⟩ := List.eq_append_cons_of_mem (ends.newline_mem none)
        rw [List.length_append, List.length_cons] at length
        rw [List.append_assoc, List.cons_append, scanText_lines whole, scanText_lines whole,
          Option.bind_assoc]
        congr 1
        funext scanner
        exact ih later.length (by omega) ends.later rfl

/-- What one buffer more makes of a text that is read buffer by buffer. -/
theorem scanBuffered_chunk (ends : EndsLines earlier) (whole : newline ∉ front ++ chunk)
    (full : 398 ∣ front.length) (short : chunk.length ≤ 398) :
    scanBuffered scanner (earlier ++ (front ++ chunk)) =
      (scanBuffered scanner (earlier ++ front)).bind fun scanner => scanLine scanner chunk := by
  rw [List.mem_append, not_or] at whole
  rw [scanBuffered_earlier ends, scanBuffered_earlier ends, Option.bind_assoc]
  congr 1
  funext scanner
  rw [scanBuffered_append whole.1 full]
  congr 1
  funext scanner
  exact scanBuffered_last whole.2 short

/-- The last line of a text is read whole. -/
theorem scanText_lastLine {line : List UInt8} (ends : EndsLines earlier) (whole : newline ∉ line) :
    scanText scanner (earlier ++ line) =
      (scanText scanner earlier).bind fun scanner => scanLine scanner line := by
  rw [scanText_earlier ends]
  congr 1
  funext scanner
  exact scanText_line whole

/-- Every text has a last line. -/
theorem lastLine (text : List UInt8) :
    ∃ earlier line, text = earlier ++ line ∧ EndsLines earlier ∧ newline ∉ line := by
  induction text using List.reverseRecOn with
  | nil =>
      refine ⟨[], [], rfl, ?_, List.not_mem_nil⟩
      rintro _ ⟨⟩
  | append_singleton text byte ih =>
      obtain ⟨earlier, line, rfl, ends, whole⟩ := ih
      by_cases last : byte = newline
      · subst last
        refine ⟨earlier ++ line ++ [newline], [], (List.append_nil _).symm, ?_, List.not_mem_nil⟩
        intro other member
        rw [List.getLast?_concat] at member
        cases member
        rfl
      · refine ⟨earlier, line ++ [byte], List.append_assoc _ _ _, ends, ?_⟩
        rw [List.mem_append, List.mem_singleton, not_or]
        exact ⟨whole, Ne.symm last⟩

/-- The end of the last line makes no difference. -/
theorem scanBuffered_newline (text : List UInt8) :
    scanBuffered scanner (text ++ [newline]) = scanBuffered scanner text := by
  obtain ⟨earlier, line, rfl, ends, whole⟩ := lastLine text
  rw [List.append_assoc, scanBuffered_earlier ends, scanBuffered_earlier ends]
  congr 1
  funext scanner
  rw [scanBuffered_lines whole]
  exact Option.bind_fun_some _

theorem scanText_newline (text : List UInt8) :
    scanText scanner (text ++ [newline]) = scanText scanner text := by
  obtain ⟨earlier, line, rfl, ends, whole⟩ := lastLine text
  rw [List.append_assoc, scanText_earlier ends, scanText_earlier ends]
  congr 1
  funext scanner
  rw [scanText_lines whole, scanText_line whole]
  exact Option.bind_fun_some _

/-- A line is a number of buffers, and one that it ends in. -/
theorem lastBuffer {line : List UInt8} (notEmpty : line ≠ []) :
    ∃ front chunk, line = front ++ chunk ∧ 398 ∣ front.length ∧ chunk ≠ [] ∧ chunk.length ≤ 398 := by
  have length := List.length_pos_iff.mpr notEmpty
  have front : (line.take (398 * ((line.length - 1) / 398))).length = 398 * ((line.length - 1) / 398) := by
    rw [List.length_take]
    omega
  have chunk : (line.drop (398 * ((line.length - 1) / 398))).length =
      line.length - 398 * ((line.length - 1) / 398) := List.length_drop
  refine ⟨line.take (398 * ((line.length - 1) / 398)), line.drop (398 * ((line.length - 1) / 398)),
    (List.take_append_drop _ line).symm, ?_, ?_, ?_⟩
  · rw [front]
    exact Nat.dvd_mul_right _ _
  · rw [← List.length_pos_iff, chunk]
    omega
  · rw [chunk]
    omega

theorem shortLines_later (short : ShortLines (earlier ++ text)) (ends : EndsLines earlier) :
    ShortLines text := by
  induction length : earlier.length using Nat.strong_induction_on generalizing earlier with
  | _ length ih =>
      by_cases none : earlier = []
      · rw [none] at short
        exact short
      · obtain ⟨line, later, rfl, whole⟩ := List.eq_append_cons_of_mem (ends.newline_mem none)
        rw [List.length_append, List.length_cons] at length
        rw [ShortLines, List.append_assoc, List.cons_append, List.splitOn_append_cons_self_of_not_mem whole,
          List.forall_mem_cons] at short
        exact ih later.length (by omega) short.2 ends.later rfl

end Texts

end Qaoed.Rcfg
