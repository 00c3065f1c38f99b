import Qaoed.Rcfg.Places

/-!
# The line buffer

The tokens of a text are those that the same scanner finds in its whole lines, unless a
buffer ends where it may not. Such an end is seen in the tokens of what there is of the text
up to a few bytes behind it.
-/

namespace Qaoed.Rcfg

open Qaoed.Device
open Qaoed.Config

/-- `tokenize` if it read each line whole. -/
def scanTokensWhole (text : List UInt8) : Option (List CString) :=
  returned (scanText ⟨false, false, []⟩ text)

/-- A buffer ends behind `front`, on a line that goes on with `chunk`. -/
structure Boundary (text earlier front chunk : List UInt8) : Prop where
  here : earlier ++ (front ++ chunk) <+: text
  lines : EndsLines earlier
  whole : newline ∉ front ++ chunk
  full : 398 ∣ front.length
  notFirst : front ≠ []
  goesOn : chunk ≠ []
  short : chunk.length ≤ 398

/-- No buffer ends inside of what the scanner takes together. The scanner that is asked
for the place is the one that reads whole lines, in front of the line. -/
def Seamless (text : List UInt8) : Prop :=
  ∀ earlier front chunk, Boundary text earlier front chunk →
    ∀ scanner, scanText ⟨false, false, []⟩ earlier = some scanner →
      (placeAt scanner front).continues (cstring chunk) = true

section Texts

variable {text earlier front chunk : List UInt8} {scanner : Scanner}

theorem Boundary.longer {text' : List UInt8} (boundary : Boundary text earlier front chunk)
    (begins : text <+: text') : Boundary text' earlier front chunk :=
  { boundary with here := boundary.here.trans begins }

theorem Seamless.shorter {text' : List UInt8} (seamless : Seamless text') (begins : text <+: text') :
    Seamless text := fun earlier front chunk boundary =>
  seamless earlier front chunk (boundary.longer begins)

/-- One buffer more, if it is the first one of its line or the one in front of it ends
where it may. -/
theorem scanText_seam (seamless : Seamless (earlier ++ (front ++ chunk))) (ends : EndsLines earlier)
    (whole : newline ∉ front ++ chunk) (full : 398 ∣ front.length) (notEmpty : chunk ≠ [])
    (short : chunk.length ≤ 398) :
    scanText ⟨false, false, []⟩ (earlier ++ (front ++ chunk)) =
      (scanText ⟨false, false, []⟩ (earlier ++ front)).bind fun scanner => scanLine scanner chunk := by
  have alone : newline ∉ front := fun member => whole (List.mem_append_left _ member)
  rw [scanText_lastLine ends whole, scanText_lastLine ends alone, Option.bind_assoc]
  cases before : scanText ⟨false, false, []⟩ earlier with
  | none => rfl
  | some scanner =>
      rw [Option.bind_some, Option.bind_some]
      by_cases first : front = []
      · rw [first]
        rfl
      · exact scanLine_continues
          (seamless _ _ _ ⟨List.prefix_rfl, ends, whole, full, first, notEmpty, short⟩ _ before)

/-- By induction on the buffers, from the last one. -/
theorem scanBuffered_seamless (seamless : Seamless text) :
    scanBuffered ⟨false, false, []⟩ text = scanText ⟨false, false, []⟩ text := by
  induction length : text.length using Nat.strong_induction_on generalizing text with
  | _ length ih =>
      obtain ⟨earlier, line, rfl, ends, whole⟩ := lastLine text
      by_cases none : line = []
      · subst none
        rw [List.append_nil] at seamless length ⊢
        by_cases first : earlier = []
        · subst first
          rw [scanText_line List.not_mem_nil]
          rfl
        · obtain ⟨before, rfl⟩ : ∃ before, earlier = before ++ [newline] := by
            refine ⟨earlier.dropLast, ?_⟩
            rw [← ends _ (List.getLast?_eq_some_getLast first), List.dropLast_append_getLast]
          rw [List.length_append, List.length_singleton] at length
          rw [scanBuffered_newline, scanText_newline]
          exact ih _ (by omega) (seamless.shorter (List.prefix_append _ _)) rfl
      · obtain ⟨front, chunk, rfl, full, notEmpty, short⟩ := lastBuffer none
        have shorter := List.length_pos_iff.mpr notEmpty
        rw [List.length_append, List.length_append] at length
        rw [scanBuffered_chunk ends whole full short, scanText_seam seamless ends whole full notEmpty short,
          ih _ _ (seamless.shorter _) rfl]
        · rw [List.length_append]
          omega
        · rw [← List.append_assoc]
          exact List.prefix_append _ _

/-- The first buffer that ends where it may not is seen in the tokens, for what there is of
the text in front of it is read as in whole lines. -/
theorem seamless_of_tokens (same : ∀ text', text' <+: text → scanTokens text' = scanTokensWhole text') :
    Seamless text := by
  intro earlier front chunk boundary
  induction length : (earlier ++ front).length using Nat.strong_induction_on
    generalizing earlier front chunk with
  | _ length ih =>
      intro scanner before
      obtain ⟨here, lines, whole, full, notFirst, goesOn, short⟩ := boundary
      have begins : earlier ++ front <+: text := by
        rw [← List.append_assoc] at here
        exact (List.prefix_append _ _).trans here
      have seamless : Seamless (earlier ++ front) := by
        intro earlier' front' chunk' boundary'
        have shorter := boundary'.here.length_le
        have notEmpty := List.length_pos_iff.mpr boundary'.goesOn
        rw [← List.append_assoc, List.length_append] at shorter
        exact ih _ (by omega) _ _ _ (boundary'.longer begins) rfl
      by_contra differs
      obtain ⟨chunk', first, other⟩ := scanLine_parts (Bool.not_eq_true _ ▸ differs)
      have whole' : newline ∉ front ++ chunk' := fun member =>
        whole (((List.prefix_append_right_inj front).mpr first).mem member)
      have alone : newline ∉ front := fun member => whole (List.mem_append_left _ member)
      have here' : earlier ++ (front ++ chunk') <+: text :=
        ((List.prefix_append_right_inj earlier).mpr
          ((List.prefix_append_right_inj front).mpr first)).trans here
      have read := same _ here'
      rw [scanTokens_eq, scanTokensWhole, scanText_lastLine lines whole',
        scanBuffered_chunk lines whole' full (first.length_le.trans short), scanBuffered_seamless seamless,
        scanText_lastLine lines alone, before, Option.bind_some, Option.bind_some] at read
      exact other read.symm

/-- Lines that fit into the buffer have no boundary. -/
theorem seamless_of_shortLines (short : ShortLines text) : Seamless text := by
  intro earlier front chunk boundary
  obtain ⟨⟨rest, rfl⟩, lines, whole, full, notFirst, goesOn, -⟩ := boundary
  have long : 398 ≤ (front ++ chunk).length := by
    have least := Nat.le_of_dvd (List.length_pos_iff.mpr notFirst) full
    rw [List.length_append]
    omega
  rw [List.append_assoc] at short
  have line := shortLines_later short lines
  by_cases ends : newline ∈ rest
  · obtain ⟨last, later, rfl, whole'⟩ := List.eq_append_cons_of_mem ends
    have both : newline ∉ front ++ chunk ++ last := by
      rw [List.mem_append, not_or]
      exact ⟨whole, whole'⟩
    rw [ShortLines, ← List.append_assoc, List.splitOn_append_cons_self_of_not_mem both,
      List.forall_mem_cons, List.length_append] at line
    omega
  · have both : newline ∉ front ++ chunk ++ rest := by
      rw [List.mem_append, not_or]
      exact ⟨whole, ends⟩
    rw [ShortLines, List.splitOn_eq_singleton both, List.forall_mem_singleton, List.length_append] at line
    omega

end Texts

/-- The tokens are those of whole lines, for a text and for all that it begins with, if and
only if no buffer ends inside of what belongs together. -/
theorem lineBuffer_invisible_iff (text : List UInt8) :
    (∀ text', text' <+: text → scanTokens text' = scanTokensWhole text') ↔ Seamless text := by
  constructor
  · exact seamless_of_tokens
  · intro seamless text' begins
    rw [scanTokens_eq, scanBuffered_seamless (seamless.shorter begins), scanTokensWhole]

/-- A remark that does not fit into the buffer. -/
def longRemark : List UInt8 := hash :: (List.replicate 397 0x78 ++ text "y")

theorem lineBuffer_visible : scanTokens longRemark = some [text "y"] ∧
    scanTokensWhole longRemark = some [] ∧
    ¬ ∀ text, scanTokens text = scanTokensWhole text := by
  have tokens : scanTokens longRemark = some [text "y"] := by decide +kernel
  have whole : scanTokensWhole longRemark = some [] := by decide +kernel
  refine ⟨tokens, whole, fun same => ?_⟩
  have none := tokens.symm.trans ((same longRemark).trans whole)
  cases none

end Qaoed.Rcfg
