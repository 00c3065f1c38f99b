import Qaoed.Config.Complete
import Qaoed.Config.FirstMatch

/-!
# Addresses as they are written

The shelf and the slot of a section are read as numbers of an `int`, and kept in two bytes
and in one. The largest values of the two fields stand for an address that is left out.
Here is which addresses a device keeps as its section gives them.
-/

namespace Qaoed.Config

open Qaoed.Device
open Qaoed.Library

/-! ## Decimal numbers -/

/-- The number that decimal digits stand for, behind those of another number. -/
def decValue (digits : CString) (value : Nat) : Nat :=
  digits.foldl (fun value digit => value * 10 + (decDigit digit).getD 0) value

/-- At least one digit. -/
structure AreDigits (digits : CString) : Prop where
  written : digits ≠ []
  decimal : ∀ digit ∈ digits, (decDigit digit).isSome

/-- A decimal number, with a sign or without one. -/
inductive IsDecimal : CString → Int → Prop where
  | unsigned {digits : CString} (written : AreDigits digits) :
      IsDecimal digits (decValue digits 0)
  | plus {digits : CString} (written : AreDigits digits) :
      IsDecimal (0x2b :: digits) (decValue digits 0)
  | minus {digits : CString} (written : AreDigits digits) :
      IsDecimal (0x2d :: digits) (-(decValue digits 0))

/-- An `int` can hold the number. -/
def IsInt (number : Int) : Prop := -2 ^ 31 ≤ number ∧ number < 2 ^ 31

theorem scanDigits_dec {digits : CString} (decimal : ∀ digit ∈ digits, (decDigit digit).isSome)
    (value : Nat) : scanDigits decDigit 10 value digits = (decValue digits value, []) := by
  induction digits generalizing value with
  | nil => rfl
  | cons digit digits ih =>
      obtain ⟨units, here⟩ := Option.isSome_iff_exists.mp (decimal digit List.mem_cons_self)
      rw [scanDigits, here]
      dsimp only
      rw [ih fun other member => decimal other (List.mem_cons_of_mem _ member)]
      rw [decValue, decValue, List.foldl_cons, here, Option.getD_some]

theorem AreDigits.scanNat {digits : CString} (written : AreDigits digits) :
    Config.scanNat decDigit 10 digits = some (decValue digits 0, []) := by
  obtain ⟨digit, later, rfl⟩ := List.exists_cons_of_ne_nil written.written
  rw [Config.scanNat, if_pos (written.decimal digit List.mem_cons_self),
    scanDigits_dec written.decimal]

theorem hexDigit_of_decDigit : ∀ digit : UInt8, (decDigit digit).isSome →
    (hexDigit digit).isSome := by
  apply forall_byte
  decide +kernel

/-- What is converted is cut to a `long` and then to an `int`, and a number of an `int` stays. -/
theorem bmod_of_isInt {number : Int} (fits : IsInt number) : number.bmod (2 ^ 32) = number := by
  obtain ⟨lower, upper⟩ := fits
  rw [Int.bmod_eq_of_le]
  · omega
  · omega

theorem atoi_decimal {value : CString} {number : Int} (decimal : IsDecimal value number)
    (fits : IsInt number) : atoi value = number := by
  have same := bmod_of_isInt fits
  obtain ⟨lower, upper⟩ := fits
  unfold atoi scanInt
  cases decimal with
  | unsigned written =>
      obtain ⟨digit, later, rfl⟩ := List.exists_cons_of_ne_nil written.written
      have first := hexDigit_of_decDigit digit (written.decimal digit List.mem_cons_self)
      rw [scanSign_digit first]
      dsimp only
      rw [written.scanNat, Option.map_some, Option.getD_some]
      simp only [Bool.false_eq_true, if_false]
      rw [min_eq_left (by omega)]
      exact same
  | @plus digits written =>
      have sign : scanSign (0x2b :: digits) = (false, digits) := rfl
      rw [sign]
      dsimp only
      rw [written.scanNat, Option.map_some, Option.getD_some]
      simp only [Bool.false_eq_true, if_false]
      rw [min_eq_left (by omega)]
      exact same
  | @minus digits written =>
      have sign : scanSign (0x2d :: digits) = (true, digits) := rfl
      rw [sign]
      dsimp only
      rw [written.scanNat, Option.map_some, Option.getD_some]
      simp only [if_true]
      rw [max_eq_left (by omega)]
      exact same

/-! ## What a section gives -/

/-- The value of the last assignment to the keyword. -/
def lastAssigned (keyword : CString) : Cfg → Option CString
  | .null => none
  | .block _ _ next => lastAssigned keyword next
  | .assignment lvalue rvalue next =>
      (lastAssigned keyword next).or (if lvalue = keyword then some rvalue else none)

/-- The section gives the number for the keyword. -/
def Gives (keyword : String) (body : Cfg) (number : Int) : Prop :=
  ∃ value, lastAssigned (text keyword) body = some value ∧ IsDecimal value number ∧ IsInt number

/-- A section has both a shelf and a slot. -/
structure GivesAddress (body : Cfg) (shelf slot : Int) : Prop where
  shelf : Gives "shelf" body shelf
  slot : Gives "slot" body slot

/-- The numbers are an address that the fields can hold, and none that is taken for a missing
one. -/
structure Holdable (shelf slot : Int) : Prop where
  shelf : 0 ≤ shelf ∧ shelf ≤ 65534
  slot : 0 ≤ slot ∧ slot ≤ 254

/-- The device of a section has the address that the section gives. The devices come in the order
of their sections: the device of a section is the one with as many behind it. -/
def TakenLiterally (c : Cfg) (conf : Conf) : Prop :=
  ∀ front body later, c.sections (text "device") = front ++ body :: later →
    ∀ shelf slot, GivesAddress body shelf slot →
      Holdable shelf slot ∧ ∃ before device behind, conf.devices = before ++ device :: behind ∧
        behind.length = later.length ∧ (device.shelf.toNat : Int) = shelf ∧
          (device.slot.toNat : Int) = slot

/-- All addresses can be held, and neither a section with one nor a later one is rejected. -/
def AllHoldable (c : Cfg) : Prop :=
  ∀ front body later, c.sections (text "device") = front ++ body :: later →
    ∀ shelf slot, GivesAddress body shelf slot →
      Holdable shelf slot ∧ ∀ section_ ∈ body :: later, acceptsDEV section_ = true

section Statements

variable {loglist : List Logconf} {intlist : List Ifconf} {acllist acllist' : List Aclconf}
  {dev dev' : Devconf}

/-- The field that a value is kept in. -/
def shelfOf (value : CString) : UInt16 := UInt16.ofNat (atoi value % 2 ^ 16).toNat

def slotOf (value : CString) : UInt8 := UInt8.ofNat (atoi value % 2 ^ 8).toNat

/-- References to access lists leave the address alone. -/
theorem parsedevacl_address {c : Cfg}
    (returns : parsedevacl acllist dev c = .ok (some dev', acllist')) :
    dev'.shelf = dev.shelf ∧ dev'.slot = dev.slot := by
  induction c generalizing acllist dev with
  | null =>
      cases returns
      exact ⟨rfl, rfl⟩
  | block lvalue body next _ ih => exact ih returns
  | assignment lvalue rvalue next ih =>
      rw [parsedevacl] at returns
      cases keyword : aclKeyword lvalue with
      | none =>
          rw [keyword] at returns
          cases returns
      | some op =>
          rw [keyword] at returns
          obtain ⟨acl, _, returns⟩ := bind_eq_ok.mp returns
          have later := ih returns
          cases op <;> exact later

/-- A statement sets the field that it names. -/
theorem devStatement_address {lvalue rvalue : CString}
    (returns : devStatement loglist intlist dev lvalue rvalue = .ok (some dev')) :
    dev'.shelf = (if lvalue = text "shelf" then shelfOf rvalue else dev.shelf) ∧
      dev'.slot = (if lvalue = text "slot" then slotOf rvalue else dev.slot) := by
  unfold devStatement at returns
  by_cases shelf : lvalue = text "shelf"
  · have other : lvalue ≠ text "slot" := by
      rw [shelf]
      decide
    rw [if_pos shelf] at returns ⊢
    rw [if_neg other]
    cases returns
    exact ⟨rfl, rfl⟩
  · rw [if_neg shelf] at returns ⊢
    by_cases slot : lvalue = text "slot"
    · rw [if_pos slot] at returns ⊢
      cases returns
      exact ⟨rfl, rfl⟩
    · rw [if_neg slot] at returns ⊢
      split_ifs at returns
      · cases returns
        exact ⟨rfl, rfl⟩
      · obtain ⟨_, _, returned⟩ := bind_eq_ok.mp returns
        cases returned
        exact ⟨rfl, rfl⟩
      · cases returns
        exact ⟨rfl, rfl⟩
      · obtain ⟨_, _, returned⟩ := bind_eq_ok.mp returns
        cases returned
        exact ⟨rfl, rfl⟩
      · cases returns
        exact ⟨rfl, rfl⟩
      · cases returns
        exact ⟨rfl, rfl⟩
      · cases returns

/-- The last statement for a field counts. -/
theorem devStatements_address {c : Cfg}
    (returns : devStatements loglist intlist acllist dev c = .ok (some dev', acllist')) :
    dev'.shelf = ((lastAssigned (text "shelf") c).map shelfOf).getD dev.shelf ∧
      dev'.slot = ((lastAssigned (text "slot") c).map slotOf).getD dev.slot := by
  induction c generalizing acllist dev with
  | null =>
      cases returns
      exact ⟨rfl, rfl⟩
  | block lvalue body next _ ih =>
      rw [devStatements] at returns
      rw [lastAssigned, lastAssigned]
      split_ifs at returns
      · obtain ⟨⟨parsed, middle⟩, inBlock, returns⟩ := bind_eq_ok.mp returns
        cases parsed with
        | none => cases returns
        | some between =>
            obtain ⟨shelf, slot⟩ := parsedevacl_address inBlock
            rw [← shelf, ← slot]
            exact ih returns
      · exact ih returns
  | assignment lvalue rvalue next ih =>
      rw [devStatements] at returns
      obtain ⟨parsed, statement, returns⟩ := bind_eq_ok.mp returns
      cases parsed with
      | none => cases returns
      | some between =>
          obtain ⟨shelf, slot⟩ := devStatement_address statement
          obtain ⟨laterShelf, laterSlot⟩ := ih returns
          rw [laterShelf, laterSlot, shelf, slot, lastAssigned, lastAssigned]
          constructor
          · cases lastAssigned (text "shelf") next with
            | some value => rfl
            | none => split_ifs <;> rfl
          · cases lastAssigned (text "slot") next with
            | some value => rfl
            | none => split_ifs <;> rfl

end Statements

section Devices

variable {conf : Conf} {body : Cfg} {device : Devconf} {shelf slot : Int}

theorem shelfOf_toNat {value : CString} {number : Int} (read : atoi value = number)
    (lower : 0 ≤ number) (upper : number ≤ 65534) : ((shelfOf value).toNat : Int) = number := by
  unfold shelfOf
  rw [read, UInt16.toNat_ofNat']
  omega

theorem slotOf_toNat {value : CString} {number : Int} (read : atoi value = number)
    (lower : 0 ≤ number) (upper : number ≤ 254) : ((slotOf value).toNat : Int) = number := by
  unfold slotOf
  rw [read, UInt8.toNat_ofNat']
  omega

/-- An address that the fields hold is neither cut nor taken for a missing one. -/
theorem DescribesDEV.address (describes : DescribesDEV conf body device)
    (gives : GivesAddress body shelf slot) (holdable : Holdable shelf slot) :
    (device.shelf.toNat : Int) = shelf ∧ (device.slot.toNat : Int) = slot := by
  obtain ⟨_, read, ⟨_, _, _, statements⟩, completes⟩ := describes
  obtain ⟨readShelf, readSlot⟩ := devStatements_address statements
  obtain ⟨shelfText, lastShelf, decimalShelf, intShelf⟩ := gives.shelf
  obtain ⟨slotText, lastSlot, decimalSlot, intSlot⟩ := gives.slot
  rw [lastShelf, Option.map_some, Option.getD_some] at readShelf
  rw [lastSlot, Option.map_some, Option.getD_some] at readSlot
  have shelfNumber := shelfOf_toNat (atoi_decimal decimalShelf intShelf) holdable.shelf.1
    holdable.shelf.2
  have slotNumber := slotOf_toNat (atoi_decimal decimalSlot intSlot) holdable.slot.1
    holdable.slot.2
  rw [← readShelf] at shelfNumber
  rw [← readSlot] at slotNumber
  have shelfGiven : read.shelf ≠ 0xffff := by
    intro missing
    have upper := holdable.shelf.2
    rw [← shelfNumber, missing] at upper
    exact absurd upper (by decide)
  have slotGiven : read.slot ≠ 0xff := by
    intro missing
    have upper := holdable.slot.2
    rw [← slotNumber, missing] at upper
    exact absurd upper (by decide)
  rw [completes.shelf shelfGiven, completes.slot slotGiven]
  exact ⟨shelfNumber, slotNumber⟩

end Devices

/-- What a relation along two lists says of one entry, and how many are behind it. -/
theorem forall₂_split {α β : Type} {related : α → β → Prop} {front later : List α} {a : α}
    {bs : List β} (along : List.Forall₂ related (front ++ a :: later) bs) :
    ∃ before b behind, bs = before ++ b :: behind ∧ behind.length = later.length ∧ related a b := by
  induction front generalizing bs with
  | nil =>
      cases along with
      | cons head tail => exact ⟨[], _, _, rfl, tail.length_eq.symm, head⟩
  | cons first front ih =>
      cases along with
      | cons head tail =>
          obtain ⟨before, b, behind, rfl, length, here⟩ := ih tail
          exact ⟨_ :: before, b, behind, rfl, length, here⟩

/-- The entries that are kept are those behind which none is rejected. -/
theorem rtakeWhile_split {α : Type} {accepts : α → Bool} {front later : List α} {a : α}
    (accepted : ∀ entry ∈ a :: later, accepts entry = true) :
    (front ++ a :: later).rtakeWhile accepts = front.rtakeWhile accepts ++ a :: later := by
  have reversed : ∀ entry ∈ (a :: later).reverse, accepts entry = true := fun entry member =>
    accepted entry (List.mem_reverse.mp member)
  rw [List.rtakeWhile, List.reverse_append, List.takeWhile_append_of_pos reversed,
    List.reverse_append, List.reverse_reverse, List.rtakeWhile]

theorem accepted_of_rtakeWhile {α : Type} {accepts : α → Bool} {front later : List α} {a : α}
    (long : later.length < ((front ++ a :: later).rtakeWhile accepts).length) :
    ∀ entry ∈ a :: later, accepts entry = true := by
  have kept := List.rtakeWhile_suffix accepts (front ++ a :: later)
  have inside : (a :: later) <:+ (front ++ a :: later).rtakeWhile accepts :=
    List.suffix_of_suffix_length_le (List.suffix_append _ _) kept long
  exact fun entry member => List.mem_rtakeWhile_imp (inside.subset member)

/-- For every configuration that is loaded: each device section with a decimal shelf and a
decimal slot has a device with these numbers, which are in range, if and only if all such
numbers are in range and no such section nor a device section behind it is rejected. -/
theorem takenLiterally_iff (env : LoadEnv) (c : Cfg) (conf : Conf)
    (loads : qaoedLoadconfig env c = .ok conf) : TakenLiterally c conf ↔ AllHoldable c := by
  obtain ⟨⟨ifconfs, acllist, devlist, loaded⟩, _⟩ := loaded_of_loads loads
  have describes := loaded.describesDEV
  unfold keptDEV at describes
  constructor
  · intro literally front body later sections shelf slot gives
    obtain ⟨holdable, before, device, behind, devices, length, _⟩ :=
      literally front body later sections shelf slot gives
    refine ⟨holdable, @accepted_of_rtakeWhile _ _ front _ _ ?_⟩
    rw [← sections, describes.length_eq, devices, List.length_append, List.length_cons]
    omega
  · intro all front body later sections shelf slot gives
    obtain ⟨holdable, accepted⟩ := all front body later sections shelf slot gives
    rw [sections, rtakeWhile_split accepted] at describes
    obtain ⟨before, device, behind, devices, length, here⟩ := forall₂_split describes
    exact ⟨holdable, before, device, behind, devices, length, here.address gives holdable⟩

theorem Gives.eq_atoi {keyword : String} {body : Cfg} {number : Int} {value : CString}
    (gives : Gives keyword body number) (last : lastAssigned (text keyword) body = some value) :
    number = atoi value := by
  obtain ⟨value', last', decimal, fits⟩ := gives
  cases last.symm.trans last'
  exact (atoi_decimal decimal fits).symm

/-- Shelf 1 and slots 1 and 2 are taken as they are. -/
theorem takenLiterally_iff_twoDevices :
    ∃ conf, qaoedLoadconfig willing (twoDevices .null) = .ok conf ∧
      TakenLiterally (twoDevices .null) conf := by
  refine ⟨_, rfl, (takenLiterally_iff willing (twoDevices .null) _ rfl).mpr ?_⟩
  intro front body later sections shelf slot gives
  have member (section_ : Cfg) (inside : section_ ∈ body :: later) :
      section_ ∈ (twoDevices .null).sections (text "device") := by
    rw [sections]
    exact List.mem_append_right _ inside
  have given : ∀ body ∈ (twoDevices .null).sections (text "device"),
      (lastAssigned (text "shelf") body = some (text "1")) ∧
        ∃ value ∈ [text "1", text "2"], lastAssigned (text "slot") body = some value := by decide
  have accepted : ∀ body ∈ (twoDevices .null).sections (text "device"),
      acceptsDEV body = true := by decide
  have small : ∀ value ∈ [text "1", text "2"], 0 ≤ atoi value ∧ atoi value ≤ 254 := by decide
  obtain ⟨lastShelf, value, listed, lastSlot⟩ := given body (member body List.mem_cons_self)
  refine ⟨⟨?_, ?_⟩, fun section_ inside => accepted section_ (member section_ inside)⟩
  · rw [gives.shelf.eq_atoi lastShelf]
    decide
  · rw [gives.slot.eq_atoi lastSlot]
    exact small value listed

/-- A default section that only has a slot. -/
def defaultSlot (slot : String) (next : Cfg) : Cfg :=
  .block (text "default") (.assignment (text "slot") (text slot) .null) next

/-- A device that gives the slot 256 has the slot 0, and one that gives 255 has that of the
default section. -/
theorem takenLiterally_fails :
    (∃ conf, qaoedLoadconfig willing (deviceSection (text "/a") "256" .null .null) = .ok conf ∧
      conf.devices.map (fun device => device.slot) = [0] ∧
        ¬ TakenLiterally (deviceSection (text "/a") "256" .null .null) conf) ∧
    ∃ conf, qaoedLoadconfig willing
        (defaultSlot "7" (deviceSection (text "/a") "255" .null .null)) = .ok conf ∧
      conf.devices.map (fun device => device.slot) = [7] ∧
        ¬ TakenLiterally (defaultSlot "7" (deviceSection (text "/a") "255" .null .null)) conf := by
  have digits (value : String) (written : text value ≠ [])
      (decimal : ∀ digit ∈ text value, (decDigit digit).isSome) :
      IsDecimal (text value) (decValue (text value) 0) := .unsigned ⟨written, decimal⟩
  have one : IsDecimal (text "1") 1 := digits "1" (by decide) (by decide +kernel)
  refine ⟨⟨_, rfl, by decide +kernel, ?_⟩, ⟨_, rfl, by decide +kernel, ?_⟩⟩
  · intro literally
    have slot : IsDecimal (text "256") 256 := digits "256" (by decide) (by decide +kernel)
    have gives := literally [] _ [] rfl 1 256 ⟨⟨text "1", rfl, one, by decide, by decide⟩,
      ⟨text "256", rfl, slot, by decide, by decide⟩⟩
    exact absurd gives.1.slot.2 (by decide)
  · intro literally
    have slot : IsDecimal (text "255") 255 := digits "255" (by decide) (by decide +kernel)
    have gives := literally [] _ [] rfl 1 255 ⟨⟨text "1", rfl, one, by decide, by decide⟩,
      ⟨text "255", rfl, slot, by decide, by decide⟩⟩
    exact absurd gives.1.slot.2 (by decide)

end Qaoed.Config
