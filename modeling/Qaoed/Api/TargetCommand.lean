import Qaoed.Api.Client
import Qaoed.Api.Requests
import Qaoed.Config.GivenAddresses

/-!
# Targets on the command line

`adddel_target` reads the shelf and the slot that were typed. It looks for digits, converts
them to a `long`, keeps that in an `int`, and compares the `int` with the limits of the
address. Here is when the target of its request is the one that was typed.
-/

namespace Qaoed.Api

open Qaoed.Device
open Qaoed.Library
open Qaoed.Library.ByteOrder
open Qaoed.Config

/-! ## The request -/

/-- What a command comes to: its usage is shown, a name is copied over the end of the
structure, or a request is sent. -/
inductive Command where
  | usage
  | overrun
  | sent (message : Message)

/-- The fields of the structure in the order in which they are filled in. -/
def targetFields (order : ByteOrder) (device : CString) (shelf slot : Int)
    (interface : Option CString) : List (Nat × List UInt8) :=
  [(0, zeroEnded device), (120, store16 order (UInt16.ofNat (shelf % 2 ^ 16).toNat)),
    (122, [UInt8.ofNat (slot % 2 ^ 8).toNat]), (123, zeroEnded (interface.getD [])),
    (144, storeInt order (-1)), (148, storeInt order (-1))]

/-- The memory of the structure holds whatever was on the stack. -/
def apiAdddelTarget (order : ByteOrder) (pad : UInt8) (stack : Nat → UInt8) (cmd device : CString)
    (shelf slot : Int) (interface : Option CString) : Command :=
  let cmd : UInt8 := if text "remove" <+: cmd then 9 else 8
  if device.length < sizeofTargetInfo ∧ 123 + (interface.getD []).length < sizeofTargetInfo then
    .sent ⟨⟨cmd, REQUEST, ApiError.code .allok, pad, UInt32.ofNat sizeofTargetInfo⟩,
      writeFields 0 (bytesAt stack 0 sizeofTargetInfo)
        (targetFields order device shelf slot interface)⟩
  else .overrun

/-! ## What was typed -/

/-- `strtol` with base ten, on a host whose `long` has 64 bits. -/
def strtol (input : CString) : Int :=
  let (minus, digits) := scanSign input
  match scanNat decDigit 10 digits with
  | none => 0
  | some (value, _) => if minus then max (-(value : Int)) (-2 ^ 63) else min value (2 ^ 63 - 1)

def isdigit (byte : UInt8) : Bool := (decDigit byte).isSome

/-- The value of an option up to its limit, unless the usage is shown. -/
def typedOption (limit auto : Int) : Option CString → Option Int
  | none => some auto
  | some typed =>
      if typed.all isdigit then
        let number := (strtol typed).bmod (2 ^ 32)
        if number < 0 ∨ number > limit then none else some number
      else none

/-- `adddel_target` with its arguments, of which the first one is the word `target`. -/
def adddelTarget (order : ByteOrder) (pad : UInt8) (stack : Nat → UInt8) (cmd : CString)
    (argv : List CString) : Command :=
  if argv.length < 2 ∨ argv.length > 5 then .usage
  else
    match typedOption 255 0xff argv[3]? with
    | none => .usage
    | some slot =>
        match typedOption 65535 0xffff argv[2]? with
        | none => .usage
        | some shelf =>
            apiAdddelTarget order pad stack cmd (argv[1]?.getD []) shelf slot argv[4]?

/-! ## The address that was typed -/

/-- The number that is denoted, or the one that asks the daemon for an address. -/
def denoted (auto : Nat) : Option CString → Nat
  | none => auto
  | some typed => decValue typed 0

def typedShelf (argv : List CString) : Nat := denoted 0xffff argv[2]?

def typedSlot (argv : List CString) : Nat := denoted 0xff argv[3]?

/-- There is a target with the address. -/
structure InRange (argv : List CString) : Prop where
  shelf : typedShelf argv ≤ 65535
  slot : typedSlot argv ≤ 255

/-- A request with the address is sent if there is a target with it, and none otherwise. -/
def ActsOnTyped (order : ByteOrder) (argv : List CString) : Command → Prop
  | .usage => ¬ InRange argv
  | .overrun => False
  | .sent message => InRange argv ∧ (ushortAt order message.body 120).toNat = typedShelf argv ∧
      (byteAt message.body 122).toNat = typedSlot argv

/-- The names have room in the structure. -/
structure NamesFit (argv : List CString) : Prop where
  device : (argv[1]?.getD []).length < sizeofTargetInfo
  interface : 123 + (argv[4]?.getD []).length < sizeofTargetInfo

/-- A number that an `int` is mistaken for one up to the limit by. -/
def Passes (limit value : Nat) : Prop := value < 2 ^ 63 - 1 ∧ value % 2 ^ 32 ≤ limit

instance (limit value : Nat) : Decidable (Passes limit value) :=
  inferInstanceAs (Decidable (_ ∧ _))

section Options

variable {typed : CString} {limit auto : Nat} {option : Option CString}

theorem strtol_digits (digits : ∀ digit ∈ typed, isdigit digit = true) :
    strtol typed = min (decValue typed 0 : Int) (2 ^ 63 - 1) := by
  unfold strtol
  cases typed with
  | nil => rfl
  | cons digit later =>
      have written : AreDigits (digit :: later) := ⟨List.cons_ne_nil _ _, digits⟩
      rw [scanSign_digit (hexDigit_of_decDigit digit (digits digit List.mem_cons_self))]
      dsimp only
      rw [written.scanNat]
      rfl

/-- A value that is not cut to a `long` is taken modulo the range of an `int`. -/
theorem typedOption_digits (small : limit < 2 ^ 31) (digits : ∀ digit ∈ typed, isdigit digit = true) :
    typedOption limit auto (some typed) =
      if Passes limit (decValue typed 0) then some ((decValue typed 0 % 2 ^ 32 : Nat) : Int)
      else none := by
  rw [typedOption, if_pos (List.all_eq_true.mpr digits), strtol_digits digits]
  dsimp only
  generalize decValue typed 0 = value
  by_cases saturated : value < 2 ^ 63 - 1
  · have number : (value : Int).bmod (2 ^ 32) =
        if value % 2 ^ 32 < 2 ^ 31 then ((value % 2 ^ 32 : Nat) : Int)
        else ((value % 2 ^ 32 : Nat) : Int) - 2 ^ 32 := by
      rw [Int.bmod_def]
      split_ifs <;> omega
    rw [min_eq_left (by omega), number]
    by_cases low : value % 2 ^ 32 ≤ limit
    · have passes : Passes limit value := ⟨saturated, low⟩
      have positive : value % 2 ^ 32 < 2 ^ 31 := by omega
      rw [if_pos passes, if_pos positive, if_neg (by omega)]
    · have refused : ¬ Passes limit value := fun passes => low passes.2
      rw [if_neg refused, if_pos]
      split_ifs <;> omega
  · have refused : ¬ Passes limit value := fun passes => saturated passes.1
    have number : ((2 : Int) ^ 63 - 1).bmod (2 ^ 32) = -1 := rfl
    rw [min_eq_right (by omega), if_neg refused, number]
    rfl

/-- An option that was left out counts as its default. -/
theorem typedOption_eq (small : limit < 2 ^ 31) (low : auto ≤ limit)
    (digits : ∀ typed, option = some typed → ∀ digit ∈ typed, isdigit digit = true) :
    typedOption limit auto option =
      if Passes limit (denoted auto option) then some ((denoted auto option % 2 ^ 32 : Nat) : Int)
      else none := by
  cases option with
  | none =>
      have same : auto % 2 ^ 32 = auto := Nat.mod_eq_of_lt (by omega)
      have passes : Passes limit auto := ⟨by omega, by omega⟩
      rw [denoted, if_pos passes, same]
      rfl
  | some typed => exact typedOption_digits small (digits typed rfl)

/-- A number in range is not mistaken. -/
theorem passes_of_le {value : Nat} (small : limit < 2 ^ 31) (inRange : value ≤ limit) :
    Passes limit value ∧ value % 2 ^ 32 = value :=
  ⟨⟨by omega, by omega⟩, Nat.mod_eq_of_lt (by omega)⟩

end Options

section Requests

variable {order : ByteOrder} {pad : UInt8} {stack : Nat → UInt8} {cmd device : CString}
  {shelf slot : Nat} {interface : Option CString}

theorem targetFields_inside (fits : device.length < sizeofTargetInfo)
    (fits' : 123 + (interface.getD []).length < sizeofTargetInfo) (shelf slot : Int) :
    ∀ field ∈ targetFields order device shelf slot interface,
      field.1 + field.2.length ≤ (bytesAt stack 0 sizeofTargetInfo).length := by
  rw [bytesAt_length]
  simp only [targetFields, sizeofTargetInfo, List.forall_mem_cons, List.not_mem_nil,
    false_imp_iff, implies_true, and_true, store16_length, storeInt_length, zeroEnded_length,
    List.length_cons, List.length_nil] at fits fits' ⊢
  omega

/-- The address is stored behind the name of the device, which may be too long for its own
field, and not written over any more. -/
theorem apiAdddelTarget_sent (fits : device.length < sizeofTargetInfo)
    (fits' : 123 + (interface.getD []).length < sizeofTargetInfo) (inShort : shelf < 2 ^ 16)
    (inChar : slot < 2 ^ 8) :
    ∃ message, apiAdddelTarget order pad stack cmd device shelf slot interface = .sent message ∧
      (ushortAt order message.body 120).toNat = shelf ∧ (byteAt message.body 122).toNat = slot := by
  let name := (0, zeroEnded device)
  let shelfField := (120, store16 order (UInt16.ofNat ((shelf : Int) % 2 ^ 16).toNat))
  let slotField := (122, [UInt8.ofNat ((slot : Int) % 2 ^ 8).toNat])
  let later := [(123, zeroEnded (interface.getD [])), (144, storeInt order (-1)),
    (148, storeInt order (-1))]
  have splitShelf : targetFields order device shelf slot interface =
      [name] ++ shelfField :: slotField :: later := rfl
  have splitSlot : targetFields order device shelf slot interface =
      [name, shelfField] ++ slotField :: later := rfl
  have inside := @targetFields_inside order stack device interface fits fits' shelf slot
  rw [apiAdddelTarget, if_pos ⟨fits, fits'⟩]
  refine ⟨_, rfl, ?_, ?_⟩
  · have held : HoldsField _ shelfField := writeFields_holds_later 0 _ splitShelf inside (by
      simp [Apart, later, slotField, shelfField])
    have value := ushortAt_of_holds held
    rw [value, UInt16.toNat_ofNat']
    omega
  · have held : HoldsField _ slotField := writeFields_holds_later 0 _ splitSlot inside (by
      simp [Apart, later, slotField])
    have value := byteAt_of_holds held
    rw [value, UInt8.toNat_ofNat']
    omega

end Requests

section Commands

variable {order : ByteOrder} {pad : UInt8} {stack : Nat → UInt8} {cmd : CString}
  {argv : List CString}

/-- The shelf and the slot are digits, where they are given. -/
def GivesDigits (argv : List CString) : Prop :=
  ∀ typed, argv[2]? = some typed ∨ argv[3]? = some typed → ∀ digit ∈ typed, isdigit digit = true

/-- The command with options that are digits, by what they pass for. -/
theorem adddelTarget_eq (arguments : 2 ≤ argv.length ∧ argv.length ≤ 5) (digits : GivesDigits argv) :
    adddelTarget order pad stack cmd argv =
      if Passes 255 (typedSlot argv) ∧ Passes 65535 (typedShelf argv) then
        apiAdddelTarget order pad stack cmd (argv[1]?.getD []) (typedShelf argv % 2 ^ 32 : Nat)
          (typedSlot argv % 2 ^ 32 : Nat) argv[4]?
      else .usage := by
  have slot : typedOption 255 0xff argv[3]? = if Passes 255 (typedSlot argv) then
      some ((typedSlot argv % 2 ^ 32 : Nat) : Int) else none :=
    typedOption_eq (by decide) (by decide) fun typed given => digits typed (Or.inr given)
  have shelf : typedOption 65535 0xffff argv[2]? = if Passes 65535 (typedShelf argv) then
      some ((typedShelf argv % 2 ^ 32 : Nat) : Int) else none :=
    typedOption_eq (by decide) (by decide) fun typed given => digits typed (Or.inl given)
  rw [adddelTarget, if_neg (by omega), slot, shelf]
  by_cases passesSlot : Passes 255 (typedSlot argv)
  · rw [if_pos passesSlot]
    by_cases passesShelf : Passes 65535 (typedShelf argv)
    · rw [if_pos passesShelf, if_pos ⟨passesSlot, passesShelf⟩]
    · rw [if_neg passesShelf, if_neg fun both => passesShelf both.2]
  · have refused : ¬ (Passes 255 (typedSlot argv) ∧ Passes 65535 (typedShelf argv)) :=
      fun both => passesSlot both.1
    rw [if_neg passesSlot, if_neg refused]

end Commands

/-- For all digits that are typed as the shelf and the slot: the command acts on the address
that was typed if and only if both numbers are in range and the names have room in the
request, unless one of the numbers passes for none that is in range. -/
theorem actsOnTyped_iff (order : ByteOrder) (pad : UInt8) (stack : Nat → UInt8) (cmd : CString)
    (argv : List CString) (arguments : 2 ≤ argv.length ∧ argv.length ≤ 5)
    (digits : GivesDigits argv) :
    ActsOnTyped order argv (adddelTarget order pad stack cmd argv) ↔
      (Passes 255 (typedSlot argv) ∧ Passes 65535 (typedShelf argv) →
        InRange argv ∧ NamesFit argv) := by
  rw [adddelTarget_eq arguments digits]
  by_cases passes : Passes 255 (typedSlot argv) ∧ Passes 65535 (typedShelf argv)
  · rw [if_pos passes, imp_iff_right passes]
    constructor
    · intro acts
      by_cases fits : NamesFit argv
      · rw [apiAdddelTarget, if_pos ⟨fits.device, fits.interface⟩] at acts
        exact ⟨acts.1, fits⟩
      · rw [apiAdddelTarget, if_neg fun both => fits ⟨both.1, both.2⟩] at acts
        exact acts.elim
    · rintro ⟨inRange, fits⟩
      obtain ⟨_, sameSlot⟩ := passes_of_le (by decide) inRange.slot
      obtain ⟨_, sameShelf⟩ := passes_of_le (by decide) inRange.shelf
      obtain ⟨message, sent, shelf, slot⟩ := @apiAdddelTarget_sent order pad stack cmd _
        (typedShelf argv) (typedSlot argv) argv[4]? fits.device fits.interface
        (Nat.lt_succ_of_le inRange.shelf) (Nat.lt_succ_of_le inRange.slot)
      rw [sameSlot, sameShelf, sent]
      exact ⟨inRange, shelf, slot⟩
  · rw [if_neg passes]
    refine iff_of_true ?_ fun both => absurd both passes
    intro inRange
    exact passes ⟨(passes_of_le (by decide) inRange.slot).1, (passes_of_le (by decide) inRange.shelf).1⟩

def slotCommand (slot : String) : List CString := [text "target", text "/dev/sda", text "1", text slot]

theorem actsOnTyped_iff_slotCommand :
    ActsOnTyped .little (slotCommand "5")
      (adddelTarget .little 0 (fun _ => 0) (text "remove") (slotCommand "5")) := by
  refine (actsOnTyped_iff .little 0 _ (text "remove") (slotCommand "5") (by decide) ?_).mpr ?_
  · rintro typed (given | given)
    · cases given
      decide +kernel
    · cases given
      decide +kernel
  · exact fun _ => ⟨⟨by decide, by decide⟩, by decide, by decide⟩

/-- A slot of ten digits removes the target of slot 5. -/
theorem actsOnTyped_fails :
    (∃ message, adddelTarget .little 0 (fun _ => 0) (text "remove") (slotCommand "4294967301") =
        .sent message ∧ (byteAt message.body 122).toNat = 5) ∧
      ¬ ActsOnTyped .little (slotCommand "4294967301")
        (adddelTarget .little 0 (fun _ => 0) (text "remove") (slotCommand "4294967301")) := by
  have digits : GivesDigits (slotCommand "4294967301") := by
    rintro typed (given | given)
    · cases given
      decide +kernel
    · cases given
      decide +kernel
  have passes : Passes 255 (typedSlot (slotCommand "4294967301")) ∧
      Passes 65535 (typedShelf (slotCommand "4294967301")) := by decide
  obtain ⟨message, sent, _, slot⟩ := @apiAdddelTarget_sent .little 0 (fun _ => 0) (text "remove")
    (text "/dev/sda") 1 5 none (by decide) (by decide) (by decide) (by decide)
  have result : adddelTarget .little 0 (fun _ => 0) (text "remove") (slotCommand "4294967301") =
      .sent message := by
    rw [adddelTarget_eq (by decide) digits, if_pos passes]
    exact sent
  refine ⟨⟨message, result, slot⟩, ?_⟩
  rw [result]
  exact fun acts => absurd acts.1.slot (by decide)

end Qaoed.Api
