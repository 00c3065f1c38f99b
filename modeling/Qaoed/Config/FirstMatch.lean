import Qaoed.Config.Load

/-!
# What an access-list section means

A section lists rules in the order in which they are tried, and says once or more
often what becomes of an address without a rule. The parse function turns it into a
list of rows with codes for the rules, and `aclmatch` walks along the rows.
-/

namespace Qaoed.Config

open Qaoed.Device
open Qaoed.Frame
open Qaoed.Library

/-! ## Addresses -/

/-- The number that hexadecimal digits stand for. -/
def hexValue (digits : CString) (value : Nat) : Nat :=
  digits.foldl (fun value digit => value * 16 + (hexDigit digit).getD 0) value

/-- Hexadecimal digits for a number that a byte holds. -/
structure IsOctet (digits : CString) (byte : UInt8) : Prop where
  written : digits ≠ []
  hex : ∀ digit ∈ digits, (hexDigit digit).isSome
  value : hexValue digits 0 = byte.toNat

/-- Octets with a colon between each two. -/
inductive AreOctets : CString → List UInt8 → Prop where
  | last {digits : CString} {byte : UInt8} :
      IsOctet digits byte → AreOctets digits [byte]
  | next {digits rest : CString} {byte : UInt8} {bytes : List UInt8} :
      IsOctet digits byte → AreOctets rest bytes →
      AreOctets (digits ++ 0x3a :: rest) (byte :: bytes)

/-- Six octets for an address. -/
def IsMac (mac : CString) (address : SixBytes) : Prop := AreOctets mac address.toBytes

/-- What follows the digits of a number is no digit. -/
def Stops (rest : CString) : Prop := ∀ byte ∈ rest.head?, hexDigit byte = none

theorem scanDigits_hex {digits rest : CString} (hex : ∀ digit ∈ digits, (hexDigit digit).isSome)
    (stops : Stops rest) (value : Nat) :
    scanDigits hexDigit 16 value (digits ++ rest) = (hexValue digits value, rest) := by
  induction digits generalizing value with
  | nil =>
      cases rest with
      | nil => rfl
      | cons byte rest =>
          rw [List.nil_append, scanDigits, stops byte rfl]
          rfl
  | cons digit digits ih =>
      obtain ⟨units, here⟩ := Option.isSome_iff_exists.mp (hex digit List.mem_cons_self)
      rw [List.cons_append, scanDigits, here]
      dsimp only
      rw [ih fun other member => hex other (List.mem_cons_of_mem _ member)]
      rw [hexValue, hexValue, List.foldl_cons, here, Option.getD_some]

/-- A digit is neither white space nor a sign, nor the mark of a hexadecimal number. -/
theorem digit_plain : ∀ digit : UInt8, (hexDigit digit).isSome →
    isSpace digit = false ∧ digit ≠ 0x2d ∧ digit ≠ 0x2b ∧ digit ≠ 0x78 ∧ digit ≠ 0x58 := by
  apply forall_byte
  decide +kernel

theorem scanSign_digit {digit : UInt8} (hex : (hexDigit digit).isSome) (rest : CString) :
    scanSign (digit :: rest) = (false, digit :: rest) := by
  obtain ⟨space, minus, plus, _, _⟩ := digit_plain digit hex
  unfold scanSign
  rw [List.dropWhile_cons, space, if_neg Bool.false_ne_true]
  split
  · next same => exact absurd (List.cons.inj same).1 minus
  · next same => exact absurd (List.cons.inj same).1 plus
  · rfl

theorem skipHexMark_of_ne {first : UInt8} {rest : CString}
    (second : ∀ byte ∈ rest.head?, byte ≠ 0x78 ∧ byte ≠ 0x58) :
    skipHexMark (first :: rest) = first :: rest := by
  unfold skipHexMark
  split
  · next same =>
      obtain ⟨_, rfl⟩ := List.cons.inj same
      exact absurd rfl (second _ rfl).1
  · next same =>
      obtain ⟨_, rfl⟩ := List.cons.inj same
      exact absurd rfl (second _ rfl).2
  · rfl

theorem stops_colon (rest : CString) : Stops (0x3a :: rest) := by
  rintro byte ⟨⟩
  rfl

/-- One octet is read, and what follows it is left. -/
theorem scanHexByte_octet {digits rest : CString} {byte : UInt8} (octet : IsOctet digits byte)
    (stops : Stops rest) (unmarked : ∀ byte ∈ rest.head?, byte ≠ 0x78 ∧ byte ≠ 0x58) :
    scanHexByte (digits ++ rest) = some (byte, rest) := by
  obtain ⟨digit, later, rfl⟩ := List.exists_cons_of_ne_nil octet.written
  have first := octet.hex digit List.mem_cons_self
  have small := byte.toNat_lt
  have second : ∀ other ∈ (later ++ rest).head?, other ≠ 0x78 ∧ other ≠ 0x58 := by
    intro other member
    cases later with
    | nil => exact unmarked other member
    | cons next later =>
        have same : next = other := Option.some.inj member
        have hex := octet.hex next (List.mem_cons_of_mem _ List.mem_cons_self)
        rw [← same]
        exact (digit_plain next hex).2.2.2
  have scanned := scanDigits_hex octet.hex stops 0
  rw [octet.value] at scanned
  unfold scanHexByte
  rw [List.cons_append, scanSign_digit first]
  dsimp only
  rw [skipHexMark_of_ne second, scanNat]
  rw [if_pos first, ← List.cons_append, scanned, Option.map_some]
  dsimp only
  rw [if_pos (by omega)]
  congr 2
  apply UInt8.toNat_inj.mp
  rw [UInt8.toNat_ofNat']
  simp only [Bool.false_eq_true, if_false]
  omega

theorem scanHexBytes_octets {mac : CString} {bytes : List UInt8} (octets : AreOctets mac bytes) :
    scanHexBytes bytes.length mac = some bytes := by
  induction octets with
  | @last digits byte octet =>
      have scanned : scanHexByte (digits ++ []) = some (byte, []) :=
        scanHexByte_octet octet (fun byte member => nomatch member)
          fun byte member => nomatch member
      rw [List.append_nil] at scanned
      rw [List.length_singleton, scanHexBytes, scanned]
      rfl
  | @next digits rest byte bytes octet octets ih =>
      have scanned := scanHexByte_octet octet (stops_colon rest) (by
        rintro byte ⟨⟩
        decide)
      cases bytes with
      | nil => cases octets
      | cons second bytes =>
          rw [List.length_cons, List.length_cons, scanHexBytes, scanned]
          rw [List.length_cons] at ih
          show Option.map (byte :: ·) (scanHexBytes (bytes.length + 1) rest) = _
          rw [ih, Option.map_some]

/-- `aclmac` reads six octets as usual. -/
theorem aclmac_isMac {mac : CString} {address : SixBytes} (written : IsMac mac address) :
    aclmac mac = some address := by
  have scanned := scanHexBytes_octets written
  unfold aclmac
  rw [show (6 : Nat) = address.toBytes.length from rfl, scanned]
  rfl

/-! ## Sections -/

/-- A statement of an access-list section. A rule accepts or rejects an address. -/
inductive AclLine where
  | name (value : CString)
  | policy (value : CString) (string : 0 ∉ value)
  | log (value : CString)
  | rule (accepts : Bool) (mac : CString) (address : SixBytes) (written : IsMac mac address)

/-- The keyword of a rule. -/
def ruleKeyword (accepts : Bool) : CString := if accepts then text "accept" else text "reject"

namespace AclLine

def lvalue : AclLine → CString
  | name _ => text "name"
  | policy _ _ => text "policy"
  | log _ => text "log"
  | rule accepts _ _ _ => ruleKeyword accepts

def rvalue : AclLine → CString
  | name value => value
  | policy value _ => value
  | log value => value
  | rule _ mac _ _ => mac

def rule? : AclLine → Option (Bool × SixBytes)
  | rule accepts _ address _ => some (accepts, address)
  | _ => none

def policy? : AclLine → Option CString
  | policy value _ => some value
  | _ => none

end AclLine

/-- The section with these statements. -/
def aclSection : List AclLine → Cfg
  | [] => .null
  | line :: lines => .assignment line.lvalue line.rvalue (aclSection lines)

/-- The first rule for the address accepts it, or there is none and the last policy does. -/
def AcceptedBy (lines : List AclLine) (address : SixBytes) : Prop :=
  match (lines.filterMap AclLine.rule?).find? fun rule => rule.2 = address with
  | some rule => rule.1 = true
  | none => (lines.filterMap AclLine.policy?).getLast? = some (text "accept")

/-! ## Codes -/

theorem byte_pos {byte : UInt8} {rest : CString} (string : 0 ∉ byte :: rest) : 0 < byte.toNat := by
  rw [Nat.pos_iff_ne_zero]
  intro zero
  have null : byte = 0 := UInt8.toNat_inj.mp zero
  rw [null] at string
  exact string List.mem_cons_self

/-- `strcmp` returns zero for the same string only. -/
theorem strcmp_eq_zero_iff {first second : CString} (string : 0 ∉ first) (string' : 0 ∉ second) :
    strcmp first second = 0 ↔ first = second := by
  induction first generalizing second with
  | nil =>
      cases second with
      | nil => exact iff_of_true rfl rfl
      | cons byte rest =>
          have positive := byte_pos string'
          rw [strcmp]
          exact iff_of_false (by omega) (List.cons_ne_nil _ _).symm
  | cons byte rest ih =>
      cases second with
      | nil =>
          have positive := byte_pos string
          rw [strcmp]
          exact iff_of_false (by omega) (List.cons_ne_nil _ _)
      | cons byte' rest' =>
          rw [strcmp, List.cons.injEq]
          by_cases same : byte = byte'
          · rw [if_pos same, ih (fun null => string (List.mem_cons_of_mem _ null))
              fun null => string' (List.mem_cons_of_mem _ null)]
            exact (and_iff_right same).symm
          · rw [if_neg same]
            have differ : byte.toNat ≠ byte'.toNat := fun equal => same (UInt8.toNat_inj.mp equal)
            exact iff_of_false (by omega) fun equal => same equal.1

/-- Only the one word is the code of acceptance. -/
theorem aclpolicy_eq_accept_iff {policy : CString} (string : 0 ∉ policy) :
    aclpolicy policy = aclAccept ↔ policy = text "accept" := by
  rw [← strcmp_eq_zero_iff string (by decide : 0 ∉ text "accept")]
  unfold aclpolicy
  split
  · next same => exact iff_of_true rfl same
  · next differs =>
      refine iff_of_false ?_ differs
      split <;> decide

/-- Whatever else a rejecting rule gets, it is not the code of acceptance. -/
theorem aclpolicy_ruleKeyword (accepts : Bool) :
    aclpolicy (ruleKeyword accepts) = aclAccept ↔ accepts = true := by
  cases accepts <;> decide

/-! ## Parsing -/

/-- The row for a rule. -/
def rowOf (rule : Bool × SixBytes) : Aclentry := ⟨aclpolicy (ruleKeyword rule.1), rule.2⟩

section Parse

variable {loglist : List Logconf} {acl acl' : Aclconf}

/-- A statement adds its row, if it is a rule, and sets the policy, if it is one. -/
theorem aclStatement_line (line : AclLine)
    (returns : aclStatement loglist acl line.lvalue (some line.rvalue) = .ok (some acl')) :
    acl'.acl = acl.acl ++ (line.rule?.map rowOf).toList ∧
      acl'.defaultpolicy = (line.policy?.map aclpolicy).getD acl.defaultpolicy := by
  cases line with
  | name value =>
      obtain ⟨rfl⟩ : some { acl with name := some value } = some acl' := Except.ok.inj returns
      exact ⟨(List.append_nil _).symm, rfl⟩
  | policy value string =>
      obtain ⟨rfl⟩ : some { acl with defaultpolicy := aclpolicy value } = some acl' :=
        Except.ok.inj returns
      exact ⟨(List.append_nil _).symm, rfl⟩
  | log value =>
      obtain ⟨log, _, returned⟩ := bind_eq_ok.mp returns
      obtain ⟨rfl⟩ : some { acl with log := log } = some acl' := Except.ok.inj returned
      exact ⟨(List.append_nil _).symm, rfl⟩
  | rule accepts mac address written =>
      have added : aclStatement loglist acl (ruleKeyword accepts) (some mac) =
          .ok (aclRow acl (ruleKeyword accepts) mac) := by
        cases accepts <;> rfl
      rw [aclRow, aclmac_isMac written] at added
      obtain ⟨rfl⟩ : some { acl with acl := acl.acl ++ [rowOf (accepts, address)] } = some acl' :=
        Except.ok.inj (added.symm.trans returns)
      exact ⟨rfl, rfl⟩

/-- The statements add a row for each rule, in their order, and the last policy stays. -/
theorem aclStatements_lines {lines : List AclLine}
    (returns : aclStatements loglist acl (aclSection lines) = .ok (some acl')) :
    acl'.acl = acl.acl ++ (lines.filterMap AclLine.rule?).map rowOf ∧
      acl'.defaultpolicy =
        ((lines.filterMap AclLine.policy?).map aclpolicy).getLastD acl.defaultpolicy := by
  induction lines generalizing acl with
  | nil =>
      obtain ⟨rfl⟩ : some acl = some acl' := Except.ok.inj returns
      exact ⟨(List.append_nil _).symm, rfl⟩
  | cons line lines ih =>
      obtain ⟨parsed, statement, later⟩ := bind_eq_ok.mp returns
      cases parsed with
      | none => cases later
      | some middle =>
          obtain ⟨row, policy⟩ := aclStatement_line line statement
          obtain ⟨rows, policies⟩ := ih later
          rw [rows, row, policies, policy, List.append_assoc]
          constructor
          · cases line with
            | rule => rfl
            | name => rfl
            | policy => rfl
            | log => rfl
          · cases line with
            | policy value string =>
                show _ = (aclpolicy value :: _).getLastD acl.defaultpolicy
                rw [List.getLastD_cons]
                rfl
            | rule => rfl
            | name => rfl
            | log => rfl

end Parse

/-! ## Matching -/

/-- `aclmatch` returns the code of the first row for the address, or the policy. -/
theorem aclmatch_find (acl : Aclhdr) (address : SixBytes) :
    aclmatch acl address =
      ((acl.acl.find? fun row => row.hDest = address).map Aclentry.rule).getD
        acl.defaultpolicy := by
  have walk (rows : List Aclentry) : aclmatch.go acl address rows =
      ((rows.find? fun row => row.hDest = address).map Aclentry.rule).getD acl.defaultpolicy := by
    induction rows with
    | nil => rfl
    | cons row rows ih =>
        rw [aclmatch.go, List.find?_cons]
        by_cases here : address = row.hDest
        · rw [if_pos here, decide_eq_true here.symm]
          rfl
        · rw [if_neg here, decide_eq_false fun same => here same.symm]
          exact ih
  exact walk acl.acl

/-- Every policy of a section is a string. -/
theorem policy_string {lines : List AclLine} {value : CString}
    (member : value ∈ lines.filterMap AclLine.policy?) : 0 ∉ value := by
  obtain ⟨line, _, same⟩ := List.mem_filterMap.mp member
  cases line with
  | policy value string =>
      cases same
      exact string
  | name => cases same
  | log => cases same
  | rule => cases same

/-- The code that the policies leave is the code of acceptance if the last of them accepts. -/
theorem lastPolicy_accepts_iff (lines : List AclLine) :
    ((lines.filterMap AclLine.policy?).map aclpolicy).getLastD aclError = aclAccept ↔
      (lines.filterMap AclLine.policy?).getLast? = some (text "accept") := by
  rw [List.getLastD_eq_getLast?, List.getLast?_map]
  cases last : (lines.filterMap AclLine.policy?).getLast? with
  | none => exact iff_of_false (by decide) (by rintro ⟨⟩)
  | some value =>
      rw [Option.map_some, Option.getD_some,
        aclpolicy_eq_accept_iff (policy_string (List.mem_of_getLast? last)), Option.some.injEq]

/-- A section that `parseACL` accepts means what its statements say: the first rule for an
address decides, and otherwise the last policy. -/
theorem aclmatch_accepts_iff (loglist : List Logconf) (acllist : List Aclconf) (aclnum : Nat)
    (lines : List AclLine) (acl : Aclconf) (next : Nat) (address : SixBytes)
    (parses : parseACL loglist (acllist, aclnum) (aclSection lines) = .ok (acllist ++ [acl], next)) :
    aclmatch acl.toAclhdr address = aclAccept ↔ AcceptedBy lines address := by
  obtain ⟨parsed, statements, returned⟩ := bind_eq_ok.mp parses
  obtain ⟨appends, _⟩ := Prod.mk.inj (Except.ok.inj returned)
  cases parsed with
  | none => exact absurd appends.symm (List.append_ne_nil_of_right_ne_nil _ (List.cons_ne_nil _ _))
  | some built =>
      obtain rfl : built = acl := List.singleton_inj.mp (List.append_cancel_left appends)
      obtain ⟨rows, policy⟩ := aclStatements_lines statements
      have listed : built.toAclhdr.acl = (lines.filterMap AclLine.rule?).map rowOf := rows
      have default : built.toAclhdr.defaultpolicy =
          ((lines.filterMap AclLine.policy?).map aclpolicy).getLastD aclError := policy
      rw [aclmatch_find, listed, default, List.find?_map, AcceptedBy]
      have sameTest : ((fun row : Aclentry => decide (row.hDest = address)) ∘ rowOf) =
          fun rule => decide (rule.2 = address) := rfl
      rw [sameTest]
      cases (lines.filterMap AclLine.rule?).find? fun rule => decide (rule.2 = address) with
      | none => exact lastPolicy_accepts_iff lines
      | some rule => exact aclpolicy_ruleKeyword rule.1

/-- An octet may be written with one digit. -/
theorem isOctet_digit {digit byte : UInt8} (value : hexDigit digit = some byte.toNat) :
    IsOctet [digit] byte := by
  refine ⟨List.cons_ne_nil _ _, ?_, ?_⟩
  · intro other member
    rw [List.mem_singleton.mp member, value]
    rfl
  · rw [hexValue, List.foldl_cons, List.foldl_nil, value, Option.getD_some, Nat.zero_mul,
      Nat.zero_add]

theorem isMac_zeros {digit byte : UInt8} (value : hexDigit digit = some byte.toNat) :
    IsMac (text "0:0:0:0:0:" ++ [digit]) ⟨0, 0, 0, 0, 0, byte⟩ := by
  have zero : IsOctet [0x30] 0 := isOctet_digit rfl
  exact .next zero (.next zero (.next zero (.next zero (.next zero (.last (isOctet_digit value))))))

/-- A section with a rule for each of two addresses, and a policy for the others. -/
def rejectedOnce : List AclLine :=
  [.rule false (text "0:0:0:0:0:a") ⟨0, 0, 0, 0, 0, 10⟩ (@isMac_zeros 0x61 10 rfl),
    .rule true (text "0:0:0:0:0:0") ⟨0, 0, 0, 0, 0, 0⟩ (@isMac_zeros 0x30 0 rfl),
    .policy (text "accept") (by decide)]

def rejectedOnceACL : Aclconf where
  name := none
  aclnum := 1
  refcnt := 0
  defaultpolicy := aclAccept
  acl := [⟨aclError, ⟨0, 0, 0, 0, 0, 10⟩⟩, ⟨aclAccept, ⟨0, 0, 0, 0, 0, 0⟩⟩]
  log := none

theorem aclmatch_accepts_iff_rejectedOnce :
    aclmatch rejectedOnceACL.toAclhdr ⟨0, 0, 0, 0, 0, 10⟩ = aclAccept ↔
      AcceptedBy rejectedOnce ⟨0, 0, 0, 0, 0, 10⟩ :=
  aclmatch_accepts_iff [] [] 1 rejectedOnce rejectedOnceACL 2 ⟨0, 0, 0, 0, 0, 10⟩ rfl

end Qaoed.Config
