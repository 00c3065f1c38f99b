import Qaoed.Config.Records

/-!
# Sections of the configuration

The parse functions for the five kinds of sections, and the walks that apply them.
A parse function appends its record to the list it is handed; if it meets a
statement it does not know it returns NULL, and the list is gone. A field that
`malloc` leaves unset reads as zero.
-/

namespace Qaoed.Config

open Qaoed.Device
open Qaoed.Frame
open Qaoed.Library

/-- The list that a parse function returns. -/
def appended {α : Type} (list : List α) : Option α → List α
  | some entry => list ++ [entry]
  | none => []

theorem appended_eq_nil_iff {α : Type} {list : List α} {entry : Option α} :
    appended list entry = [] ↔ entry.isSome = false := by
  cases entry with
  | none => simp [appended]
  | some entry => simp [appended]

/-! ## Logging targets -/

def logStatement (log : Logconf) (lvalue rvalue : CString) : Option Logconf :=
  if lvalue = text "type" then
    some { log with logtype := if rvalue = text "file" then .file else .syslog }
  else if lvalue = text "syslog-level" ∨ lvalue = text "syslog-facility" then
    if log.logtype = .syslog then some log else none
  else if lvalue = text "filename" then some log
  else if lvalue = text "name" then some { log with name := some rvalue }
  else none

def logStatements (log : Logconf) : Cfg → Option Logconf
  | .null => some log
  | .block _ _ next => logStatements log next
  | .assignment lvalue rvalue next =>
      (logStatement log lvalue rvalue).bind fun log => logStatements log next

def parseLOG (loglist : List Logconf) (c : Cfg) : Except Stop (List Logconf) :=
  .ok (appended loglist (logStatements ⟨none, .syslog⟩ c))

def findLOG (loglist : List Logconf) (c : Cfg) : Except Stop (List Logconf) :=
  c.find (text "logging") parseLOG id loglist

/-! ## Access lists -/

/-- `strcmp` is compared with 1 for a rejecting policy. -/
def aclpolicy (policy : CString) : UInt8 :=
  if strcmp policy (text "accept") = 0 then aclAccept
  else if strcmp policy (text "reject") = 1 then aclReject
  else aclError

/-- Add a row to the list, unless the address cannot be read. -/
def aclRow (acl : Aclconf) (lvalue mac : CString) : Option Aclconf :=
  (aclmac mac).map fun hDest => { acl with acl := acl.acl ++ [⟨aclpolicy lvalue, hDest⟩] }

/-- The switch on the first letter, for a block with its missing value too. Every
keyword with `a` or `r` counts as a row. -/
def aclStatement (loglist : List Logconf) (acl : Aclconf) (lvalue : CString)
    (rvalue : Option CString) : Except Stop (Option Aclconf) :=
  match lvalue.head? with
  | some 0x6e =>
      if lvalue ≠ text "name" then .ok none
      else follow rvalue fun name => .ok (some { acl with name := some name })
  | some 0x70 =>
      if lvalue ≠ text "policy" then .ok none
      else follow rvalue fun policy => .ok (some { acl with defaultpolicy := aclpolicy policy })
  | some 0x6c =>
      if lvalue ≠ text "log" then .ok none
      else follow rvalue fun name => do
        let log ← referencelogOrErr name loglist
        return some { acl with log := log }
  | some 0x61 | some 0x72 => follow rvalue fun mac => .ok (aclRow acl lvalue mac)
  | _ => .ok none

def aclStatements (loglist : List Logconf) (acl : Aclconf) : Cfg → Except Stop (Option Aclconf)
  | .null => .ok (some acl)
  | .block lvalue _ next => do
      match ← aclStatement loglist acl lvalue none with
      | none => return none
      | some acl => aclStatements loglist acl next
  | .assignment lvalue rvalue next => do
      match ← aclStatement loglist acl lvalue (some rvalue) with
      | none => return none
      | some acl => aclStatements loglist acl next

/-- The access list before its statements are read. -/
def blankACL (aclnum : Nat) : Aclconf where
  name := none
  aclnum := aclnum
  refcnt := 0
  defaultpolicy := aclError
  acl := []
  log := none

/-- Every section uses up a number, also one that is given up. -/
def parseACL (loglist : List Logconf) (state : List Aclconf × Nat) (c : Cfg) :
    Except Stop (List Aclconf × Nat) := do
  let acl ← aclStatements loglist (blankACL state.2) c
  return (appended state.1 acl, state.2 + 1)

def findACL (loglist : List Logconf) (c : Cfg) : Except Stop (List Aclconf) :=
  (c.find (text "access-list") (parseACL loglist) id ([], 1)).map Prod.fst

/-! ## Devices -/

/-- The operation a keyword of an `acl` block stands for. -/
def aclKeyword (lvalue : CString) : Option AclOp :=
  if lvalue = text "read" then some .read
  else if lvalue = text "write" then some .write
  else if lvalue = text "cfgread" ∨ lvalue = text "discover" then some .cfgread
  else if lvalue = text "cfgset" then some .cfgset
  else none

/-- `parsedevacl`: the device, unless the return value is -1, and the access lists
with the references it counted. -/
def parsedevacl (acllist : List Aclconf) (dev : Devconf) :
    Cfg → Except Stop (Option Devconf × List Aclconf)
  | .null => .ok (some dev, acllist)
  | .block _ _ next => parsedevacl acllist dev next
  | .assignment lvalue rvalue next =>
      match aclKeyword lvalue with
      | none => .ok (none, acllist)
      | some op => do
          let acl ← referenceacl rvalue acllist
          parsedevacl (aclrefup acl acllist) (op.set dev acl) next

def onOff (rvalue : CString) : Int := if rvalue = text "off" then 0 else 1

/-- The numbers are cut to the width of their fields. -/
def devStatement (loglist : List Logconf) (intlist : List Ifconf) (dev : Devconf)
    (lvalue rvalue : CString) : Except Stop (Option Devconf) :=
  if lvalue = text "shelf" then
    .ok (some { dev with shelf := UInt16.ofNat (atoi rvalue % 2 ^ 16).toNat })
  else if lvalue = text "slot" then
    .ok (some { dev with slot := UInt8.ofNat (atoi rvalue % 2 ^ 8).toNat })
  else if lvalue = text "log-level" then .ok (some dev)
  else if lvalue = text "log" then do
    let log ← referencelogOrErr rvalue loglist
    return some { dev with log := log }
  else if lvalue = text "target" then .ok (some { dev with devicename := some rvalue })
  else if lvalue = text "interface" then do
    let interface ← referenceifconf rvalue intlist
    return some { dev with interface := interface }
  else if lvalue = text "writecache" then .ok (some { dev with writecache := onOff rvalue })
  else if lvalue = text "broadcast" then .ok (some { dev with broadcast := onOff rvalue })
  else .ok none

def devStatements (loglist : List Logconf) (intlist : List Ifconf) (acllist : List Aclconf)
    (dev : Devconf) : Cfg → Except Stop (Option Devconf × List Aclconf)
  | .null => .ok (some dev, acllist)
  | .block lvalue body next =>
      if lvalue = text "acl" then do
        match ← parsedevacl acllist dev body with
        | (none, acllist) => return (none, acllist)
        | (some dev, acllist) => devStatements loglist intlist acllist dev next
      else devStatements loglist intlist acllist dev next
  | .assignment lvalue rvalue next => do
      match ← devStatement loglist intlist dev lvalue rvalue with
      | none => return (none, acllist)
      | some dev => devStatements loglist intlist acllist dev next

/-- The device before its statements are read: invalid values show what is left out. -/
def blankDEV : Devconf where
  devicename := none
  size := 0
  shelf := 0xffff
  slot := 0xff
  interface := none
  wacl := none
  racl := none
  cfgsetacl := none
  cfgracl := none
  cfgLen := 0
  cfg := CfgBuf.zero
  writecache := -1
  broadcast := -1
  log := none

/-- The references a section counts stay, also if the section is given up. -/
def parseDEV (loglist : List Logconf) (intlist : List Ifconf)
    (state : List Devconf × List Aclconf) (c : Cfg) :
    Except Stop (List Devconf × List Aclconf) := do
  let (dev, acllist) ← devStatements loglist intlist state.2 blankDEV c
  return (appended state.1 dev, acllist)

def findDEV (loglist : List Logconf) (intlist : List Ifconf) (acllist : List Aclconf) (c : Cfg) :
    Except Stop (List Devconf × List Aclconf) :=
  c.find (text "device") (parseDEV loglist intlist) id ([], acllist)

/-- What is done to the first default device at the end of every chain. -/
def closeDFLT (state : List Devconf × List Aclconf) : List Devconf × List Aclconf :=
  match state with
  | ([], acllist) => ([], acllist)
  | (dev :: devlist, acllist) =>
      ({ dev with
          writecache := if dev.writecache = -1 then 1 else dev.writecache
          broadcast := if dev.broadcast = -1 then 1 else dev.broadcast } :: devlist, acllist)

def findDFLT (loglist : List Logconf) (intlist : List Ifconf) (acllist : List Aclconf) (c : Cfg) :
    Except Stop (List Devconf × List Aclconf) :=
  c.find (text "default") (parseDEV loglist intlist) closeDFLT ([], acllist)

/-! ## Interfaces -/

def ifStatement (loglist : List Logconf) (ifentry : Ifconf) (lvalue rvalue : CString) :
    Except Stop (Option Ifconf) :=
  if lvalue = text "mtu" then
    match (if rvalue = text "auto" then some 0 else scanInt rvalue) with
    | none => .ok none
    | some mtu =>
        .ok (some { ifentry with
          mtu := mtu
          buffsize := if ifentry.buffsize < mtu then mtu + 14 else ifentry.buffsize })
  else if lvalue = text "interface" then .ok (some { ifentry with ifname := some rvalue })
  else if lvalue = text "log-level" then .ok (some ifentry)
  else if lvalue = text "log" then do
    let log ← referencelogOrErr rvalue loglist
    return some { ifentry with log := log }
  else .ok none

/-- The entry afterwards, and whether the section is accepted. -/
def ifStatements (loglist : List Logconf) (ifentry : Ifconf) : Cfg → Except Stop (Ifconf × Bool)
  | .null => .ok (ifentry, true)
  | .block _ _ next => ifStatements loglist ifentry next
  | .assignment lvalue rvalue next => do
      match ← ifStatement loglist ifentry lvalue rvalue with
      | none => return (ifentry, false)
      | some ifentry => ifStatements loglist ifentry next

/-- The interface lists in memory, each by its number. A list that is given up stays
there, since a cursor may still point into it. -/
structure Chains where
  chains : List (List Ifconf)
  /-- The list that `iflist` points to. -/
  iflist : Option Nat

namespace Chains

def entries (memory : Chains) (chain : Nat) : List Ifconf := (memory.chains[chain]?).getD []

/-- Put an entry behind the last one of a list. -/
def append (memory : Chains) (chain : Nat) (entry : Ifconf) : Chains :=
  { memory with chains := memory.chains.modify chain (· ++ [entry]) }

/-- Start a list that `iflist` points to from then on. -/
def start (memory : Chains) (entry : Ifconf) : Chains :=
  ⟨memory.chains ++ [[entry]], some memory.chains.length⟩

end Chains

/-- A rejected section stays in its list as well, as far as it was read. -/
def parseINT (loglist : List Logconf) (memory : Chains) (c : Cfg) : Except Stop Chains := do
  let log ← referencelog (text "default") loglist
  let (entry, accepted) ← ifStatements loglist ⟨none, 1500, 0, log⟩ c
  let memory :=
    match memory.iflist with
    | none => memory.start entry
    | some chain => memory.append chain entry
  return if accepted then memory else { memory with iflist := none }

/-- The first loop of `findINT`: the interface sections of the chain itself. -/
def intSections (loglist : List Logconf) (memory : Chains) (c : Cfg) : Except Stop Chains :=
  (c.children (text "interface")).foldlM (parseINT loglist) memory

/-- A cursor of `findINT`: a list, and a position in it. -/
abbrev Cursor := Option (Nat × Nat)

/-- What the search along a list comes to: the name is there, or it is added. -/
def refersTo (name : CString) : List Ifconf → Except Stop Bool
  | [] => .ok false
  | entry :: next =>
      match entry.ifname with
      | none => .error .crash
      | some known => if known = name then .ok true else refersTo name next

/-- The second loop of `findINT`. The cursor stays in its list while the walk goes
into a block, whatever becomes of `iflist` there, and a name that is known ends
the loop. -/
def intReferences (loglist : List Logconf) : Chains → Cursor → Cfg → Except Stop Chains
  | memory, _, .null => .ok memory
  | memory, cursor, .assignment lvalue rvalue next =>
      if lvalue = text "interface" then do
        let log ← referencelog (text "default") loglist
        let entry : Ifconf := ⟨some rvalue, 1500, 0, log⟩
        match cursor with
        | none => intReferences loglist (memory.start entry) (some (memory.chains.length, 0)) next
        | some (chain, position) =>
            if ← refersTo rvalue ((memory.entries chain).drop position) then return memory
            else
              intReferences loglist (memory.append chain entry)
                (some (chain, (memory.entries chain).length)) next
      else intReferences loglist memory cursor next
  | memory, cursor, .block _ body next => do
      let memory ← intSections loglist memory body
      let memory ← intReferences loglist memory (memory.iflist.map fun chain => (chain, 0)) body
      intReferences loglist memory cursor next

/-- `findINT`; the empty list if it returns NULL. -/
def findINT (loglist : List Logconf) (c : Cfg) : Except Stop (List Ifconf) := do
  let memory ← intSections loglist ⟨[], none⟩ c
  let memory ← intReferences loglist memory (memory.iflist.map fun chain => (chain, 0)) c
  return (memory.iflist.map memory.entries).getD []

end Qaoed.Config
