import Qaoed.Rcfg.Tokenize
import Mathlib.Data.List.Infix

/-!
# Checks on the sequence of tokens

`validatetokens` counts braces, looks every token up that is not a value, and compares
what follows a keyword with the type of its statement and with its list of arguments. Some
keywords have no type.
-/

namespace Qaoed.Rcfg

open Qaoed.Device
open Qaoed.Config

/-! ## The tables -/

def keywords : List CString :=
  ["device", "default", "acl", "slot", "shelf", "interface", "target", "filename", "access-list",
    "name", "policy", "accept", "reject", "writecache", "broadcast", "log-level", "syslog-level",
    "syslog-facility", "persistent-cfg", "write", "read", "cfgset", "cfgread", "discover",
    "logging", "log", "type", "mtu", "log", "if"].map text ++
  [[equals], [openBrace], [closeBrace], [semicolon]] ++ ["include", "apisocket"].map text

/-- The types `b`, `%s;` and `%d;`. -/
inductive Datatype where
  | block
  | string
  | number
  deriving DecidableEq, Repr

def datatype : List (CString × Datatype) :=
  [(text "default", .block), (text "access-list", .block), (text "device", .block),
    (text "acl", .block), (text "logging", .block), (text "writecache", .string),
    (text "slot", .number), (text "shelf", .number), (text "mtu", .string),
    (text "target", .string), (text "cfgread", .string), (text "read", .string),
    (text "type", .string), (text "if", .string), (text "log", .string), (text "write", .string),
    (text "filename", .string), (text "discover", .string), (text "cfgset", .string),
    (text "writecache", .string), (text "log-level", .string), (text "syslog-level", .string),
    (text "syslog-facility", .string), (text "persistent-cfg", .string),
    (text "broadcast", .string), (text "apisocket", .string), (text "include", .string)]

def arglist : List (CString × CString) :=
  [(text "writecache", text "on|off"), (text "type", text "syslog|file"),
    (text "broadcast", text "on|off"), (text "policy", text "accept|reject"),
    (text "log-level", text "debug|error|info|none"),
    (text "syslog-level", text ("LOG_EMERG|LOG_ALERT|LOG_CRIT|LOG_ERR|LOG_WARNING|LOG_NOTICE|" ++
      "LOG_INFO|LOG_DEBUG")),
    (text "syslog-facility", text ("LOG_DAEMON|LOG_LOCAL0|LOG_LOCAL1|LOG_LOCAL2|LOG_LOCAL3|" ++
      "LOG_LOCAL4|LOG_LOCAL5|LOG_LOCAL6|LOG_LOCAL7|LOG_USER"))]

/-! ## The checks -/

/-- A check that does not return: the program exits, or goes down. -/
inductive Halt where
  | exit
  | crash
  deriving DecidableEq, Repr

def countbraces (tokens : List CString) : Int :=
  let right := tokens.count [openBrace]
  let left := tokens.count [closeBrace]
  if left < right then -1 else if left > right then -1 else 0

/-- The token in front of the others comes first. -/
def checktokenlist : Option CString → List CString → Int
  | _, [] => 0
  | before, token :: tokens =>
      if keywords.contains token = false ∧ before.any (fun before => firstByte before == equals) = false then -1
      else checktokenlist (some token) tokens

/-- What `sscanf` returns for the format of a type: -1 at the end of the text, and 0 if the
text does not match. There is room for 200 bytes. -/
def sscanf (value : CString) : Datatype → Except Halt Int
  | .number =>
      if value.dropWhile isSpace = [] then .ok (-1)
      else .ok (if (scanInt value).isSome then 1 else 0)
  | _ =>
      let word := (value.dropWhile isSpace).takeWhile fun byte => !isSpace byte
      if word = [] then .ok (-1) else if word.length < 200 then .ok 1 else .error .crash

/-- A token with those behind it against one row of the table. -/
def checkRow (token : CString) (tokens : List CString) (row : CString × Datatype) :
    Except Halt Unit :=
  if token ≠ row.1 then .ok ()
  else if row.2 = .block then
    match tokens with
    | [] => .error .crash
    | next :: _ => if firstByte next ≠ openBrace then .error .exit else .ok ()
  else
    match tokens with
    | sign :: value :: tokens => do
        if firstByte sign ≠ equals then .error .exit
        else
          let matched ← sscanf value row.2
          if matched = 0 then .error .exit
          else
            match tokens with
            | last :: _ => if firstByte last ≠ semicolon then .error .exit else .ok ()
            | [] => .error .exit
    | _ => .error .exit

def checkRows (token : CString) (tokens : List CString) : List (CString × Datatype) → Except Halt Unit
  | [] => .ok ()
  | row :: rows => do
      checkRow token tokens row
      checkRows token tokens rows

/-- The token behind a `=` is not looked at. -/
def checkdatatype : List CString → Except Halt Unit
  | [] => .ok ()
  | [token] => checkRows token [] datatype
  | token :: next :: tokens => do
      checkRows token (next :: tokens) datatype
      if firstByte token = equals then checkdatatype tokens else checkdatatype (next :: tokens)

/-- A token with those behind it against the rows of the table: an argument is two tokens
away. -/
def checkArguments (token : CString) (tokens : List CString) :
    List (CString × CString) → Except Halt Int
  | [] => .ok 0
  | row :: rows =>
      if token = row.1 then
        match tokens with
        | _ :: arg :: _ => if arg <:+: row.2 then checkArguments token tokens rows else .ok (-1)
        | _ => .error .crash
      else checkArguments token tokens rows

def checkargs : List CString → Except Halt Int
  | [] => .ok 0
  | token :: tokens => do
      let result ← checkArguments token tokens arglist
      if result ≠ 0 then return result else checkargs tokens

def validatetokens (tokens : List CString) : Except Halt Int :=
  if countbraces tokens ≠ 0 then .ok (-1)
  else if checktokenlist none tokens ≠ 0 then .ok (-1)
  else do
    checkdatatype tokens
    let result ← checkargs tokens
    return if result ≠ 0 then -1 else 0

end Qaoed.Rcfg
