import Qaoed.Rcfg.Indices
import Qaoed.Config.Sections

/-!
# Keywords with a list of arguments

`checkargs` looks the argument of a keyword up in a text of all its alternatives, and does
so for every token. What an argument sets is decided elsewhere, with other spellings. Here
is when both agree.
-/

namespace Qaoed.Rcfg

open Qaoed.Device
open Qaoed.Library
open Qaoed.Config

/-! ## Levels of logging -/

def tolower (byte : UInt8) : UInt8 := if 0x41 ≤ byte ∧ byte ≤ 0x5a then byte + 0x20 else byte

def strcasecmp (first second : CString) : Int := strcmp (first.map tolower) (second.map tolower)

def loglevel : List (CString × Int) :=
  [(text "error", 4), (text "info", 3), (text "debg", 2), (text "emerg", 1), (text "none", 0)]

/-- The numbers are those of the system's header: a facility is shifted by three bits. -/
def sysloglevel : List (CString × Int) :=
  [(text "LOG_EMERG", 0), (text "LOG_ALERT", 1), (text "LOG_CRIT", 2), (text "LOG_ERROR", 3),
    (text "LOG_WARNING", 4), (text "LOG_NOTICE", 5), (text "LOG_INFO", 6), (text "LOG_DEBUG", 7),
    (text "LOG_AUTH", 32), (text "LOG_DAEMON", 24), (text "LOG_USER", 8),
    (text "LOG_LOCAL0", 128), (text "LOG_LOCAL1", 136), (text "LOG_LOCAL2", 144),
    (text "LOG_LOCAL3", 152), (text "LOG_LOCAL4", 160), (text "LOG_LOCAL5", 168),
    (text "LOG_LOCAL6", 176), (text "LOG_LOCAL7", 184)]

/-- The loop of both searches: the first level with the name, or -1. -/
def levelresolv (levels : List (CString × Int)) (str : CString) : Int :=
  ((levels.find? fun level => strcasecmp str level.1 == 0).map Prod.snd).getD (-1)

def loglvresolv (str : CString) : Int := levelresolv loglevel str

def syslgresolv (str : CString) : Int := levelresolv sysloglevel str

/-! ## Alternatives and their meanings -/

/-- What an argument sets. -/
inductive Setting where
  | flag (value : Int)
  | logtype (logtype : Logtype)
  | policy (policy : UInt8)
  | level (level : Int)
  deriving DecidableEq, Repr

/-- A keyword, what the code that reads its argument makes of it, and what the alternatives
of its list stand for. -/
structure Restricted where
  keyword : CString
  consume : CString → Setting
  meanings : List (CString × Setting)

namespace Restricted

variable (row : Restricted)

def alternatives : List CString := row.meanings.map Prod.fst

/-- The alternatives with a `|` between them. -/
def joined : CString := (text "|").intercalate row.alternatives

/-- The text is one of the alternatives, the code takes it for this one, and it is not the number
for a word that is not known. -/
structure Understands (value : CString) : Prop where
  meaning : (value, row.consume value) ∈ row.meanings
  level : row.consume value ≠ .level (-1)
  policy : row.consume value ≠ .policy aclError

/-- A part of the joined text that is no alternative. -/
def Piece (value : CString) : Prop := value <:+: row.joined ∧ value ∉ row.alternatives

end Restricted

def switch : List (CString × Setting) := [(text "on", .flag 1), (text "off", .flag 0)]

/-- The keywords of `arglist`, in its order. -/
def restricted : List Restricted :=
  [⟨text "writecache", fun value => .flag (onOff value), switch⟩,
    ⟨text "type",
      fun value => .logtype
        (((logStatement ⟨none, .syslog⟩ (text "type") value).map Logconf.logtype).getD .err),
      [(text "syslog", .logtype .syslog), (text "file", .logtype .file)]⟩,
    ⟨text "broadcast", fun value => .flag (onOff value), switch⟩,
    ⟨text "policy", fun value => .policy (aclpolicy value),
      [(text "accept", .policy aclAccept), (text "reject", .policy aclReject)]⟩,
    ⟨text "log-level", fun value => .level (loglvresolv value),
      [(text "debug", .level 2), (text "error", .level 4), (text "info", .level 3),
        (text "none", .level 0)]⟩,
    ⟨text "syslog-level", fun value => .level (syslgresolv value),
      [(text "LOG_EMERG", .level 0), (text "LOG_ALERT", .level 1), (text "LOG_CRIT", .level 2),
        (text "LOG_ERR", .level 3), (text "LOG_WARNING", .level 4), (text "LOG_NOTICE", .level 5),
        (text "LOG_INFO", .level 6), (text "LOG_DEBUG", .level 7)]⟩,
    ⟨text "syslog-facility", fun value => .level (syslgresolv value),
      [(text "LOG_DAEMON", .level 24), (text "LOG_LOCAL0", .level 128),
        (text "LOG_LOCAL1", .level 136), (text "LOG_LOCAL2", .level 144),
        (text "LOG_LOCAL3", .level 152), (text "LOG_LOCAL4", .level 160),
        (text "LOG_LOCAL5", .level 168), (text "LOG_LOCAL6", .level 176),
        (text "LOG_LOCAL7", .level 184), (text "LOG_USER", .level 8)]⟩]

theorem arglist_eq : arglist = restricted.map fun row => (row.keyword, row.joined) := by
  decide +kernel

/-- The alternatives that the code does not know, or takes for something else. -/
def misread : List (CString × CString) :=
  [(text "policy", text "reject"), (text "log-level", text "debug"),
    (text "syslog-level", text "LOG_ERR")]

theorem meaning_iff : ∀ row ∈ restricted, ∀ value ∈ row.alternatives,
    (value, row.consume value) ∈ row.meanings ↔ (row.keyword, value) ∉ misread := by
  decide +kernel

theorem meanings_known : ∀ row ∈ restricted, ∀ entry ∈ row.meanings,
    entry.2 ≠ .level (-1) ∧ entry.2 ≠ .policy aclError := by
  decide +kernel

theorem understands_iff {row : Restricted} (member : row ∈ restricted) (value : CString) :
    row.Understands value ↔ value ∈ row.alternatives ∧ (row.keyword, value) ∉ misread := by
  constructor
  · intro understands
    have listed : value ∈ row.alternatives := List.mem_map_of_mem understands.meaning
    exact ⟨listed, (meaning_iff row member value listed).mp understands.meaning⟩
  · rintro ⟨listed, known⟩
    have meaning := (meaning_iff row member value listed).mpr known
    obtain ⟨level, policy⟩ := meanings_known row member _ meaning
    exact ⟨meaning, level, policy⟩

/-! ## Names and values -/

/-- The tokens that are names, or those that are values, have the argument that their list allows,
if they have a list. The second flag says that the first token is a value. -/
def ListedWhere (values : Bool) : Bool → List CString → Prop
  | _, [] => True
  | value, token :: tokens => (value = values → ArgumentListed token tokens) ∧
      ListedWhere values (firstByte token == equals) tokens

instance (token : CString) (tokens : List CString) : Decidable (ArgumentListed token tokens) :=
  decidable_of_iff _ (checkArguments_eq_zero_iff arglist)

instance decidableListedWhere (values : Bool) :
    (value : Bool) → (tokens : List CString) → Decidable (ListedWhere values value tokens)
  | _, [] => .isTrue trivial
  | value, token :: tokens =>
      have := decidableListedWhere values (firstByte token == equals) tokens
      inferInstanceAs (Decidable ((value = values → ArgumentListed token tokens) ∧ _))

theorem argumentsListed_iff (value : Bool) (tokens : List CString) :
    ArgumentsListed tokens ↔ ListedWhere false value tokens ∧ ListedWhere true value tokens := by
  induction tokens generalizing value with
  | nil => exact iff_of_true trivial ⟨trivial, trivial⟩
  | cons token tokens ih =>
      rw [ArgumentsListed, ListedWhere, ListedWhere, ih (firstByte token == equals)]
      cases value with
      | false => simp only [forall_const, Bool.false_eq_true, false_implies, true_and, and_assoc]
      | true =>
          simp only [forall_const, Bool.true_eq_false, false_implies, true_and]
          exact and_left_comm

/-- The argument of every assignment to a keyword with a list is understood, and no sequence is
refused for a value. -/
structure Agrees (tokens : List CString) : Prop where
  arguments : validatetokens tokens = .ok 0 → ∀ row ∈ restricted, ∀ value,
    [row.keyword, [equals], value] <:+: tokens → row.Understands value
  values : Closed tokens → TypedNames tokens → ListedWhere false false tokens →
    validatetokens tokens = .ok 0

/-- No argument is only a piece of its list or one of three alternatives, and each value that is
itself a keyword with a list has two tokens behind it one that occurs in the list. -/
structure Unmistakable (tokens : List CString) : Prop where
  arguments : Validated tokens → ∀ row ∈ restricted, ∀ value,
    [row.keyword, [equals], value] <:+: tokens →
      ¬ row.Piece value ∧ (row.keyword, value) ∉ misread
  values : Closed tokens → TypedNames tokens → ListedWhere false false tokens →
    ListedWhere true false tokens

/-- What the checks let through is a part of the joined text. -/
theorem Validated.occurs {tokens : List CString} (validated : Validated tokens) {row : Restricted}
    (member : row ∈ restricted) {value : CString}
    (assigns : [row.keyword, [equals], value] <:+: tokens) : value <:+: row.joined := by
  obtain ⟨front, later, same⟩ := assigns
  have listed := validated.listed
  rw [← same, List.append_assoc] at listed
  have entry : (row.keyword, row.joined) ∈ arglist := by
    rw [arglist_eq]
    exact List.mem_map_of_mem member
  obtain ⟨_, _, _, behind, occurs⟩ := ArgumentsListed.argument listed _ entry rfl
  cases behind
  exact occurs

/-- For every sequence of tokens: if the checks let it through, each argument of a keyword with a
list is one of the alternatives and the code takes it for this one, and the checks refuse no
sequence for a value that is such a keyword, if and only if the arguments are none of the pieces
and words that are misunderstood, and values that are keywords have by chance what is looked for
behind them. -/
theorem agrees_iff (tokens : List CString) : Agrees tokens ↔ Unmistakable tokens := by
  have accepts := validatetokens_eq_zero_iff tokens
  have listed := argumentsListed_iff false tokens
  constructor
  · intro agrees
    constructor
    · intro validated row member value assigns
      have understands := agrees.arguments (accepts.mpr validated) row member value assigns
      obtain ⟨alternative, known⟩ := (understands_iff member value).mp understands
      exact ⟨fun piece => piece.2 alternative, known⟩
    · intro closed typed names
      have validated := accepts.mp (agrees.values closed typed names)
      exact (listed.mp validated.listed).2
  · intro unmistakable
    constructor
    · intro accepted row member value assigns
      have validated := accepts.mp accepted
      obtain ⟨whole, known⟩ := unmistakable.arguments validated row member value assigns
      have alternative : value ∈ row.alternatives := by
        by_contra other
        exact whole ⟨validated.occurs member assigns, other⟩
      exact (understands_iff member value).mpr ⟨alternative, known⟩
    · intro closed typed names
      have values := unmistakable.values closed typed names
      exact accepts.mpr ⟨closed, typed, listed.mpr ⟨names, values⟩⟩

/-- The tokens of a section with one assignment. -/
def sectionTokens (name keyword value : String) : List CString :=
  [text name, [openBrace], text keyword, [equals], text value, [semicolon], [closeBrace]]

/-- An access list with the name of a keyword. -/
def namedTokens : List CString :=
  [text "access-list", [openBrace], text "name", [equals], text "type", [semicolon], text "policy",
    [equals], text "accept", [semicolon], [closeBrace]]

/-- A text has the tokens, and the checks and the code that reads the arguments do not agree. -/
def Disagrees (tokens : List CString) : Prop :=
  scanTokens (tokens.flatMap fun token => token ++ [space]) = some tokens ∧ ¬ Agrees tokens

/-- A piece of `off` is accepted and switches the cache on. Three alternatives are accepted and
come to an error code. A list that is named like a keyword is refused. -/
theorem agrees_fails :
    Disagrees (sectionTokens "default" "writecache" "of") ∧
    Disagrees (sectionTokens "access-list" "policy" "reject") ∧
    Disagrees (sectionTokens "device" "log-level" "debug") ∧
    Disagrees (sectionTokens "logging" "syslog-level" "LOG_ERR") ∧
    Disagrees namedTokens := by
  have misunderstood {tokens : List CString} (accepted : validatetokens tokens = .ok 0)
      (wrong : ∃ row ∈ restricted, ∃ value ∈ tokens, [row.keyword, [equals], value] <:+: tokens ∧
        (value, row.consume value) ∉ row.meanings) : ¬ Agrees tokens := by
    intro agrees
    obtain ⟨row, member, value, _, assigns, other⟩ := wrong
    exact other (agrees.arguments accepted row member value assigns).meaning
  refine ⟨⟨by decide +kernel, ?_⟩, ⟨by decide +kernel, ?_⟩, ⟨by decide +kernel, ?_⟩,
    ⟨by decide +kernel, ?_⟩, by decide +kernel, ?_⟩
  · exact misunderstood (by decide +kernel) (by decide +kernel)
  · exact misunderstood (by decide +kernel) (by decide +kernel)
  · exact misunderstood (by decide +kernel) (by decide +kernel)
  · exact misunderstood (by decide +kernel) (by decide +kernel)
  · intro agrees
    have closed : Closed namedTokens := (closed_iff _).mpr (by decide +kernel)
    have typed : TypedNames namedTokens := (checkdatatype_eq_ok_iff _).mp (by decide +kernel)
    have names : ListedWhere false false namedTokens := by decide +kernel
    exact absurd (agrees.values closed typed names) (by decide +kernel)

end Qaoed.Rcfg
