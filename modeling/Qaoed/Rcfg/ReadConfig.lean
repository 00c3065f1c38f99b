import Qaoed.Rcfg.Expansion
import Qaoed.Rcfg.Indices
import Qaoed.Rcfg.Layout

/-!
# Reading a configuration

`readconfig` makes one tree of a file and of all files that are included. A tree that keeps to
the tables of the checks may be written down in any layout and spread over any files: reading
gives it back.
-/

namespace Qaoed.Rcfg

open Qaoed.Device
open Qaoed.Library
open Qaoed.Config

section Read

variable {File : Type*} (source : File → List UInt8) (glob : CString → List File)
  (filename : File → CString)

/-- `readconfig`, with calls of `tokenize` up to a depth. -/
def readconfig (depth : Nat) (file : File) : Option (Except Failure Cfg) :=
  (tokenize source glob depth file).map fun
    | .error failure => .error failure
    | .ok tokens => (processtokens tokens (filename file)).mapError fun _ => .crash

end Read

/-! ## Trees that keep to the tables -/

/-- The keywords whose arguments are listed. -/
def listed : List CString := arglist.map Prod.fst

/-- Names and values are words; no value is a keyword that the checks or the loop over the
`include` statements take for a name. -/
def Written : Cfg → Prop
  | .null => True
  | .assignment lvalue rvalue next =>
      IsWord lvalue ∧ IsWord rvalue ∧ rvalue ∉ text "include" :: listed ∧ Written next
  | .block lvalue body next => IsWord lvalue ∧ lvalue ∉ listed ∧ Written body ∧ Written next

/-- `sscanf` finds something in the value, or its end. -/
def reads (value : CString) (kind : Datatype) : Bool :=
  match sscanf value kind with
  | .ok matched => matched != 0
  | .error _ => false

/-- The value is of the type of the name, and one of its arguments if these are listed. -/
structure TakesValue (lvalue rvalue : CString) : Prop where
  known : lvalue ∈ keywords
  typed : ∀ row ∈ datatype, lvalue = row.1 →
    row.2 ≠ .block ∧ reads rvalue row.2 = true
  argument : ∀ row ∈ arglist, lvalue = row.1 → rvalue <:+: row.2

/-- The name is a keyword that may stand in front of a block. -/
structure OpensBlock (lvalue : CString) : Prop where
  known : lvalue ∈ keywords
  typed : ∀ row ∈ datatype, lvalue = row.1 → row.2 = .block

def Conforms : Cfg → Prop
  | .null => True
  | .assignment lvalue rvalue next => TakesValue lvalue rvalue ∧ Conforms next
  | .block lvalue body next => OpensBlock lvalue ∧ Conforms body ∧ Conforms next

/-- What the `include` statements of a tree name, at any depth. -/
def patterns : Cfg → List CString
  | .null => []
  | .assignment lvalue rvalue next =>
      (if lvalue = text "include" then [rvalue] else []) ++ patterns next
  | .block _ body next => patterns body ++ patterns next

theorem IsWord.undelimited {token : CString} (word : IsWord token) : Undelimited token where
  notEmpty := word.notEmpty
  bytes byte member := by
    have inside := (word.bytes byte member).1
    simp only [stopsAt, Bool.or_eq_false_iff] at inside
    simp [inside]

theorem Written.printable {config : Cfg} (written : Written config) : Printable config := by
  induction config with
  | null => trivial
  | assignment lvalue rvalue next ih =>
      obtain ⟨name, value, _, later⟩ := written
      exact ⟨name.undelimited.plain, value.undelimited.plain, ih later⟩
  | block lvalue body next ihBody ihNext =>
      obtain ⟨name, _, inner, later⟩ := written
      exact ⟨name.undelimited.plain, ihBody inner, ihNext later⟩

/-! ## The checks on the tokens of a tree -/

/-- The checks that go from token to token find nothing to object to. -/
structure Passing (tokens : List CString) : Prop where
  known : ([semicolon] :: tokens).IsChain Known
  typed : TypedNames tokens
  listed : ArgumentsListed tokens

section Passing

variable {token value : CString} {tokens : List CString}

theorem typedNames_cons (plain : firstByte token ≠ equals) :
    TypedNames (token :: tokens) ↔ TypedName token tokens ∧ TypedNames tokens := by
  cases tokens with
  | nil => simp [TypedNames]
  | cons next tokens => rw [TypedNames, if_neg plain]

/-- Behind a token that is no `=`, only keywords are known. -/
theorem known_chain (plain : firstByte token ≠ equals) :
    (token :: tokens).IsChain Known ↔ ([semicolon] :: tokens).IsChain Known := by
  cases tokens with
  | nil => simp
  | cons next tokens =>
      have other : firstByte [semicolon] ≠ equals := by decide
      rw [List.isChain_cons_cons, List.isChain_cons_cons, Known, Known, or_iff_left plain,
        or_iff_left other]

theorem passing_cons (plain : firstByte token ≠ equals) :
    Passing (token :: tokens) ↔
      (token ∈ keywords ∧ TypedName token tokens ∧ ArgumentListed token tokens) ∧ Passing tokens := by
  have other : firstByte [semicolon] ≠ equals := by decide
  constructor
  · rintro ⟨known, typed, listed⟩
    rw [List.isChain_cons_cons, Known, or_iff_left other, known_chain plain] at known
    rw [typedNames_cons plain] at typed
    exact ⟨⟨known.1, typed.1, listed.1⟩, known.2, typed.2, listed.2⟩
  · rintro ⟨⟨keyword, typedHere, listedHere⟩, known, typed, listed⟩
    refine ⟨?_, (typedNames_cons plain).mpr ⟨typedHere, typed⟩, listedHere, listed⟩
    rw [List.isChain_cons_cons, Known, or_iff_left other, known_chain plain]
    exact ⟨keyword, known⟩

/-- The delimiters are keywords without a type. -/
theorem passing_delimiter {byte : UInt8} (plain : byte ≠ equals)
    (delimiter : byte ∈ [openBrace, closeBrace, semicolon]) :
    Passing ([byte] :: tokens) ↔ Passing tokens := by
  have facts : ∀ byte ∈ [openBrace, closeBrace, semicolon], [byte] ∈ keywords ∧
      (∀ row ∈ datatype, [byte] ≠ row.1) ∧ ∀ row ∈ arglist, [byte] ≠ row.1 := by decide +kernel
  obtain ⟨keyword, untyped, unlisted⟩ := facts byte delimiter
  have sign : firstByte [byte] ≠ equals := plain
  rw [passing_cons sign, and_iff_right]
  exact ⟨keyword, fun row member same => absurd same (untyped row member),
    fun row member same => absurd same (unlisted row member)⟩

/-- The value behind a `=` is not looked at, but for arguments of its own. -/
theorem passing_equals (plain : firstByte value ≠ equals) (unlisted : value ∉ listed) :
    Passing ([equals] :: value :: tokens) ↔ Passing tokens := by
  have keyword : [equals] ∈ keywords := by decide +kernel
  have untyped : ∀ row ∈ datatype, [equals] ≠ row.1 := by decide +kernel
  have noList : ∀ row ∈ arglist, [equals] ≠ row.1 := by decide +kernel
  have typedSign (tokens : List CString) : TypedName [equals] tokens :=
    fun row member same => absurd same (untyped row member)
  have listedSign (tokens : List CString) : ArgumentListed [equals] tokens :=
    fun row member same => absurd same (noList row member)
  have listedValue : ArgumentListed value tokens :=
    fun row member same => absurd (same ▸ List.mem_map_of_mem member) unlisted
  constructor
  · rintro ⟨known, typed, listed⟩
    rw [List.isChain_cons_cons, List.isChain_cons_cons, known_chain plain] at known
    rw [TypedNames, if_pos (firstByte_cons _ _)] at typed
    exact ⟨known.2.2, typed.2, listed.2.2⟩
  · rintro ⟨known, typed, listed⟩
    refine ⟨?_, ?_, listedSign _, listedValue, listed⟩
    · rw [List.isChain_cons_cons, List.isChain_cons_cons, known_chain plain]
      exact ⟨Or.inl keyword, Or.inr (firstByte_cons _ _), known⟩
    · rw [TypedNames, if_pos (firstByte_cons _ _)]
      exact ⟨typedSign _, typed⟩

theorem reads_iff {kind : Datatype} :
    reads value kind = true ↔ ∃ matched, sscanf value kind = .ok matched ∧ matched ≠ 0 := by
  unfold reads
  cases sscanf value kind with
  | error halt => simp
  | ok matched => simp

theorem takesValue_iff {lvalue rvalue : CString} :
    (lvalue ∈ keywords ∧ TypedName lvalue ([equals] :: rvalue :: [semicolon] :: tokens) ∧
        ArgumentListed lvalue ([equals] :: rvalue :: [semicolon] :: tokens)) ↔
      TakesValue lvalue rvalue := by
  have typed (kind : Datatype) : Typed kind ([equals] :: rvalue :: [semicolon] :: tokens) ↔
      kind ≠ .block ∧ reads rvalue kind = true := by
    rw [reads_iff]
    have apart : equals ≠ openBrace := by decide
    unfold Typed
    by_cases block : kind = .block <;> simp [block, apart]
  have argument (list : CString) : (∃ sign arg later,
      [equals] :: rvalue :: [semicolon] :: tokens = sign :: arg :: later ∧ arg <:+: list) ↔
        rvalue <:+: list := by simp
  simp only [TypedName, ArgumentListed, typed, argument]
  constructor
  · rintro ⟨known, typed, argument⟩
    exact ⟨known, typed, argument⟩
  · rintro ⟨known, typed, argument⟩
    exact ⟨known, typed, argument⟩

theorem opensBlock_iff {lvalue : CString} (unlisted : lvalue ∉ listed) :
    (lvalue ∈ keywords ∧ TypedName lvalue ([openBrace] :: tokens) ∧
        ArgumentListed lvalue ([openBrace] :: tokens)) ↔ OpensBlock lvalue := by
  have typed (kind : Datatype) : Typed kind ([openBrace] :: tokens) ↔ kind = .block := by
    have apart : openBrace ≠ equals := by decide
    unfold Typed
    by_cases block : kind = .block <;> simp [block, apart]
  have noArgument : ArgumentListed lvalue ([openBrace] :: tokens) :=
    fun row member same => absurd (same ▸ List.mem_map_of_mem member) unlisted
  simp only [TypedName, typed]
  constructor
  · rintro ⟨known, typed, _⟩
    exact ⟨known, typed⟩
  · rintro ⟨known, typed⟩
    exact ⟨known, typed, noArgument⟩

/-- On the tokens of a tree the checks look for what the tables say of its statements. -/
theorem passing_flatten {config : Cfg} (written : Written config) :
    Passing (flatten config ++ tokens) ↔ Conforms config ∧ Passing tokens := by
  induction config generalizing tokens with
  | null => exact (and_iff_right trivial).symm
  | assignment lvalue rvalue next ih =>
      obtain ⟨name, value, notKeyword, later⟩ := written
      have unlisted : rvalue ∉ listed := fun member => notKeyword (List.mem_cons_of_mem _ member)
      simp only [flatten, List.cons_append]
      rw [passing_cons name.undelimited.plain.notEquals,
        passing_equals value.undelimited.plain.notEquals unlisted,
        passing_delimiter (by decide) (by decide), ih later, takesValue_iff, Conforms, and_assoc]
  | block lvalue body next ihBody ihNext =>
      obtain ⟨name, unlisted, inner, later⟩ := written
      simp only [flatten, List.cons_append, List.append_assoc]
      rw [passing_cons name.undelimited.plain.notEquals, passing_delimiter (by decide) (by decide),
        ihBody inner, passing_delimiter (by decide) (by decide), ihNext later,
        opensBlock_iff unlisted, Conforms, and_assoc, and_assoc]

/-- Of the tokens of a tree only the signs of its blocks are braces, as many of one kind as of
the other. -/
theorem flatten_balanced {config : Cfg} (printable : Printable config) :
    (flatten config).count [openBrace] = (flatten config).count [closeBrace] := by
  have signs : [equals] ≠ [openBrace] ∧ [equals] ≠ [closeBrace] ∧ [semicolon] ≠ [openBrace] ∧
      [semicolon] ≠ [closeBrace] ∧ [openBrace] ≠ [closeBrace] ∧ [closeBrace] ≠ [openBrace] := by
    decide
  have apart {token : CString} (plain : Plain token) :
      token ≠ [openBrace] ∧ token ≠ [closeBrace] :=
    ⟨fun same => plain.notOpen (same ▸ rfl), fun same => plain.notClose (same ▸ rfl)⟩
  induction config with
  | null => rfl
  | assignment lvalue rvalue next ih =>
      obtain ⟨name, value, later⟩ := printable
      simp only [flatten, List.count_cons, beq_iff_eq, apart name, apart value, signs, ih later,
        if_false]
  | block lvalue body next ihBody ihNext =>
      obtain ⟨name, inner, later⟩ := printable
      simp only [flatten, List.count_cons, List.count_append, beq_iff_eq, apart name, signs,
        ihBody inner, ihNext later, if_true, if_false]
      omega

/-- The checks accept exactly the trees that keep to the tables. -/
theorem validatetokens_flatten {config : Cfg} (written : Written config) :
    validatetokens (flatten config) = .ok 0 ↔ Conforms config := by
  have passing := @passing_flatten [] _ written
  rw [List.append_nil, and_iff_left (⟨by simp, trivial, trivial⟩ : Passing [])] at passing
  rw [validatetokens_eq_zero_iff, ← passing]
  constructor
  · exact fun validated => ⟨validated.known, validated.typed, validated.listed⟩
  · rintro ⟨known, typed, listed⟩
    exact ⟨⟨flatten_balanced written.printable, known⟩, typed, listed⟩

end Passing

/-! ## Statements behind each other -/

section Append

variable {first second : Cfg}

theorem flatten_append (first second : Cfg) :
    flatten (first.append second) = flatten first ++ flatten second := by
  induction first with
  | null => rfl
  | assignment lvalue rvalue next ih => simp [BlockTree.append, flatten, ih]
  | block lvalue body next _ ih => simp [BlockTree.append, flatten, ih]

theorem flatten_concat (chains : List Cfg) :
    flatten (BlockTree.concat chains) = chains.flatMap flatten := by
  induction chains with
  | nil => rfl
  | cons chain chains ih =>
      rw [List.flatMap_cons, ← ih]
      exact flatten_append chain _

theorem printable_append (printableFirst : Printable first) (printableSecond : Printable second) :
    Printable (first.append second) := by
  induction first with
  | null => exact printableSecond
  | assignment lvalue rvalue next ih =>
      obtain ⟨name, value, later⟩ := printableFirst
      exact ⟨name, value, ih later⟩
  | block lvalue body next _ ih =>
      obtain ⟨name, inner, later⟩ := printableFirst
      exact ⟨name, inner, ih later⟩

theorem printable_concat {chains : List Cfg} (all : ∀ chain ∈ chains, Printable chain) :
    Printable (BlockTree.concat chains) := by
  induction chains with
  | nil => trivial
  | cons chain chains ih =>
      rw [List.forall_mem_cons] at all
      exact printable_append all.1 (ih all.2)

/-- A tree that can be printed is known by its tokens. -/
theorem flatten_injective (printableFirst : Printable first) (printableSecond : Printable second)
    (same : flatten first = flatten second) : first = second := by
  have parsed := recursiveparse_printed printableFirst
  rw [same, recursiveparse_printed printableSecond] at parsed
  exact (Except.ok.inj parsed).symm

end Append

/-! ## Include statements of a tree -/

section Includes

variable {token : CString} {tokens : List CString}

theorem includesAssigned_cons (later : IncludesAssigned tokens)
    (here : token = text "include" → tokens[0]? = some [equals] ∧ 1 < tokens.length) :
    IncludesAssigned (token :: tokens) := by
  intro i inside found
  cases i with
  | zero =>
      obtain ⟨sign, value⟩ := here (Option.some.inj found)
      exact ⟨sign, Nat.succ_lt_succ value⟩
  | succ i =>
      obtain ⟨sign, value⟩ := later i (Nat.lt_of_succ_lt_succ inside) found
      exact ⟨sign, Nat.succ_lt_succ value⟩

theorem delimiter_ne_include {byte : UInt8} : [byte] ≠ text "include" := by
  intro same
  exact absurd (congrArg List.length same) (show 1 ≠ (text "include").length by decide)

/-- What is included is a matter of its statements alone. -/
theorem flatten_includes {config : Cfg} (written : Written config) (conforms : Conforms config)
    (assigned : IncludesAssigned tokens) :
    IncludesAssigned (flatten config ++ tokens) ∧
      includePatterns (flatten config ++ tokens) = patterns config ++ includePatterns tokens := by
  have sign {byte : UInt8} {tokens : List CString} (assigned : IncludesAssigned tokens) :
      IncludesAssigned ([byte] :: tokens) ∧ includePatterns ([byte] :: tokens) = includePatterns tokens :=
    ⟨includesAssigned_cons assigned fun same => absurd same delimiter_ne_include,
      includePatterns_other delimiter_ne_include⟩
  induction config generalizing tokens with
  | null => exact ⟨assigned, rfl⟩
  | assignment lvalue rvalue next ih =>
      obtain ⟨_, _, notKeyword, later⟩ := written
      obtain ⟨rest, behind⟩ := ih later conforms.2 assigned
      have value : rvalue ≠ text "include" := fun same => notKeyword (same ▸ List.mem_cons_self)
      have last := @sign semicolon _ rest
      have middle : IncludesAssigned (rvalue :: [semicolon] :: (flatten next ++ tokens)) :=
        includesAssigned_cons last.1 fun same => absurd same value
      have first := @sign equals _ middle
      refine ⟨includesAssigned_cons first.1 fun _ => ⟨rfl, Nat.succ_lt_succ (Nat.succ_pos _)⟩, ?_⟩
      have behindSign : includePatterns ([equals] :: rvalue :: [semicolon] ::
          (flatten next ++ tokens)) = patterns next ++ includePatterns tokens := by
        rw [first.2, includePatterns_other value, last.2, behind]
      simp only [flatten, List.cons_append, patterns]
      by_cases named : lvalue = text "include"
      · rw [includePatterns, if_pos named, if_pos named, behindSign]
        rfl
      · rw [includePatterns_other named, if_neg named, behindSign, List.nil_append]
  | block lvalue body next ihBody ihNext =>
      obtain ⟨_, _, inner, later⟩ := written
      obtain ⟨opens, conformsBody, conformsNext⟩ := conforms
      obtain ⟨rest, behind⟩ := ihNext later conformsNext assigned
      have close := @sign closeBrace _ rest
      obtain ⟨whole, inside⟩ := ihBody inner conformsBody close.1
      have brace := @sign openBrace _ whole
      have name : lvalue ≠ text "include" := by
        rintro rfl
        exact absurd (opens.typed (text "include", .string) (by decide +kernel) rfl) (by decide)
      simp only [flatten, List.cons_append, List.append_assoc, patterns]
      refine ⟨includesAssigned_cons brace.1 fun same => absurd same name, ?_⟩
      rw [includePatterns_other name, brace.2, inside, close.2, behind]

end Includes

/-! ## Files -/

section Files

variable {File : Type*} (source : File → List UInt8) (glob : CString → List File)
  (tree expand : File → Cfg)

/-- The text is a layout of the tree. -/
structure Lays (config : Cfg) (text : List UInt8) : Prop where
  written : Written config
  notEmpty : config ≠ .null
  layout : Layout Closable (flatten config) text
  short : ShortLines text

/-- The files that a tree names. -/
def named (file : File) : List File := (patterns (tree file)).flatMap glob

/-- Each file has its own statements, then for each `include` statement and each file that
matches it the statements of that file. -/
def IsTreeExpansion : Prop :=
  ∀ file, expand file = (tree file).append
    (BlockTree.concat ((patterns (tree file)).flatMap fun pattern => (glob pattern).map expand))

/-- Files with trees that keep to the tables, of which none includes itself at any depth. -/
structure SpreadOver : Prop where
  lays : ∀ file, Lays (tree file) (source file)
  conforms : ∀ file, Conforms (tree file)
  matched : ∀ file, ∀ pattern ∈ patterns (tree file), glob pattern ≠ []
  acyclic : ∀ file, ¬ Relation.TransGen (fun file other => other ∈ named glob tree file) file file

end Files

section Reading

variable {File : Type*} {source : File → List UInt8} {glob : CString → List File}
  {tree expand : File → Cfg} {filename : File → CString} {file : File}

theorem flatten_ne_nil {config : Cfg} (notEmpty : config ≠ .null) : flatten config ≠ [] := by
  cases config with
  | null => exact absurd rfl notEmpty
  | assignment lvalue rvalue next => exact List.cons_ne_nil _ _
  | block lvalue body next => exact List.cons_ne_nil _ _

theorem Lays.accepted_iff {config : Cfg} {text : List UInt8} (lays : Lays config text)
    (tokens : List CString) :
    accepted text = .ok tokens ↔ Conforms config ∧ tokens = flatten config := by
  have checked := validatetokens_flatten lays.written
  unfold accepted
  rw [scanTokens_layout lays.layout lays.short]
  dsimp only
  rw [if_neg (flatten_ne_nil lays.notEmpty)]
  cases result : validatetokens (flatten config) with
  | error halt =>
      have fails : ¬ Conforms config := fun conforms => by cases result.symm.trans (checked.mpr conforms)
      cases halt <;> simp [fails]
  | ok value =>
      rw [result, Except.ok.injEq] at checked
      by_cases zero : value = 0
      · simp [zero, checked.mp zero, eq_comm]
      · simp [zero, checked.not.mp zero]

theorem SpreadOver.own (spread : SpreadOver source glob tree) (file : File) :
    accepted (source file) = .ok (own source file) ∧ own source file = flatten (tree file) := by
  have valid := ((spread.lays file).accepted_iff (flatten (tree file))).mpr
    ⟨spread.conforms file, rfl⟩
  have tokens := own_of_accepted valid
  exact ⟨tokens ▸ valid, tokens⟩

/-- The files are well formed as sequences of tokens. -/
theorem SpreadOver.wellFormed (spread : SpreadOver source glob tree) :
    WellFormedFiles source glob ∧ ∀ file, namedFiles source glob file = named glob tree file := by
  have includes (file : File) := @flatten_includes [] _ (spread.lays file).written
    (spread.conforms file) (by intro i inside; cases inside)
  simp only [List.append_nil, includePatterns] at includes
  have names (file : File) : namedFiles source glob file = named glob tree file := by
    rw [namedFiles, (spread.own file).2, (includes file).2, named]
  refine ⟨⟨fun file => ⟨_, (spread.own file).1⟩, ?_, ?_, ?_⟩, names⟩
  · intro file
    rw [(spread.own file).2]
    exact (includes file).1
  · intro file pattern member
    rw [(spread.own file).2, (includes file).2] at member
    exact spread.matched file pattern member
  · simp only [names]
    exact spread.acyclic

/-- The statements of the files of a list are loaded one after the other. -/
theorem flatten_forall₂ {files : List File} {parts : List (List CString)}
    (loads : ∀ file, Loads source glob file (flatten (expand file)))
    (loadsParts : List.Forall₂ (Loads source glob) files parts) :
    parts.flatten = flatten (BlockTree.concat (files.map expand)) := by
  rw [flatten_eq_flatMap loads loadsParts, flatten_concat, List.flatMap_map]

/-- What is loaded for a file can be printed from a tree. -/
theorem SpreadOver.loads [Finite File] (spread : SpreadOver source glob tree) (file : File) :
    ∃ config, Printable config ∧ Loads source glob file (flatten config) := by
  obtain ⟨wellFormed, names⟩ := spread.wellFormed
  induction wellFormed.acc file with
  | intro file _ ih =>
      have each : ∀ files : List File, (∀ other ∈ files, other ∈ namedFiles source glob file) →
          ∃ config, Printable config ∧ ∃ parts, List.Forall₂ (Loads source glob) files parts ∧
            parts.flatten = flatten config := by
        intro files
        induction files with
        | nil => exact fun _ => ⟨.null, trivial, [], .nil, rfl⟩
        | cons other files ihFiles =>
            intro all
            rw [List.forall_mem_cons] at all
            obtain ⟨first, printableFirst, load⟩ := ih other all.1
            obtain ⟨rest, printableRest, parts, loads, whole⟩ := ihFiles all.2
            refine ⟨first.append rest, printable_append printableFirst printableRest, _,
              .cons load loads, ?_⟩
            rw [List.flatten_cons, whole, flatten_append]
      obtain ⟨rest, printable, parts, loads, whole⟩ := each _ fun _ member => member
      refine ⟨(tree file).append rest,
        printable_append (spread.lays file).written.printable printable, ?_⟩
      rw [flatten_append, ← whole, ← (spread.own file).2]
      exact wellFormed.loads_iff.mpr ⟨parts, loads, rfl⟩

theorem IsTreeExpansion.alone [Finite File] (spread : SpreadOver source glob tree)
    {other : File → Cfg} (expansion : IsTreeExpansion glob tree expand)
    (expansion' : IsTreeExpansion glob tree other) : other = expand := by
  obtain ⟨wellFormed, names⟩ := spread.wellFormed
  funext file
  induction wellFormed.acc file with
  | intro file _ ih =>
      rw [expansion, expansion']
      congr 2
      refine List.flatMap_congr fun pattern inPatterns => List.map_congr_left fun member matches' => ?_
      refine ih member ?_
      rw [names]
      exact List.mem_flatMap.mpr ⟨pattern, inPatterns, matches'⟩

theorem readconfig_of_loads {config : Cfg} (printable : Printable config)
    (loads : Loads source glob file (flatten config)) :
    ∃ depth, ∀ deeper, depth ≤ deeper →
      readconfig source glob filename deeper file =
        some (.ok (.block (filename file) config .null)) := by
  obtain ⟨depth, returns⟩ := tokenize_of_loads loads
  refine ⟨depth, fun deeper more => ?_⟩
  have parsed := recursiveparse_printed printable
  rw [readconfig, returns deeper more]
  simp only [Option.map_some, processtokens, parsed]
  rfl

/-- A file that includes nothing and keeps to the tables is read. -/
theorem Lays.returns {config : Cfg} (lays : Lays config (source file)) (alone : patterns config = [])
    (conforms : Conforms config) :
    ∃ depth, ∀ deeper, depth ≤ deeper → readconfig source glob filename deeper file =
      some (.ok (.block (filename file) config .null)) := by
  have valid := (lays.accepted_iff _).mpr ⟨conforms, rfl⟩
  have includes := @flatten_includes [] _ lays.written conforms
    (by intro i inside; cases inside)
  rw [List.append_nil, alone] at includes
  refine readconfig_of_loads lays.written.printable ?_
  rw [loads_iff valid, included_eq, namedFiles, own_of_accepted valid, includes.2]
  · exact ⟨rfl, [], .nil, (List.append_nil _).symm⟩
  · rw [own_of_accepted valid]
    exact includes.1
  · rw [own_of_accepted valid, includes.2]
    exact List.forall_mem_nil _

theorem Lays.refused {config : Cfg} (lays : Lays config (source file)) (fails : ¬ Conforms config)
    (depth : Nat) : ∀ result, readconfig source glob filename depth file ≠ some (.ok result) := by
  intro result reads
  cases valid : accepted (source file) with
  | ok tokens => exact fails ((lays.accepted_iff tokens).mp valid).1
  | error failure =>
      cases depth with
      | zero => cases reads
      | succ depth =>
          rw [readconfig, tokenize, Program.run, tokenizeBody, valid] at reads
          cases reads

end Reading

/-- A file without `include` statements, in any layout with short lines: its tree is read exactly
if it keeps to the tables, and no other tree ever is. Values that are keywords with a list of
arguments are left out, for they are taken for names. -/
theorem readconfig_alone (File : Type) (source : File → List UInt8) (glob : CString → List File)
    (filename : File → CString) (file : File) (config : Cfg) (lays : Lays config (source file))
    (alone : patterns config = []) :
    (Conforms config ↔ ∃ depth, readconfig source glob filename depth file =
      some (.ok (.block (filename file) config .null))) ∧
    ∀ depth result, readconfig source glob filename depth file = some (.ok result) →
      result = .block (filename file) config .null := by
  constructor
  · constructor
    · intro conforms
      obtain ⟨depth, reads⟩ := lays.returns alone conforms
      exact ⟨depth, reads depth (Nat.le_refl _)⟩
    · rintro ⟨depth, reads⟩
      by_contra fails
      exact lays.refused fails depth _ reads
  · intro depth result reads
    by_cases conforms : Conforms config
    · obtain ⟨enough, later⟩ := lays.returns alone conforms
      have both := later (max enough depth) (Nat.le_max_left _ _)
      obtain ⟨tokens, run, parsed⟩ := Option.map_eq_some_iff.mp reads
      have deeper : tokenize source glob (max enough depth) file = some tokens :=
        Program.run_mono (Nat.le_max_right _ _) run
      rw [readconfig, deeper, Option.map_some, parsed] at both
      exact Except.ok.inj (Option.some.inj both)
    · exact absurd reads (lays.refused conforms depth result)

/-- One block of a device, with a comment in it. -/
def deviceTree : Cfg := .block (text "device") (.assignment (text "slot") (text "1") .null) .null

def deviceText : List UInt8 :=
  text "device" ++ openBrace :: newline :: (text "slot" ++ equals :: space :: (text "1" ++
    semicolon :: hash :: (text "first" ++ newline :: closeBrace :: [])))

theorem readconfig_alone_device :
    ∃ depth, readconfig (fun _ : Unit => deviceText) (fun _ => []) (fun _ => text "qaoed.conf") depth
      () = some (.ok (.block (text "qaoed.conf") deviceTree .null)) := by
  have isWord : IsWord (text "device") ∧ IsWord (text "slot") ∧ IsWord (text "1") :=
    ⟨⟨by decide, by decide +kernel, by decide⟩, ⟨by decide, by decide +kernel, by decide⟩,
      ⟨by decide, by decide +kernel, by decide⟩⟩
  obtain ⟨device, slot, one⟩ := isWord
  have ends {byte : UInt8} {text : List UInt8} (last : (isBlank byte || byte == newline ||
      byte == hash || isDelimiter byte) = true) : EndsWord (byte :: text) := by
    intro first member
    cases member
    exact last
  refine (readconfig_alone Unit (fun _ => deviceText) (fun _ => []) (fun _ => text "qaoed.conf") ()
    deviceTree ⟨?_, by decide, ?_, ?_⟩ rfl).1.mp ?_
  · exact ⟨device, by decide +kernel, ⟨slot, one, by decide +kernel, trivial⟩, trivial⟩
  · refine .word device (ends rfl) (.delimiter rfl (.newline (.word slot (ends rfl) (.delimiter rfl
      (.blank rfl (.word one (ends rfl) (.delimiter rfl (.remark (by decide) ?_ (.newline
        (.delimiter rfl .done))))))))))
    intro byte member
    cases member
    rfl
  · unfold ShortLines
    decide +kernel
  · exact ⟨⟨by decide +kernel, by decide +kernel⟩,
      ⟨⟨by decide +kernel, by decide +kernel, by decide +kernel⟩, trivial⟩, trivial⟩

/-- A configuration that is spread over files in any layout with short lines is read as one tree:
the statements of a file, and behind them those of each file it includes, in the order of the
statements that include them. Each file keeps to the tables, and each pattern has a match. -/
theorem readconfig_expansion (File : Type) [Finite File] (source : File → List UInt8)
    (glob : CString → List File) (filename : File → CString) (tree : File → Cfg)
    (spread : SpreadOver source glob tree) :
    ∃ expand, IsTreeExpansion glob tree expand ∧
      (∀ other, IsTreeExpansion glob tree other → other = expand) ∧
      ∀ file, ∃ depth, ∀ deeper, depth ≤ deeper →
        readconfig source glob filename deeper file =
          some (.ok (.block (filename file) (expand file) .null)) := by
  obtain ⟨wellFormed, names⟩ := spread.wellFormed
  choose expand printable loads using spread.loads
  have expansion : IsTreeExpansion glob tree expand := by
    intro file
    obtain ⟨parts, loadsParts, whole⟩ := wellFormed.loads_iff.mp (loads file)
    have same : flatten (expand file) = flatten ((tree file).append
        (BlockTree.concat ((named glob tree file).map expand))) := by
      rw [whole, flatten_append, (spread.own file).2, ← names file,
        flatten_forall₂ loads loadsParts]
    rw [named, List.map_flatMap] at same
    refine flatten_injective (printable file) (printable_append
      (spread.lays file).written.printable (printable_concat ?_)) same
    intro chain member
    obtain ⟨_, _, inFiles⟩ := List.mem_flatMap.mp member
    obtain ⟨other, _, rfl⟩ := List.mem_map.mp inFiles
    exact printable other
  exact ⟨expand, expansion, fun other => IsTreeExpansion.alone spread expansion,
    fun file => readconfig_of_loads (printable file) (loads file)⟩

/-- An included file with an MTU. -/
def twoTrees : Bool → Cfg
  | true => .assignment (text "include") (text "mtu.conf") .null
  | false => .assignment (text "mtu") (text "1500") .null

theorem readconfig_expansion_twoFiles :
    ∃ expand, IsTreeExpansion globTwo twoTrees expand ∧
      (∀ other, IsTreeExpansion globTwo twoTrees other → other = expand) ∧
      ∀ file, ∃ depth, ∀ deeper, depth ≤ deeper →
        readconfig twoFiles globTwo (fun _ => text "qaoed.conf") deeper file =
          some (.ok (.block (text "qaoed.conf") (expand file) .null)) := by
  have lays (lvalue rvalue : CString) (name : IsWord lvalue) (value : IsWord rvalue)
      (other : rvalue ∉ text "include" :: listed)
      (short : ShortLines (lvalue ++ equals :: (rvalue ++ [semicolon]))) :
      Lays (.assignment lvalue rvalue .null) (lvalue ++ equals :: (rvalue ++ [semicolon])) := by
    refine ⟨⟨name, value, other, trivial⟩, by simp, ?_, short⟩
    refine .word name ?_ (.delimiter rfl (.word value ?_ (.delimiter rfl .done)))
    all_goals
      intro byte member
      cases member
      rfl
  have names : named globTwo twoTrees true = [false] ∧ named globTwo twoTrees false = [] := by decide
  have step {file other : Bool} (included : other ∈ named globTwo twoTrees file) :
      file = true ∧ other = false := by
    cases file with
    | true =>
        rw [names.1] at included
        exact ⟨rfl, List.mem_singleton.mp included⟩
    | false =>
        rw [names.2] at included
        cases included
  refine readconfig_expansion Bool twoFiles globTwo (fun _ => text "qaoed.conf") twoTrees
    ⟨?_, ?_, by decide, ?_⟩
  · intro file
    cases file with
    | true =>
        exact lays _ _ ⟨by decide, by decide +kernel, by decide⟩ ⟨by decide, by decide +kernel, by decide⟩
          (by decide +kernel) (by unfold ShortLines; decide +kernel)
    | false =>
        exact lays _ _ ⟨by decide, by decide +kernel, by decide⟩ ⟨by decide, by decide +kernel, by decide⟩
          (by decide +kernel) (by unfold ShortLines; decide +kernel)
  · intro file
    cases file with
    | true => exact ⟨⟨by decide +kernel, by decide +kernel, by decide +kernel⟩, trivial⟩
    | false => exact ⟨⟨by decide +kernel, by decide +kernel, by decide +kernel⟩, trivial⟩
  · intro file cycle
    obtain ⟨other, begins, _⟩ := Relation.TransGen.head'_iff.mp cycle
    obtain ⟨before, _, ends⟩ := Relation.TransGen.tail'_iff.mp cycle
    cases (step begins).1.symm.trans (step ends).2

end Qaoed.Rcfg
