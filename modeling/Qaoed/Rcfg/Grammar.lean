import Qaoed.Rcfg.Parse
import Qaoed.Rcfg.Validate

/-!
# The grammar of a configuration

A configuration is a sequence of statements: assignments that end with a semicolon, and
blocks of statements between braces. What the checks on a sequence of tokens let through
is not always one, and the parser then leaves tokens out. Here is what the checks miss.
-/

namespace Qaoed.Rcfg

open Qaoed.Device
open Qaoed.Library
open Qaoed.Config

/-- A sequence of statements. -/
inductive Grammar : List CString → Prop
  | done : Grammar []
  | assignment {name value : CString} {next : List CString} :
      Undelimited name → Undelimited value → Grammar next →
      Grammar (name :: [equals] :: value :: [semicolon] :: next)
  | block {name : CString} {body next : List CString} :
      Undelimited name → Grammar body → Grammar next →
      Grammar (name :: [openBrace] :: (body ++ [closeBrace] :: next))

/-! ## What the checks miss -/

/-- The keywords that have no type. -/
def untyped : List CString := ["interface", "name", "policy", "accept", "reject"].map text

/-- What makes a statement of the name in front of it. -/
def Completes (tokens : List CString) : Prop :=
  match tokens with
  | [] => False
  | sign :: tokens => firstByte sign = openBrace ∨ firstByte sign = equals ∧
      match tokens with
      | _ :: last :: _ => firstByte last = semicolon
      | _ => False

/-- Keywords without a type are used as names, unless they are values. The flag says that
the first token is a value. -/
def NamesComplete : Bool → List CString → Prop
  | _, [] => True
  | value, token :: tokens => (value = false → token ∈ untyped → Completes tokens) ∧
      NamesComplete (firstByte token == equals) tokens

/-- A statement may begin behind the token. -/
def Separates (token : CString) : Prop :=
  firstByte token = semicolon ∨ firstByte token = openBrace ∨ firstByte token = closeBrace

/-- What may stand directly behind a token: a value is a word, and no statement begins with
a delimiter. -/
structure Follows (before token : CString) : Prop where
  value : firstByte before = equals → isDelimiter (firstByte token) = false
  name : Separates before → firstByte token ≠ equals ∧ firstByte token ≠ openBrace ∧
    firstByte token ≠ semicolon

/-- With so many blocks open, none is closed that was not opened. -/
def Nested : Nat → List CString → Prop
  | _, [] => True
  | depth, token :: tokens =>
      if firstByte token = openBrace then Nested (depth + 1) tokens
      else if firstByte token = closeBrace then 0 < depth ∧ Nested (depth - 1) tokens
      else Nested depth tokens

/-- A sequence of tokens has none of what the checks miss. -/
structure Covered (tokens : List CString) : Prop where
  names : NamesComplete false tokens
  placed : ([semicolon] :: tokens).IsChain Follows
  nested : Nested 0 tokens

/-! ## Tokens and their first bytes -/

section Tokens

variable {token : CString}

theorem Undelimited.firstByte (word : Undelimited token) : isDelimiter (firstByte token) = false := by
  cases token with
  | nil => exact absurd rfl word.notEmpty
  | cons byte token => exact word.bytes byte List.mem_cons_self

theorem IsToken.undelimited (isToken : IsToken token) (plain : isDelimiter (firstByte token) = false) :
    Undelimited token := by
  cases isToken with
  | delimiter delimiter =>
      rw [firstByte_cons, delimiter] at plain
      cases plain
  | word word => exact word

theorem IsToken.eq_of_firstByte {byte : UInt8} (isToken : IsToken token)
    (delimiter : isDelimiter byte = true) (first : firstByte token = byte) : token = [byte] := by
  cases isToken with
  | delimiter _ =>
      rw [firstByte_cons] at first
      rw [first]
  | word word =>
      have plain := word.firstByte
      rw [first, delimiter] at plain
      cases plain

theorem Undelimited.ne {byte : UInt8} (word : Undelimited token) (delimiter : isDelimiter byte = true) :
    Rcfg.firstByte token ≠ byte := by
  intro same
  have plain := word.firstByte
  rw [same, delimiter] at plain
  cases plain

theorem Undelimited.ne_singleton {byte : UInt8} (word : Undelimited token)
    (delimiter : isDelimiter byte = true) : token ≠ [byte] := by
  rintro rfl
  exact word.ne delimiter rfl

theorem Undelimited.plain (word : Undelimited token) : Plain token where
  notEmpty := word.notEmpty
  notOpen := word.ne rfl
  notClose := word.ne rfl
  notEquals := word.ne rfl

/-- The grammar is what trees of words are printed to. -/
theorem Grammar.exists_flatten {tokens : List CString} (grammar : Grammar tokens) :
    ∃ config, Printable config ∧ flatten config = tokens := by
  induction grammar with
  | done => exact ⟨.null, trivial, rfl⟩
  | @assignment name value next wordName wordValue _ ih =>
      obtain ⟨config, printable, rfl⟩ := ih
      exact ⟨.assignment name value config, ⟨wordName.plain, wordValue.plain, printable⟩, rfl⟩
  | @block name body next wordName _ _ ihBody ihNext =>
      obtain ⟨block, printableBlock, rfl⟩ := ihBody
      obtain ⟨config, printable, rfl⟩ := ihNext
      exact ⟨.block name block config, ⟨wordName.plain, printableBlock, printable⟩, rfl⟩

/-- A sequence of statements is parsed to the tree that is printed to it. -/
theorem Grammar.parsed {tokens : List CString} (grammar : Grammar tokens) :
    ∃ config, recursiveparse tokens 0 tokens.length = .ok config ∧ flatten config = tokens := by
  obtain ⟨config, printable, rfl⟩ := grammar.exists_flatten
  exact ⟨config, recursiveparse_printed printable, rfl⟩

end Tokens

/-! ## Statements have none of it -/

section Covers

theorem not_separates_of_equals {before : CString} (sign : firstByte before = equals) :
    ¬ Separates before := by
  rintro (same | same | same) <;> rw [sign] at same <;> exact absurd same (by decide)

theorem follows_word {before token : CString} (word : Undelimited token) : Follows before token :=
  ⟨fun _ => word.firstByte, fun _ => ⟨word.ne rfl, word.ne rfl, word.ne rfl⟩⟩

theorem word_follows {before token : CString} (word : Undelimited before) : Follows before token := by
  refine ⟨fun sign => absurd sign (word.ne rfl), ?_⟩
  rintro (same | same | same)
  · exact absurd same (word.ne rfl)
  · exact absurd same (word.ne rfl)
  · exact absurd same (word.ne rfl)

theorem follows_close {before : CString} (separates : Separates before) :
    Follows before [closeBrace] :=
  ⟨fun sign => absurd separates (not_separates_of_equals sign), fun _ => by decide⟩

theorem Grammar.namesComplete {tokens : List CString} (grammar : Grammar tokens)
    {rest : List CString} (later : NamesComplete false rest) :
    NamesComplete false (tokens ++ rest) := by
  have other (token : CString) (typed : token ∉ untyped) (tokens : List CString) (value : Bool)
      (complete : NamesComplete (firstByte token == equals) tokens) :
      NamesComplete value (token :: tokens) := ⟨fun _ member => absurd member typed, complete⟩
  induction grammar generalizing rest with
  | done => exact later
  | @assignment name value next _ _ _ ih =>
      refine ⟨fun _ _ => Or.inr ⟨rfl, rfl⟩, other _ (by decide) _ _ ?_⟩
      exact ⟨(fun none => nomatch none), other _ (by decide) _ _ (ih later)⟩
  | @block name body next _ _ _ ihBody ihNext =>
      have inside : NamesComplete false (body ++ ([closeBrace] :: (next ++ rest))) :=
        ihBody (other _ (by decide) _ _ (ihNext later))
      rw [List.cons_append, List.cons_append, List.append_assoc]
      exact ⟨fun _ _ => Or.inl rfl, other _ (by decide) _ _ inside⟩

theorem Grammar.placed {tokens : List CString} (grammar : Grammar tokens) {rest : List CString}
    (later : ∀ before, Separates before → (before :: rest).IsChain Follows) {before : CString}
    (separates : Separates before) : (before :: (tokens ++ rest)).IsChain Follows := by
  induction grammar generalizing rest before with
  | done => exact later before separates
  | @assignment name value next wordName wordValue _ ih =>
      have rest := @ih _ later [semicolon] (Or.inl rfl)
      exact .cons_cons (follows_word wordName) (.cons_cons (word_follows wordName)
        (.cons_cons (follows_word wordValue) (.cons_cons (word_follows wordValue) rest)))
  | @block name body next wordName _ _ ihBody ihNext =>
      have inside : ([openBrace] :: (body ++ ([closeBrace] :: (next ++ rest)))).IsChain Follows := by
        refine ihBody (fun before separates => ?_) (Or.inr (Or.inl rfl))
        exact .cons_cons (follows_close separates) (ihNext later (Or.inr (Or.inr rfl)))
      rw [List.cons_append, List.cons_append, List.append_assoc]
      exact .cons_cons (follows_word wordName) (.cons_cons (word_follows wordName) inside)

theorem nested_other {token : CString} (notOpen : firstByte token ≠ openBrace)
    (notClose : firstByte token ≠ closeBrace) (depth : Nat) (tokens : List CString) :
    Nested depth (token :: tokens) ↔ Nested depth tokens := by
  rw [Nested, if_neg notOpen, if_neg notClose]

theorem nested_open (depth : Nat) (tokens : List CString) :
    Nested depth ([openBrace] :: tokens) ↔ Nested (depth + 1) tokens := by
  rw [Nested, if_pos (firstByte_cons _ _)]

theorem nested_close (depth : Nat) (tokens : List CString) :
    Nested (depth + 1) ([closeBrace] :: tokens) ↔ Nested depth tokens := by
  rw [Nested, if_neg (by decide), if_pos (firstByte_cons _ _), Nat.add_sub_cancel]
  exact and_iff_right (Nat.succ_pos depth)

theorem Grammar.nested {tokens : List CString} (grammar : Grammar tokens) {rest : List CString}
    {depth : Nat} (later : Nested depth rest) : Nested depth (tokens ++ rest) := by
  induction grammar generalizing rest depth with
  | done => exact later
  | @assignment name value next wordName wordValue _ ih =>
      simp only [List.cons_append]
      rw [nested_other (wordName.ne rfl) (wordName.ne rfl), nested_other (by decide) (by decide),
        nested_other (wordValue.ne rfl) (wordValue.ne rfl), nested_other (by decide) (by decide)]
      exact ih later
  | @block name body next wordName _ _ ihBody ihNext =>
      simp only [List.cons_append, List.append_assoc]
      rw [nested_other (wordName.ne rfl) (wordName.ne rfl), nested_open]
      apply ihBody
      rw [nested_close]
      exact ihNext later

theorem Grammar.covered {tokens : List CString} (grammar : Grammar tokens) : Covered tokens := by
  have names := @Grammar.namesComplete tokens grammar [] trivial
  have placed := @Grammar.placed tokens grammar [] (fun before _ => .singleton before) [semicolon]
    (Or.inl rfl)
  have nested := @Grammar.nested tokens grammar [] 0 trivial
  rw [List.append_nil] at names placed nested
  exact ⟨names, placed, nested⟩

end Covers

/-! ## What the checks see -/

section Checks

variable {token : CString} {tokens : List CString}

theorem checkRows_row {rows : List (CString × Datatype)} {row : CString × Datatype}
    (returns : checkRows token tokens rows = .ok ()) (member : row ∈ rows) :
    checkRow token tokens row = .ok () := by
  induction rows with
  | nil => cases member
  | cons first rows ih =>
      obtain ⟨_, here, later⟩ := bind_eq_ok.mp returns
      rcases List.mem_cons.mp member with rfl | member
      · exact here
      · exact ih later member

theorem checkRow_block (returns : checkRow token tokens (token, .block) = .ok ()) :
    ∃ next later, tokens = next :: later ∧ firstByte next = openBrace := by
  unfold checkRow at returns
  rw [if_neg (not_not.mpr rfl), if_pos rfl] at returns
  cases tokens with
  | nil => cases returns
  | cons next later =>
      dsimp only at returns
      split_ifs at returns with opens
      exact ⟨next, later, rfl, not_not.mp opens⟩

theorem checkRow_assignment {kind : Datatype} (assigns : kind ≠ .block)
    (returns : checkRow token tokens (token, kind) = .ok ()) :
    ∃ sign value last later, tokens = sign :: value :: last :: later ∧
      firstByte sign = equals ∧ firstByte last = semicolon := by
  unfold checkRow at returns
  rw [if_neg (not_not.mpr rfl), if_neg assigns] at returns
  cases tokens with
  | nil => cases returns
  | cons sign tokens =>
      cases tokens with
      | nil => cases returns
      | cons value tokens =>
          dsimp only at returns
          split_ifs at returns with signs
          obtain ⟨matched, _, returns⟩ := bind_eq_ok.mp returns
          split_ifs at returns
          cases tokens with
          | nil => cases returns
          | cons last later =>
              dsimp only at returns
              split_ifs at returns with ends
              exact ⟨sign, value, last, later, rfl, not_not.mp signs, not_not.mp ends⟩

theorem checkdatatype_rows (returns : checkdatatype (token :: tokens) = .ok ()) :
    checkRows token tokens datatype = .ok () := by
  cases tokens with
  | nil => exact returns
  | cons next tokens =>
      obtain ⟨_, rows, _⟩ := bind_eq_ok.mp returns
      exact rows

theorem checkdatatype_next (returns : checkdatatype (token :: tokens) = .ok ())
    (notEquals : firstByte token ≠ equals) : checkdatatype tokens = .ok () := by
  cases tokens with
  | nil => rfl
  | cons next tokens =>
      obtain ⟨_, _, later⟩ := bind_eq_ok.mp returns
      rwa [if_neg notEquals] at later

/-- The token behind a `=` is left out. -/
theorem checkdatatype_value {value : CString}
    (returns : checkdatatype ([equals] :: value :: tokens) = .ok ()) :
    checkdatatype tokens = .ok () := by
  obtain ⟨_, _, later⟩ := bind_eq_ok.mp returns
  rwa [if_pos (firstByte_cons _ _)] at later

theorem keyword_cases : ∀ keyword ∈ keywords, keyword ∈ untyped ∨
    isDelimiter (firstByte keyword) = true ∨ (keyword, .block) ∈ datatype ∨
    (keyword, .string) ∈ datatype ∨ (keyword, .number) ∈ datatype := by
  decide

/-- A name that the checks have let through, and that is used as one if they do not look
at what follows, begins a statement. -/
theorem completes_of_checked (known : token ∈ keywords) (word : Undelimited token)
    (typed : checkdatatype (token :: tokens) = .ok ())
    (names : token ∈ untyped → Completes tokens) : Completes tokens := by
  have rows := checkdatatype_rows typed
  have assignment (kind : Datatype) (assigns : kind ≠ .block) (member : (token, kind) ∈ datatype) :
      Completes tokens := by
    obtain ⟨sign, value, last, later, rfl, signs, ends⟩ :=
      checkRow_assignment assigns (checkRows_row rows member)
    exact Or.inr ⟨signs, ends⟩
  rcases keyword_cases token known with free | delimiter | block | string | number
  · exact names free
  · rw [word.firstByte] at delimiter
    cases delimiter
  · obtain ⟨next, later, rfl, opens⟩ := checkRow_block (checkRows_row rows block)
    exact Or.inl opens
  · exact assignment .string (by decide) string
  · exact assignment .number (by decide) number

end Checks

/-! ## Statements from what is covered -/

/-- The rest of a configuration inside so many blocks: statements, the end of the block,
the statements behind it, and so on. -/
inductive Opened : Nat → List CString → Prop
  | outside {tokens : List CString} : Grammar tokens → Opened 0 tokens
  | inside {depth : Nat} {body rest : List CString} :
      Grammar body → Opened depth rest → Opened (depth + 1) (body ++ [closeBrace] :: rest)

section Opened

variable {depth : Nat} {tokens : List CString} {name : CString}

theorem Opened.assignment {value : CString} (opened : Opened depth tokens)
    (wordName : Undelimited name) (wordValue : Undelimited value) :
    Opened depth (name :: [equals] :: value :: [semicolon] :: tokens) := by
  cases opened with
  | outside grammar => exact .outside (.assignment wordName wordValue grammar)
  | inside body rest => exact .inside (.assignment wordName wordValue body) rest

theorem Opened.block (opened : Opened (depth + 1) tokens) (wordName : Undelimited name) :
    Opened depth (name :: [openBrace] :: tokens) := by
  cases opened with
  | @inside _ body rest grammarBody opened =>
      cases opened with
      | outside next => exact .outside (.block wordName grammarBody next)
      | @inside depth next rest grammarNext opened =>
          have grouped := Opened.inside (.block wordName grammarBody grammarNext) opened
          rw [List.cons_append, List.cons_append, List.append_assoc, List.cons_append] at grouped
          exact grouped

/-- What holds of the rest of a sequence behind a token where a statement may begin. -/
structure Rest (depth : Nat) (before : CString) (tokens : List CString) : Prop where
  separates : Separates before
  isToken : ∀ token ∈ tokens, IsToken token
  known : checktokenlist (some before) tokens = 0
  typed : checkdatatype tokens = .ok ()
  names : NamesComplete false tokens
  placed : (before :: tokens).IsChain Follows
  nested : Nested depth tokens
  balanced : tokens.count [closeBrace] = tokens.count [openBrace] + depth

theorem checktokenlist_next {before : Option CString} {token : CString}
    (known : checktokenlist before (token :: tokens) = 0) :
    checktokenlist (some token) tokens = 0 ∧
      (token ∈ keywords ∨ before.any (fun before => firstByte before == equals) = true) := by
  rw [checktokenlist] at known
  split_ifs at known with unknown
  refine ⟨known, ?_⟩
  rw [not_and_or, Bool.not_eq_false, Bool.not_eq_false, List.contains_iff_mem] at unknown
  exact unknown

/-- The end of a block. -/
theorem Rest.close {before : CString} (rest : Rest depth before ([closeBrace] :: tokens)) :
    ∃ outer, depth = outer + 1 ∧ Rest outer [closeBrace] tokens := by
  have nested := rest.nested
  rw [Nested, if_neg (by decide), if_pos (firstByte_cons _ _)] at nested
  obtain ⟨outer, rfl⟩ := Nat.exists_eq_add_one_of_ne_zero (Nat.pos_iff_ne_zero.mp nested.1)
  have balanced := rest.balanced
  rw [List.count_cons_self, List.count_cons_of_ne (by decide)] at balanced
  exact ⟨outer, rfl, {
    separates := Or.inr (Or.inr rfl)
    isToken := fun token member => rest.isToken token (List.mem_cons_of_mem _ member)
    known := (checktokenlist_next rest.known).1
    typed := checkdatatype_next rest.typed (by decide)
    names := rest.names.2
    placed := (List.isChain_cons_cons.mp rest.placed).2
    nested := nested.2
    balanced := by omega }⟩

/-- A name is followed by what makes a statement of it. -/
theorem Rest.completes {before : CString} (rest : Rest depth before (name :: tokens))
    (word : Undelimited name) : Completes tokens := by
  have notEquals : firstByte before ≠ equals := fun sign =>
    not_separates_of_equals sign rest.separates
  have known := (checktokenlist_next rest.known).2
  rw [Option.any_some, beq_false_of_ne notEquals] at known
  exact completes_of_checked (known.resolve_right Bool.false_ne_true) word rest.typed
    (rest.names.1 rfl)

theorem Rest.block {before : CString} (rest : Rest depth before (name :: [openBrace] :: tokens))
    (word : Undelimited name) : Rest (depth + 1) [openBrace] tokens where
  separates := Or.inr (Or.inl rfl)
  isToken token member :=
    rest.isToken token (List.mem_cons_of_mem _ (List.mem_cons_of_mem _ member))
  known := (checktokenlist_next (checktokenlist_next rest.known).1).1
  typed := checkdatatype_next (checkdatatype_next rest.typed (word.ne rfl)) (by decide)
  names := rest.names.2.2
  placed := (List.isChain_cons_cons.mp (List.isChain_cons_cons.mp rest.placed).2).2
  nested := by
    have nested := rest.nested
    rwa [nested_other (word.ne rfl) (word.ne rfl), nested_open] at nested
  balanced := by
    have balanced := rest.balanced
    rw [List.count_cons_of_ne (word.ne_singleton rfl), List.count_cons_of_ne (by decide),
      List.count_cons_of_ne (word.ne_singleton rfl), List.count_cons_self] at balanced
    omega

theorem Rest.assignment {before value : CString}
    (rest : Rest depth before (name :: [equals] :: value :: [semicolon] :: tokens))
    (wordName : Undelimited name) (wordValue : Undelimited value) :
    Rest depth [semicolon] tokens where
  separates := Or.inl rfl
  isToken token member := rest.isToken token (List.mem_cons_of_mem _ (List.mem_cons_of_mem _
    (List.mem_cons_of_mem _ (List.mem_cons_of_mem _ member))))
  known := by
    have sign := (checktokenlist_next rest.known).1
    have last := (checktokenlist_next (checktokenlist_next sign).1).1
    exact (checktokenlist_next last).1
  typed := checkdatatype_next (checkdatatype_value (checkdatatype_next rest.typed
    (wordName.ne rfl))) (by decide)
  names := rest.names.2.2.2.2
  placed := by
    have sign := (List.isChain_cons_cons.mp rest.placed).2
    have value := (List.isChain_cons_cons.mp sign).2
    have last := (List.isChain_cons_cons.mp value).2
    exact (List.isChain_cons_cons.mp last).2
  nested := by
    have nested := rest.nested
    rwa [nested_other (wordName.ne rfl) (wordName.ne rfl), nested_other (by decide) (by decide),
      nested_other (wordValue.ne rfl) (wordValue.ne rfl),
      nested_other (by decide) (by decide)] at nested
  balanced := by
    have balanced := rest.balanced
    have same (byte : UInt8) (delimiter : isDelimiter byte = true) (sign : byte ≠ equals)
        (last : byte ≠ semicolon) :
        (name :: [equals] :: value :: [semicolon] :: tokens).count [byte] = tokens.count [byte] := by
      rw [List.count_cons_of_ne (wordName.ne_singleton delimiter), List.count_cons_of_ne,
        List.count_cons_of_ne (wordValue.ne_singleton delimiter), List.count_cons_of_ne]
      · exact fun equal => last (List.singleton_inj.mp equal).symm
      · exact fun equal => sign (List.singleton_inj.mp equal).symm
    rwa [same closeBrace rfl (by decide) (by decide), same openBrace rfl (by decide) (by decide)]
      at balanced

/-- Statement by statement, what is left gets shorter. -/
theorem Rest.opened {before : CString} (rest : Rest depth before tokens) : Opened depth tokens := by
  induction length : tokens.length using Nat.strong_induction_on
    generalizing depth before tokens with
  | _ length ih =>
      subst length
      cases tokens with
      | nil =>
          have none := rest.balanced
          rw [List.count_nil, List.count_nil, Nat.zero_add] at none
          rw [← none]
          exact .outside .done
      | cons token tokens =>
          have follows := (List.isChain_cons_cons.mp rest.placed).1.name rest.separates
          cases rest.isToken token List.mem_cons_self with
          | @delimiter byte delimiter =>
              rw [firstByte_cons] at follows
              have closes : byte = closeBrace := by
                have cases' := isDelimiter_cases delimiter
                tauto
              subst closes
              obtain ⟨outer, rfl, later⟩ := rest.close
              exact .inside .done (ih _ (Nat.lt_succ_self _) later rfl)
          | word word =>
              have completes := rest.completes word
              cases tokens with
              | nil => cases completes
              | cons sign tokens =>
                  have isSign := rest.isToken sign (List.mem_cons_of_mem _ List.mem_cons_self)
                  rcases completes with opens | ⟨signs, ends⟩
                  · rw [isSign.eq_of_firstByte rfl opens] at rest ⊢
                    exact (ih _ (by simp only [List.length_cons]; omega) (rest.block word) rfl).block word
                  · rw [isSign.eq_of_firstByte rfl signs] at rest ⊢
                    match tokens with
                    | [] => cases ends
                    | [_] => cases ends
                    | value :: last :: tokens =>
                        have inTokens (other : CString) (member : other ∈ [value, last]) :
                            IsToken other := by
                          apply rest.isToken other
                          simp only [List.mem_cons, List.not_mem_nil, or_false] at member ⊢
                          tauto
                        have placed := (List.isChain_cons_cons.mp rest.placed).2
                        have isValue := (List.isChain_cons_cons.mp placed).2
                        have plain := (List.isChain_cons_cons.mp isValue).1.value rfl
                        have wordValue := (inTokens value (by simp)).undelimited plain
                        rw [(inTokens last (by simp)).eq_of_firstByte rfl ends] at rest ⊢
                        have later := rest.assignment word wordValue
                        exact (ih _ (by simp only [List.length_cons]; omega) later rfl).assignment
                          word wordValue

end Opened

section Accepted

variable {tokens : List CString}

theorem validatetokens_accepts (accepted : validatetokens tokens = .ok 0) :
    countbraces tokens = 0 ∧ checktokenlist none tokens = 0 ∧ checkdatatype tokens = .ok () := by
  unfold validatetokens at accepted
  split_ifs at accepted with braces known
  · cases accepted
  · cases accepted
  · obtain ⟨_, typed, _⟩ := bind_eq_ok.mp accepted
    exact ⟨not_not.mp braces, not_not.mp known, typed⟩

theorem grammar_of_covered (isToken : ∀ token ∈ tokens, IsToken token)
    (accepted : validatetokens tokens = .ok 0) (covered : Covered tokens) : Grammar tokens := by
  obtain ⟨braces, known, typed⟩ := validatetokens_accepts accepted
  have start : Rest 0 [semicolon] tokens := {
    separates := Or.inl rfl
    isToken := isToken
    known := by
      cases tokens with
      | nil => rfl
      | cons token tokens => exact known
    typed := typed
    names := covered.names
    placed := covered.placed
    nested := covered.nested
    balanced := by
      unfold countbraces at braces
      dsimp only at braces
      split_ifs at braces
      omega }
  cases start.opened with
  | outside grammar => exact grammar

end Accepted

/-- For every text whose tokens the checks accept: the tokens are statements, and the tree
that is parsed has exactly these tokens, if and only if there is nothing among them that
the checks miss. -/
theorem accepted_grammar_iff (source : List UInt8) (tokens : List CString)
    (scanned : scanTokens source = some tokens) (accepted : validatetokens tokens = .ok 0) :
    (Grammar tokens ∧ ∃ config, recursiveparse tokens 0 tokens.length = .ok config ∧
      flatten config = tokens) ↔ Covered tokens := by
  constructor
  · rintro ⟨grammar, _⟩
    exact grammar.covered
  · intro covered
    have grammar := grammar_of_covered (scanTokens_isToken scanned) accepted covered
    exact ⟨grammar, grammar.parsed⟩

/-- A block with an assignment in it. -/
def deviceTokens : List CString :=
  [text "device", [openBrace], text "slot", [equals], text "1", [semicolon], [closeBrace]]

theorem accepted_grammar_iff_deviceTokens : Covered deviceTokens := by
  have undelimited (name : String) (notEmpty : text name ≠ [])
      (bytes : ∀ byte ∈ text name, isDelimiter byte = false) : Undelimited (text name) :=
    ⟨notEmpty, bytes⟩
  have grammar : Grammar deviceTokens :=
    .block (undelimited "device" (by decide) (by decide +kernel))
      (.assignment (undelimited "slot" (by decide) (by decide +kernel))
        (undelimited "1" (by decide) (by decide +kernel)) .done) .done
  exact (accepted_grammar_iff deviceTokens.flatten deviceTokens (by decide) (by decide)).mp
    ⟨grammar, grammar.parsed⟩

/-- A text with the tokens is accepted, but they are not those of the tree. -/
def Missed (tokens : List CString) : Prop :=
  scanTokens (tokens.flatMap fun token => token ++ [space]) = some tokens ∧
  validatetokens tokens = .ok 0 ∧
  ¬ ∃ config, recursiveparse tokens 0 tokens.length = .ok config ∧ flatten config = tokens

/-- A rule without a value. -/
def ruleTokens : List CString :=
  [text "acl", [openBrace], text "reject", text "accept", [equals], text "a", [semicolon],
    [closeBrace]]

/-- A block that is closed before it is opened. -/
def crossedTokens : List CString := [[closeBrace], text "acl", [openBrace]]

/-- Tokens of both are left out of the tree. -/
theorem missedTokens_accepted : Missed ruleTokens ∧ Missed crossedTokens := by
  refine ⟨⟨by decide, by decide, ?_⟩, by decide, by decide, ?_⟩
  · rintro ⟨config, parsed, same⟩
    cases parsed
    exact absurd same (by decide)
  · rintro ⟨config, parsed, same⟩
    cases parsed
    exact absurd same (by decide)

end Qaoed.Rcfg
