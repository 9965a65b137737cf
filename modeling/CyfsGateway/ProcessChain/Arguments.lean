import CyfsGateway.Core.Parsing
import CyfsGateway.ProcessChain.Syntax

/-!
# Command arguments

`BlockParser::parse_arg` and what it is made of: literals, variables, list and
map literals, command substitutions and unquoted words with dynamic parts.

Which characters beyond ASCII are letters or digits is a parameter.  Words that
`nom` recognises as repeated runs of character classes are read in one go.  A
nested argument is read from a part of the text that is shorter, so the length
of the text bounds the nesting.
-/

namespace CyfsGateway.ProcessChain

open Parsing Checks

/-- `char::is_alphabetic` and `char::is_numeric`, which on ASCII are the letters
and the digits. -/
structure CharClasses where
  isAlphabetic : Char → Bool
  isNumeric : Char → Bool
  alphabetic_ascii : ∀ c : Char, c.toNat < 128 → isAlphabetic c = c.isAlpha
  numeric_ascii : ∀ c : Char, c.toNat < 128 → isNumeric c = c.isDigit

def CharClasses.isAlphanumeric (classes : CharClasses) (c : Char) : Bool :=
  classes.isAlphabetic c || classes.isNumeric c

/-- Letters and digits of ASCII only. -/
def CharClasses.ascii : CharClasses where
  isAlphabetic := Char.isAlpha
  isNumeric := Char.isDigit
  alphabetic_ascii _ _ := rfl
  numeric_ascii _ _ := rfl

/-- `char::is_whitespace`: the characters with the property White_Space. -/
def isWhitespace (c : Char) : Bool :=
  let code := c.toNat
  (9 ≤ code && code ≤ 13) || (0x2000 ≤ code && code ≤ 0x200A) ||
    [0x20, 0x85, 0xA0, 0x1680, 0x2028, 0x2029, 0x202F, 0x205F, 0x3000].contains code

def trimStart (text : Text) : Text := text.dropWhile isWhitespace

def trimEnd (text : Text) : Text := (text.reverse.dropWhile isWhitespace).reverse

def trim (text : Text) : Text := trimEnd (trimStart text)

variable {Executor : Type}

def decimalValue (digits : Text) : Nat :=
  digits.foldl (fun value digit => value * 10 + (digit.toNat - '0'.toNat)) 0

/-- `parse::<i64>` of a sign and digits. -/
def parseI64 (negative : Bool) (digits : Text) : Option Int :=
  if negative then
    if decimalValue digits ≤ 2 ^ 63 then some (-(decimalValue digits : Int)) else none
  else if decimalValue digits < 2 ^ 63 then some (decimalValue digits) else none

def parseTypedNumberLiteral (input : Text) : Option CollectionValue :=
  let negative := input.head? = some '-'
  let rest := if negative then input.tail else input
  if rest.isEmpty then none
  else if !rest.contains '.' then
    if rest.all Char.isDigit then
      (parseI64 negative rest).map fun value => .number (.int value)
    else none
  else
    match rest.splitOn '.' with
    | [intPart, fracPart] =>
      if intPart.isEmpty || fracPart.isEmpty then none
      else if !intPart.all Char.isDigit || !fracPart.all Char.isDigit then none
      else some (.number (.float input))
    | _ => none

def parseTypedLiteral (input : Text) : Option CollectionValue :=
  if input = "true".toList then some (.bool true)
  else if input = "false".toList then some (.bool false)
  else if input = "null".toList then some .null
  else parseTypedNumberLiteral input

/-- The characters that may follow a backslash, and what each stands for. -/
def escapes (others : List (Char × Char)) : Parser Text :=
  alt ((([('\\', '\\'), ('"', '"'), ('n', '\n'), ('t', '\t'), ('r', '\r'), (' ', ' ')] ++
    others).map fun escape => map (tag [escape.1]) fun _ => [escape.2]))

def parseSingleQuoted : Parser Text :=
  delimited '\'' (map (opt (takeWhile1 (· != '\''))) fun part => part.getD []) '\''

def isWordRest (others : List Char) (c : Char) : Bool := c.isAlphanum || others.contains c

def isWordFirst (c : Char) : Bool := c.isAlpha || c = '_'

def parseMapLiteralKey (input : Text) : Except ParseError (Text × Text) :=
  alt [delimited '"' (map (opt (escapedTransform (takeWhile1 fun c => c != '\\' && c != '"') '\\'
        (escapes []))) fun part => part.getD []) '"',
    parseSingleQuoted,
    word isWordFirst (isWordRest ['_', '-', '.'])]
    (space0 input)

/-- How deep a scan is inside brackets, parentheses and a quoted index. -/
structure VarScan where
  parens : Nat
  brackets : Nat
  quote : Option Char
  escaped : Bool
  deriving DecidableEq

def VarScan.start : VarScan := ⟨0, 0, none, false⟩

variable (scan : VarScan)

def VarScan.outside : Bool := scan.parens = 0 && scan.brackets = 0

def VarScan.closed : Bool := scan.outside && scan.quote.isNone

def VarScan.quoted (quote ch : Char) : VarScan :=
  if scan.escaped then { scan with escaped := false }
  else if ch = '\\' then { scan with escaped := true }
  else if ch = quote then { scan with quote := none }
  else scan

def VarScan.bracketed (ch : Char) : VarScan :=
  if ch = '"' || ch = '\'' then { scan with quote := some ch }
  else if ch = '[' then { scan with brackets := scan.brackets + 1 }
  else if ch = ']' then { scan with brackets := scan.brackets - 1 }
  else scan

/-- A character outside of brackets; the closing parenthesis has its partner. -/
def VarScan.plain (ch : Char) : VarScan :=
  if ch = '[' then { scan with brackets := scan.brackets + 1 }
  else if ch = '(' then { scan with parens := scan.parens + 1 }
  else if ch = ')' then { scan with parens := scan.parens - 1 }
  else scan

/-- The loop of `parse_var_dollar`: the name, what is behind it and the state at
its end. -/
def scanVarDollar : VarScan → Text → Text × Text × VarScan
  | scan, [] => ([], [], scan)
  | scan, ch :: rest =>
    match scan.quote with
    | some quote =>
      let (parsed, behind, last) := scanVarDollar (scan.quoted quote ch) rest
      (ch :: parsed, behind, last)
    | none =>
      if scan.outside && (isWhitespace ch || [';', ')', ',', ']', '}'].contains ch) then
        ([], ch :: rest, scan)
      else
        let next := if 0 < scan.brackets then scan.bracketed ch else scan.plain ch
        let (parsed, behind, last) := scanVarDollar next rest
        (ch :: parsed, behind, last)

/-- The form a name must have when it has no dynamic part and no index. -/
def isPlainVarName (classes : CharClasses) : Text → Bool
  | [] => false
  | first :: rest =>
    (classes.isAlphabetic first || first = '_') &&
      rest.all fun c => classes.isAlphanumeric c || ['_', '.', '-', '?'].contains c

def parseVarDollar (classes : CharClasses) (input : Text) :
    Except ParseError (Text × CommandArg Executor) := do
  let (rest, _) ← char '$' input
  let (parsed, behind, scan) := scanVarDollar .start rest
  if parsed.isEmpty then .error .error
  else if !decide (".(".toList <:+: parsed) && !parsed.contains '[' &&
      !isPlainVarName classes parsed then
    .error .error
  else if !scan.closed then .error .error
  else .ok (behind, .var parsed)

/-- The loop of `parse_var_braced`; a closing parenthesis without its partner is
an error. -/
def scanVarBraced : VarScan → Text → Except ParseError (Text × Text × VarScan)
  | scan, [] => .ok ([], [], scan)
  | scan, ch :: rest =>
    match scan.quote with
    | some quote =>
      (scanVarBraced (scan.quoted quote ch) rest).map fun found => (ch :: found.1, found.2)
    | none =>
      if ch = '}' && scan.outside then .ok ([], ch :: rest, scan)
      else if 0 < scan.brackets then
        (scanVarBraced (scan.bracketed ch) rest).map fun found => (ch :: found.1, found.2)
      else if ch = ')' && scan.parens = 0 then .error .error
      else
        (scanVarBraced (scan.plain ch) rest).map fun found => (ch :: found.1, found.2)

def parseVarBraced (input : Text) : Except ParseError (Text × CommandArg Executor) := do
  let (rest, _) ← tag ['$', '{'] input
  let (parsed, behind, scan) ← scanVarBraced .start rest
  match behind with
  | '}' :: behind =>
    if parsed.isEmpty || !scan.closed then .error .error else .ok (behind, .var parsed)
  | _ => .error .error

/-! ## Quoted and unquoted literals -/

/-- Literals without text are dropped from an interpolated string. -/
def hasText : CommandArg Executor → Bool
  | .literal text => !text.isEmpty
  | .stringLiteral text => !text.isEmpty
  | .typedLiteral text _ => !text.isEmpty
  | _ => true

/-- `$(append …)` of the parts. -/
def appendSubstitution (parts : List (CommandArg Executor)) : CommandArg Executor :=
  .commandSubstitution (.command (.mk "append".toList (.literal "append".toList :: parts) none))

def joinParts (parts : List (CommandArg Executor)) : CommandArg Executor :=
  match parts.filter hasText with
  | [] => .stringLiteral []
  | [part] => part
  | parts => appendSubstitution parts

def parseDoubleQuoted : Parser (CommandArg Executor) :=
  delimited '"' (map (many0 (alt [parseVarBraced, map (escapedTransform
              (takeWhile1Streaming fun c => c != '\\' && c != '$' && c != '"') '\\'
              (escapes [('$', '$')]))
            CommandArg.stringLiteral]))
      joinParts)
    '"'

def parseUnquoted : Parser (CommandArg Executor) :=
  map (word (fun c => c.isAlphanum || c = '_') (isWordRest ['_', '-', '.', ':', '/'])) fun text =>
      match parseTypedLiteral text with
      | some value => .typedLiteral text value
      | none => .literal text

def parseLiteral : Parser (CommandArg Executor) :=
  complete (alt [parseDoubleQuoted, map parseSingleQuoted CommandArg.stringLiteral, parseUnquoted])

/-- `-o` and `--option`. -/
def parseOption : Parser (CommandArg Executor) := fun input =>
  let long := do
    let (rest, _) ← tag "--".toList input
    let (behind, name) ← word isWordFirst (isWordRest ['_', '-']) rest
    return (behind, CommandArg.literal ("--".toList ++ name))
  let short := do
    let (rest, _) ← tag "-".toList input
    let (behind, name) ← word isWordFirst (isWordRest ['_']) rest
    return (behind, CommandArg.literal ("-".toList ++ name))
  alt [fun _ => long, fun _ => short] input

/-! ## Nested arguments

`parseArg` stands for the parser of the nested arguments. -/

section Nested

variable (classes : CharClasses) (parseArg : Parser (CommandArg Executor))

/-- The loop of `parse_list_literal` behind the opening bracket. -/
def parseListItems : Nat → Parser (List (CommandArg Executor))
  | 0, _ => .error .failure
  | rounds + 1, input =>
    match space0 input with
    | ']' :: behind => .ok (behind, [])
    | rest => do
        let (next, value) ← parseArg rest
        match space0 next with
        | ',' :: next =>
          let (behind, items) ← parseListItems rounds next
          return (behind, value :: items)
        | ']' :: behind => return (behind, [value])
        | _ => .error .error

def parseListLiteral (input : Text) : Except ParseError (Text × CommandArg Executor) := do
  let (rest, _) ← char '[' (space0 input)
  let (behind, items) ← parseListItems parseArg (rest.length + 1) rest
  return (behind, .listLiteral items)

/-- The loop of `parse_map_literal` behind the opening brace. -/
def parseMapEntries : Nat → Parser (List (Text × CommandArg Executor))
  | 0, _ => .error .failure
  | rounds + 1, input =>
    match space0 input with
    | '}' :: behind => .ok (behind, [])
    | rest => do
        let (next, key) ← parseMapLiteralKey rest
        let (next, _) ← char ':' (space0 next)
        let (next, value) ← parseArg next
        match space0 next with
        | ',' :: next =>
          let (behind, entries) ← parseMapEntries rounds next
          return (behind, (key, value) :: entries)
        | '}' :: behind => return (behind, [(key, value)])
        | _ => .error .error

def parseMapLiteral (input : Text) : Except ParseError (Text × CommandArg Executor) := do
  let (rest, _) ← char '{' (space0 input)
  let (behind, entries) ← parseMapEntries parseArg (rest.length + 1) rest
  return (behind, .mapLiteral entries)

def isCommandChar (c : Char) : Bool := classes.isAlphanumeric c || ['-', '_', '.', '/'].contains c

/-- The name of a command.  The name is read as if more input could come, so a
name at the very end of the input is not accepted. -/
def parseCommandLiteral : Parser Text := complete (takeWhile1Streaming (isCommandChar classes))

/-- A command with its arguments; the name is the first of them. -/
def parseCommand (input : Text) : Except ParseError (Text × Expression Executor) := do
  let (rest, name) ← parseCommandLiteral classes (space0 input)
  let (behind, args) ← separatedList0 space1 (fun input => parseArg (space0 input)) rest
  if name.head? = some '-' then .error .error
  else .ok (behind, .command (.mk name (.literal name :: args) none))

/-- The text up to the parenthesis that closes the `depth` open ones, and what
is behind it. -/
def closingParen : Nat → Text → Option (Text × Text)
  | _, [] => none
  | depth, c :: rest =>
    if c = ')' && depth = 1 then some ([], rest)
    else
      let depth := if c = '(' then depth + 1 else if c = ')' then depth - 1 else depth
      (closingParen depth rest).map fun found => (c :: found.1, found.2)

def parseCommandSubst (input : Text) : Except ParseError (Text × CommandArg Executor) := do
  let (rest, _) ← tag "$(".toList input
  match closingParen 1 rest with
  | none => .error .error
  | some (content, remaining) => do
      let (behind, expression) ← parseCommand classes parseArg (trim content)
      if !(trim behind).isEmpty then .error .failure
      else .ok (remaining, .commandSubstitution expression)

/-- The loop of `parse_interpolated_unquoted`: the parts, and the text behind
them.  `literal` is the text read since the last dynamic part. -/
def interpolatedParts : Nat → Text → List (CommandArg Executor) → Text →
    Except ParseError (Text × List (CommandArg Executor) × Text)
  | 0, _, _, _ => .error .failure
  | _ + 1, literal, parts, [] => .ok (literal, parts, [])
  | rounds + 1, literal, parts, ch :: rest =>
    if isWhitespace ch || [';', ',', ']', '}'].contains ch then
      .ok (literal, parts, ch :: rest)
    else if ch = '(' && literal.getLast? = some '.' then
      match closingParen 1 rest with
      | none => .error .error
      | some (inner, behind) => do
          let (innerRest, innerArg) ← parseArg (trim inner)
          if !(trim innerRest).isEmpty then .error .error
          else
            interpolatedParts rounds [] (parts ++ [.stringLiteral literal, innerArg]) behind
    else interpolatedParts rounds (literal ++ [ch]) parts rest

def joinWords : List (CommandArg Executor) → CommandArg Executor
  | [part] => part
  | parts => appendSubstitution parts

/-- An unquoted word with dynamic parts, such as `a.($b).($c)`; a word without
them is left to the other parsers. -/
def parseInterpolatedUnquoted (input : Text) : Except ParseError (Text × CommandArg Executor) := do
  let (literal, parts, behind) ← interpolatedParts parseArg (input.length + 1) [] [] input
  if parts.isEmpty then .error .error
  else
    .ok (behind, joinWords (if literal.isEmpty then parts else parts ++ [.stringLiteral literal]))

end Nested

def parseArgWithin (classes : CharClasses) : Nat → Parser (CommandArg Executor)
  | 0, _ => .error .failure
  | depth + 1, input =>
    alt [parseCommandSubst classes (parseArgWithin classes depth), parseVarBraced,
      parseVarDollar classes,
      parseMapLiteral (parseArgWithin classes depth),
      parseListLiteral (parseArgWithin classes depth),
      parseInterpolatedUnquoted (parseArgWithin classes depth),
      parseLiteral,
      parseOption]
      (space0 input)

def parseArg (classes : CharClasses) (input : Text) :
    Except ParseError (Text × CommandArg Executor) :=
  parseArgWithin classes (input.length + 1) input

/-! ## Arguments that are not collection literals -/

/-- Not a list or map literal. -/
def Atomic : CommandArg Executor → Prop
  | .listLiteral _ => False
  | .mapLiteral _ => False
  | _ => True

theorem atomic_joinParts (hparts : ∀ part ∈ parts, Atomic part) : Atomic (joinParts parts) := by
  rw [joinParts]
  split
  · trivial
  · next part hfilter =>
    have hmem : part ∈ parts.filter hasText := by rw [hfilter]; exact .head _
    exact hparts part (List.mem_of_mem_filter hmem)
  · trivial

theorem returns_parseVarBraced :
    Returns (parseVarBraced : Parser (CommandArg Executor)) Atomic := by
  intro input
  refine yields_then fun opened _ => yields_then fun found _ => ?_
  intro parsed hparse
  simp only at hparse
  split at hparse
  · split at hparse
    · cases hparse
    · cases hparse
      trivial
  · cases hparse

theorem returns_parseVarDollar (classes : CharClasses) :
    Returns (parseVarDollar classes : Parser (CommandArg Executor)) Atomic := by
  intro input
  refine yields_then fun opened _ => ?_
  refine yields_ite (fun _ => yields_throw) fun _ =>
    yields_ite (fun _ => yields_throw) fun _ =>
    yields_ite (fun _ => yields_throw) fun _ => yields_pure trivial

theorem returns_parseLiteral : Returns (parseLiteral : Parser (CommandArg Executor)) Atomic := by
  refine returns_complete (returns_alt ?_)
  simp only [List.mem_cons, List.not_mem_nil, or_false, forall_eq_or_imp, forall_eq]
  refine ⟨returns_delimited (returns_map ?_), returns_map fun _ _ _ => trivial,
    returns_map fun _ _ _ => ?_⟩
  · intro input parsed hparse
    refine atomic_joinParts (returns_manyFrom (returns_alt ?_) _ input parsed hparse)
    simp only [List.mem_cons, List.not_mem_nil, or_false, forall_eq_or_imp, forall_eq]
    exact ⟨returns_parseVarBraced, returns_map fun _ _ _ => trivial⟩
  · dsimp only
    split <;> trivial

theorem returns_parseOption : Returns (parseOption : Parser (CommandArg Executor)) Atomic := by
  intro input
  refine returns_alt ?_ input
  simp only [List.mem_cons, List.not_mem_nil, or_false, forall_eq_or_imp, forall_eq]
  exact ⟨fun _ => yields_then fun _ _ => yields_then fun _ _ => yields_pure trivial,
    fun _ => yields_then fun _ _ => yields_then fun _ _ => yields_pure trivial⟩

theorem returns_parseCommandSubst (classes : CharClasses)
    (parseArg : Parser (CommandArg Executor)) :
    Returns (parseCommandSubst classes parseArg) Atomic := by
  intro input
  refine yields_then fun opened _ => ?_
  intro parsed hparse
  simp only at hparse
  split at hparse
  · cases hparse
  obtain ⟨found, _, hlast⟩ := then_ok_iff.mp hparse
  rw [rejectIf_ok_iff] at hlast
  cases hlast.2
  trivial

/-- Dynamic parts come with the text before them. -/
theorem interpolatedParts_length (parseArg : Parser (CommandArg Executor)) (rounds : Nat) :
    ∀ (literal : Text) (parts : List (CommandArg Executor)) (input : Text)
      (found : Text × List (CommandArg Executor) × Text), parts.length ≠ 1 →
      interpolatedParts parseArg rounds literal parts input = .ok found →
      found.2.1.length ≠ 1 := by
  induction rounds with
  | zero => intro literal parts input found _ hfound; cases hfound
  | succ rounds ih =>
    intro literal parts input found hparts hfound
    cases input with
    | nil => cases hfound; exact hparts
    | cons ch rest =>
      rw [interpolatedParts] at hfound
      split at hfound
      · cases hfound; exact hparts
      split at hfound
      · split at hfound
        · cases hfound
        · obtain ⟨inner, _, hlast⟩ := then_ok_iff.mp hfound
          rw [rejectIf_ok_iff] at hlast
          refine ih _ _ _ found ?_ hlast.2
          simp
      · exact ih _ _ _ found hparts hfound

theorem atomic_joinWords (hparts : parts.length ≠ 1) : Atomic (joinWords parts) := by
  rw [joinWords.eq_def]
  split
  · exact absurd rfl hparts
  · trivial

theorem returns_parseInterpolatedUnquoted (parseArg : Parser (CommandArg Executor)) :
    Returns (parseInterpolatedUnquoted parseArg) Atomic := by
  intro input
  refine yields_then fun found hfound => ?_
  have hlen := interpolatedParts_length parseArg _ [] [] input found (by simp) hfound
  obtain ⟨literal, parts, behind⟩ := found
  refine yields_ite (fun _ => yields_throw) fun hparts => ?_
  refine yields_pure (atomic_joinWords ?_)
  have hnonempty : 0 < parts.length :=
    List.length_pos_iff.mpr fun hempty => hparts (by simp [hempty])
  split
  · exact hlen
  · rw [List.length_append, List.length_singleton]
    omega

theorem dropWhile_dropWhile {inner outer} (himp : ∀ c, inner c → outer c) (text : Text) :
    (text.dropWhile inner).dropWhile outer = text.dropWhile outer := by
  induction text with
  | nil => rfl
  | cons c rest ih =>
    by_cases hinner : inner c
    · rw [List.dropWhile_cons_of_pos hinner, List.dropWhile_cons_of_pos (himp c hinner), ih]
    · rw [List.dropWhile_cons_of_neg hinner]

/-- An argument whose text does not start like a collection is not one. -/
theorem atomic_parseArgWithin {classes : CharClasses} {depth : Nat} {input rest : Text}
    {arg : CommandArg Executor}
    (hlist : (space0 input).head? ≠ some '[') (hmap : (space0 input).head? ≠ some '{')
    (hparse : parseArgWithin classes depth input = .ok (rest, arg)) : Atomic arg := by
  cases depth with
  | zero => cases hparse
  | succ depth =>
    obtain ⟨parser, hparser, heq⟩ := exists_of_alt_eq_ok hparse
    have hspace : space0 (space0 input) = space0 input := by
      exact dropWhile_dropWhile (fun _ hspace => hspace) input
    have hopens : ∀ opening : Char, (space0 input).head? ≠ some opening →
        char opening (space0 (space0 input)) = .error .error := by
      intro opening hne
      rw [hspace]
      cases htext : space0 input with
      | nil => rfl
      | cons first rest =>
        rw [htext] at hne
        rw [char, if_neg fun hfirst => hne (by rw [hfirst]; rfl)]
    simp only [List.mem_cons, List.not_mem_nil, or_false] at hparser
    rcases hparser with rfl | rfl | rfl | rfl | rfl | rfl | rfl | rfl
    · exact returns_parseCommandSubst classes _ _ _ heq
    · exact returns_parseVarBraced _ _ heq
    · exact returns_parseVarDollar classes _ _ heq
    · rw [parseMapLiteral, hopens '{' hmap] at heq
      cases heq
    · rw [parseListLiteral, hopens '[' hlist] at heq
      cases heq
    · exact returns_parseInterpolatedUnquoted _ _ _ heq
    · exact returns_parseLiteral _ _ heq
    · exact returns_parseOption _ _ heq

end CyfsGateway.ProcessChain
