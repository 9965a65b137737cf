import CyfsGateway.ProcessChain.Arguments
import CyfsGateway.ProcessChain.Execution

/-!
# Variable expressions

`CommandArgEvaluator::evaluate_var_expression`: a path through collections with
static, dynamic and optional segments, and defaults behind `??`.  A default is
parsed when it is needed, as an argument if it starts like one.  The
environment and the collections are a parameter.

Each nested expression is a shorter part of the text, so a bound on the nesting
is a parameter that the length of the text satisfies.
-/

namespace CyfsGateway.ProcessChain

variable {World Value Executor : Type}

inductive VarPathSegment
  | static (key : Text)
  | dynamic (expression : Text)
  deriving DecidableEq

structure VarPathAccessSegment where
  segment : VarPathSegment
  optional : Bool
  deriving DecidableEq

def fail {Result : Type} (message : String) (subject : Text) : Except Text Result :=
  .error (message.toList ++ subject)

/-- The text up to the bracket that closes the `depth` open ones, and what is
behind it; brackets in quotes do not count. -/
def closingBracket : Nat → Option Char → Bool → Text → Option (Text × Text)
  | _, _, _, [] => none
  | depth, some quote, escaped, c :: rest =>
    let (quote, escaped) :=
      if escaped then (some quote, false)
      else if c = '\\' then (some quote, true)
      else if c = quote then (none, false)
      else (some quote, false)
    (closingBracket depth quote escaped rest).map fun found => (c :: found.1, found.2)
  | depth, none, _, c :: rest =>
    if c = ']' && depth = 1 then some ([], rest)
    else
      let quote := if c = '"' || c = '\'' then some c else none
      let depth := if c = '[' then depth + 1 else if c = ']' then depth - 1 else depth
      (closingBracket depth quote false rest).map fun found => (c :: found.1, found.2)

def parseDynamicSegment (inner : Text) : Except Text VarPathSegment :=
  match trim inner with
  | '$' :: '{' :: name =>
    if name.getLast? != some '}' then
      fail "Invalid braced dynamic segment: " (trim inner)
    else if (trim name.dropLast).isEmpty then fail "Dynamic segment cannot be empty" []
    else .ok (.dynamic (trim name.dropLast))
  | '$' :: name =>
    if (trim name).isEmpty then fail "Dynamic segment cannot be empty after '$'" []
    else .ok (.dynamic (trim name))
  | key => .ok (.static key)

/-- A quoted key without its backslashes. -/
def unescapeKey : Text → Text
  | [] => []
  | ['\\'] => ['\\']
  | '\\' :: c :: rest => c :: unescapeKey rest
  | c :: rest => c :: unescapeKey rest

/-- A segment behind an opening bracket, and what is behind its closing one. -/
def parseBracketSegment (var rest : Text) : Except Text (VarPathSegment × Text) :=
  match closingBracket 1 none false rest with
  | none => fail "Unclosed bracket segment in variable: " var
  | some (inner, behind) =>
    let inner := trim inner
    if inner.isEmpty then .ok (.static [], behind)
    else if (inner.head? = some '"' && inner.getLast? = some '"') ||
        (inner.head? = some '\'' && inner.getLast? = some '\'') then
      .ok (.static (unescapeKey inner.tail.dropLast), behind)
    else (parseDynamicSegment inner).map fun segment => (segment, behind)

/-- The path read so far: its segments, the text of the next one and whether
that one is behind `?.`. -/
structure PathScan where
  segments : List VarPathAccessSegment
  current : Text
  pendingOptional : Bool

def PathScan.pushStatic (scan : PathScan) : PathScan :=
  if scan.current.isEmpty then scan
  else ⟨scan.segments ++ [⟨.static scan.current, scan.pendingOptional⟩], [], false⟩

def PathScan.push (scan : PathScan) (segment : VarPathSegment) (optional : Bool) : PathScan :=
  ⟨scan.segments ++ [⟨segment, optional⟩], scan.current, false⟩

def PathScan.atStart (scan : PathScan) : Bool := scan.current.isEmpty && scan.segments.isEmpty

def PathScan.parenthesised (var : Text) (scan : PathScan) (found : Option (Text × Text)) :
    Except Text (PathScan × Text) :=
  match found with
  | none => fail "Unclosed dynamic segment in variable: " var
  | some (inner, behind) =>
    (parseDynamicSegment inner).map fun segment => (scan.push segment scan.pendingOptional, behind)

def PathScan.step (var : Text) (scan : PathScan) : Text → Except Text (PathScan × Text)
  | [] => .ok (scan, [])
  | '\\' :: [] => .ok ({ scan with current := scan.current ++ ['\\'] }, [])
  | '\\' :: c :: rest => .ok ({ scan with current := scan.current ++ [c] }, rest)
  | '?' :: '.' :: rest =>
    if scan.atStart then
      fail "Invalid optional access at beginning of variable path: " var
    else
      let scan := { scan.pushStatic with pendingOptional := true }
      match rest with
      | '(' :: rest => scan.parenthesised var (closingParen 1 rest)
      | rest => .ok (scan, rest)
  | '?' :: '[' :: rest =>
    if scan.atStart then
      fail "Invalid optional bracket access at beginning of variable path: " var
    else
      (parseBracketSegment var rest).map fun found => (scan.pushStatic.push found.1 true, found.2)
  | '.' :: '(' :: rest => scan.pushStatic.parenthesised var (closingParen 1 rest)
  | '.' :: rest => .ok (scan.pushStatic, rest)
  | '[' :: rest =>
    (parseBracketSegment var rest).map fun found =>
      (scan.pushStatic.push found.1 scan.pushStatic.pendingOptional, found.2)
  | c :: rest => .ok ({ scan with current := scan.current ++ [c] }, rest)

def scanVarPath (var : Text) : Nat → PathScan → Text → Except Text PathScan
  | 0, _, _ => .error []
  | _ + 1, scan, [] => .ok scan
  | rounds + 1, scan, c :: rest => do
      let (scan, behind) ← scan.step var (c :: rest)
      scanVarPath var rounds scan behind

def parseVarPath (var : Text) : Except Text (List VarPathAccessSegment) := do
  let scan ← scanVarPath var (var.length + 1) ⟨[], [], false⟩ var
  if scan.pendingOptional && scan.current.isEmpty then
    fail "Invalid variable path ending with optional access: " var
  else if scan.pushStatic.segments.isEmpty then fail "Variable path is empty: " var
  else .ok scan.pushStatic.segments

/-! ## Defaults -/

/-- `find_top_level_coalesce`: the texts before and behind the first `??`
outside of brackets, parentheses and quotes. -/
def splitCoalesce (parens brackets : Nat) (quote : Option Char) (escaped : Bool) :
    Text → Option (Text × Text)
  | [] => none
  | ch :: rest =>
    match quote with
    | some opening =>
      let (quote, escaped) :=
        if escaped then (some opening, false)
        else if ch = '\\' then (some opening, true)
        else if ch = opening then (none, false)
        else (some opening, false)
      (splitCoalesce parens brackets quote escaped rest).map fun found => (ch :: found.1, found.2)
    | none =>
      if ch = '?' && brackets = 0 && parens = 0 && rest.head? = some '?' then
        some ([], rest.tail)
      else
        (splitCoalesce (if ch = '(' then parens + 1 else if ch = ')' then parens - 1 else parens)
          (if ch = '[' then brackets + 1 else if ch = ']' then brackets - 1 else brackets)
          (if ch = '"' || ch = '\'' then some ch else none) false rest).map fun found =>
          (ch :: found.1, found.2)

def findTopLevelCoalesce (var : Text) : Option (Text × Text) := splitCoalesce 0 0 none false var

/-- A default that starts like an argument is parsed as one. -/
def shouldParseDefaultAsArg (expression : Text) : Bool :=
  match trimStart expression with
  | first :: _ => ['$', '"', '\''].contains first
  | [] => false

theorem atomic_of_shouldParseDefaultAsArg {classes : CharClasses} {expression rest : Text}
    {arg : CommandArg Executor} (hdefault : shouldParseDefaultAsArg expression)
    (hparse : parseArg classes expression = .ok (rest, arg)) : Atomic arg := by
  have hhead : ∀ opening : Char, isWhitespace opening = false →
      ['$', '"', '\''].contains opening = false →
      (Parsing.space0 expression).head? ≠ some opening := by
    intro opening hwhite hquote hopening
    have htrim : trimStart expression = (Parsing.space0 expression).dropWhile isWhitespace :=
      (dropWhile_dropWhile (by
        intro c hspace
        rcases (Bool.or_eq_true _ _).mp hspace with hc | hc <;>
          rw [of_decide_eq_true hc] <;> decide) expression).symm
    cases htext : Parsing.space0 expression with
    | nil => rw [htext] at hopening; cases hopening
    | cons first behind =>
      rw [htext] at hopening htrim
      cases hopening
      rw [List.dropWhile_cons_of_neg (by rw [hwhite]; exact Bool.false_ne_true)] at htrim
      rw [shouldParseDefaultAsArg, htrim] at hdefault
      exact Bool.false_ne_true (hquote.symm.trans hdefault)
  exact atomic_parseArgWithin (hhead '[' (by decide) (by decide))
    (hhead '{' (by decide) (by decide)) hparse

/-! ## The environment -/

/-- An operation of the environment or of a collection. -/
abbrev Query (World Value : Type) := World → Except Text Value × World

def ask (query : Query World Value) : Run World Value := fun world =>
  match query world with
  | (.ok value, after) => (.ok value, after)
  | (.error message, after) => (.error (.message message), after)

structure VariableStore (World : Type) where
  get : Text → Query World (Option CollectionValue)
  listGet : Nat → Nat → Query World (Option CollectionValue)
  mapGet : Nat → Text → Query World (Option CollectionValue)
  setContains : Nat → Text → Query World Bool
  multiMapGetMany : Nat → Text → Query World (Option Nat)
  /-- `MissingVarPolicy::Strict`. -/
  strictMissing : Bool

inductive VarEvalResult
  | value (value : CollectionValue)
  | missing (key : Text) (explicit : Bool)
  deriving DecidableEq

def escapePathSegment (segment : Text) : Text :=
  segment.flatMap fun c => if c = '\\' || c = '.' then ['\\', c] else [c]

def normalizeSegmentList (segments : List Text) : Text :=
  List.intercalate ['.'] (segments.map escapePathSegment)

def parseUsize (text : Text) : Option Nat :=
  let digits := if text.head? = some '+' then text.tail else text
  if digits.isEmpty || !digits.all Char.isDigit || 2 ^ 64 ≤ decimalValue digits then none
  else some (decimalValue digits)

section Evaluation

variable (store : VariableStore World)

def refuse (message : String) (subject : Text) : Run World Value :=
  throw (.message (message.toList ++ subject))

variable (evaluate : Text → Run World VarEvalResult)

/-- `resolve_segment_key`; `evaluate` evaluates a dynamic segment. -/
def resolveSegmentKey (var : Text) : VarPathSegment → Run World Text
  | .static key => pure key
  | .dynamic expression =>
    evaluate expression >>= fun
      | .value (.string text) => pure text
      | .value _ => refuse "Expected a string for a dynamic segment of " var
      | .missing _ explicit =>
        if explicit || !store.strictMissing then pure []
        else refuse "Dynamic segment variable not found while resolving " var

/-- One step of a path; `none` ends it as missing. -/
def accessSegment (isLast optional : Bool) (key : Text) :
    Option CollectionValue → Run World (Option (Option CollectionValue))
  | some (.list object) =>
    match parseUsize key with
    | some index => ask (store.listGet object index) >>= fun found => pure (some found)
    | none => if optional then pure none else refuse "Invalid list index: " key
  | some (.map object) => ask (store.mapGet object key) >>= fun found => pure (some found)
  | some (.set object) =>
    if isLast then
      ask (store.setContains object key) >>= fun found =>
        pure (some (if found then some (.string key) else none))
    else if optional then pure none
    else refuse "Expected a map, found a set behind " key
  | some (.multiMap object) =>
    if isLast then
      ask (store.multiMapGetMany object key) >>= fun found =>
        pure (some (found.map CollectionValue.set))
    else if optional then pure none
    else refuse "Expected a map, found a multi map behind " key
  | some _ => if optional then pure none else refuse "Expected a map before " key
  | none => pure none

def accessPath (evaluate : Text → Run World VarEvalResult) (var : Text)
    (resolved : List Text) (current : Option CollectionValue) (optional : Bool) :
    List VarPathAccessSegment → Run World VarEvalResult
  | [] =>
    match current with
    | some value => pure (.value value)
    | none => pure (.missing (normalizeSegmentList resolved) optional)
  | access :: rest =>
    resolveSegmentKey store evaluate var access.segment >>= fun key =>
    accessSegment store rest.isEmpty access.optional key current >>= fun
      | some found => accessPath evaluate var (resolved ++ [key]) found access.optional rest
      | none =>
        -- a missing collection is explicit only if this access is optional
        pure (.missing (normalizeSegmentList (resolved ++ [key])) access.optional)

def evaluateVarPath (var : Text) : Run World VarEvalResult :=
  match parseVarPath var with
  | .error message => throw (.message message)
  | .ok [] => refuse "Variable path is empty: " var
  | .ok (first :: rest) =>
    if first.optional then
      refuse "Invalid optional access for root segment in variable path: " var
    else
      resolveSegmentKey store evaluate var first.segment >>= fun key =>
      ask (store.get key) >>= fun value => accessPath store evaluate var [key] value false rest

/-- A variable that has no value is empty or an error, as the policy says. -/
def orMissing : VarEvalResult → Run World CollectionValue
  | .value value => pure value
  | .missing key explicit =>
    if explicit || !store.strictMissing then pure (.string [])
    else refuse "Variable not found in context: " key

/-- The failure of `execute_command` for a command without executor. -/
def commandNotLinked (location : Location) : Failure :=
  wrapRuntimeError location .runtimeCommandNotLinked "Command not linked"
    (.message "Command not linked".toList)

/-- A default that was parsed as an argument.  The commands of a collection
literal would not be linked. -/
def evaluateDefaultArg : CommandArg Executor → Run World CollectionValue
  | .literal text => pure (.string text)
  | .stringLiteral text => pure (.string text)
  | .typedLiteral _ value => pure value
  | .var name => evaluate name >>= orMissing store
  | .listLiteral _ => throw (commandNotLinked ⟨none, none⟩)
  | .mapLiteral _ => throw (commandNotLinked ⟨none, none⟩)
  | .commandSubstitution _ =>
    refuse "Command substitution is not supported in default expression yet" []

def evaluateDefaultExpression (classes : CharClasses)
    (evaluate : Text → Run World VarEvalResult) (expression : Text) :
    Run World VarEvalResult :=
  let expression := trim expression
  if expression.isEmpty then refuse "Default expression is empty" []
  else if shouldParseDefaultAsArg expression then
    match (parseArg classes expression : Except Parsing.ParseError (Text × CommandArg Empty)) with
    | .error _ => refuse "Invalid default expression: " expression
    | .ok (rest, arg) =>
      if !(trim rest).isEmpty then
        refuse "Invalid trailing content in default expression: " expression
      else
        evaluateDefaultArg store evaluate arg >>= fun value => pure (.value value)
  else evaluate expression

/-- `evaluate_var_expression` with at most `depth` nested expressions. -/
def evaluateVarExpression (classes : CharClasses) : Nat → Text → Run World VarEvalResult
  | 0, _ => refuse "Variable expression is nested too deeply" []
  | depth + 1, var =>
    let var := trim var
    if var.isEmpty then refuse "Variable expression is empty" []
    else
      match findTopLevelCoalesce var with
      | some (lhs, rhs) =>
        if (trim lhs).isEmpty || (trim rhs).isEmpty then
          refuse "Invalid coalesce expression: " var
        else
          evaluateVarExpression classes depth (trim lhs) >>= fun
            | .value value => pure (.value value)
            | .missing _ _ =>
              evaluateDefaultExpression store classes
                (evaluateVarExpression classes depth) (trim rhs)
      | none => evaluateVarPath store (evaluateVarExpression classes depth) var

def evaluateVar (classes : CharClasses) (name : Text) : Run World CollectionValue :=
  evaluateVarExpression store classes (name.length + 1) name >>= orMissing store

end Evaluation

end CyfsGateway.ProcessChain
