import CyfsGateway.Core.Checks

/-!
# Parsers on character lists

A parser returns what is left of its input with a value, or one of three
errors: one that lets an alternative be tried, one that does not, and one that
asks for more input.  The combinators behave as those of `nom`: alternatives
and repetitions go on only behind an ordinary error, and a repetition whose
parser consumes nothing is an error.
-/

namespace CyfsGateway.Parsing

inductive ParseError
  | error
  | failure
  | incomplete
  deriving DecidableEq

abbrev Parser (Value : Type) := List Char → Except ParseError (List Char × Value)

variable {Value Other : Type}

def tag (word : List Char) : Parser (List Char) := fun input =>
  if word.isPrefixOf input then .ok (input.drop word.length, word) else .error .error

def char (expected : Char) : Parser Char
  | [] => .error .error
  | first :: rest => if first = expected then .ok (rest, first) else .error .error

/-- The longest part whose characters satisfy `accept`; not empty. -/
def takeWhile1 (accept : Char → Bool) : Parser (List Char) := fun input =>
  if (input.takeWhile accept).isEmpty then .error .error
  else .ok (input.dropWhile accept, input.takeWhile accept)

/-- As `takeWhile1`, but more input may still come: an input that ends inside
the part is incomplete. -/
def takeWhile1Streaming (accept : Char → Bool) : Parser (List Char) := fun input =>
  if input.all accept then .error .incomplete else takeWhile1 accept input

/-- A first character and the longest part behind it. -/
def word (isFirst isRest : Char → Bool) : Parser (List Char)
  | [] => .error .error
  | first :: rest =>
    if isFirst first then .ok (rest.dropWhile isRest, first :: rest.takeWhile isRest)
    else .error .error

def isSpace (c : Char) : Bool := c = ' ' || c = '\t'

def space0 (input : List Char) : List Char := input.dropWhile isSpace

def space1 : Parser (List Char) := takeWhile1 isSpace

variable (parser : Parser Value)

def map (f : Value → Other) : Parser Other := fun input =>
  (parser input).map fun parsed => (parsed.1, f parsed.2)

/-- Nothing more will come: an incomplete input is an error. -/
def complete : Parser Value := fun input =>
  match parser input with
  | .error .incomplete => .error .error
  | outcome => outcome

def opt : Parser (Option Value) := fun input =>
  match parser input with
  | .ok (rest, value) => .ok (rest, some value)
  | .error .error => .ok (input, none)
  | .error failed => .error failed

def alt : List (Parser Value) → Parser Value
  | [], _ => .error .error
  | parser :: others, input =>
    match parser input with
    | .error .error => alt others input
    | outcome => outcome

def delimited (left : Char) (parser : Parser Value) (right : Char) : Parser Value :=
  fun input => do
    let (inside, _) ← char left input
    let (behind, value) ← parser inside
    let (rest, _) ← char right behind
    return (rest, value)

/-- Each round consumes something, so the input bounds the rounds. -/
def manyFrom (parser : Parser Value) : Nat → Parser (List Value)
  | 0, _ => .error .failure
  | rounds + 1, input =>
    match parser input with
    | .error .error => .ok (input, [])
    | .error failed => .error failed
    | .ok (rest, value) =>
      if rest.length = input.length then .error .error
      else (manyFrom parser rounds rest).map fun parsed => (parsed.1, value :: parsed.2)

def many0 : Parser (List Value) := fun input =>
  manyFrom parser (input.length + 1) input

def separatedFrom (separator : Parser Other) (parser : Parser Value) : Nat → Parser (List Value)
  | 0, _ => .error .failure
  | rounds + 1, input =>
    match separator input with
    | .error .error => .ok (input, [])
    | .error failed => .error failed
    | .ok (behind, _) =>
      match parser behind with
      | .error .error => .ok (input, [])
      | .error failed => .error failed
      | .ok (rest, value) =>
        if rest.length = input.length then .error .error
        else
          (separatedFrom separator parser rounds rest).map fun parsed =>
            (parsed.1, value :: parsed.2)

def separatedList0 (separator : Parser Other) (parser : Parser Value) :
    Parser (List Value) := fun input =>
  match parser input with
  | .error .error => .ok (input, [])
  | .error failed => .error failed
  | .ok (rest, value) =>
    (separatedFrom separator parser (rest.length + 1) rest).map fun parsed =>
      (parsed.1, value :: parsed.2)

/-- The rounds of `escapedTransform`; `started` once something was consumed. -/
def escapedFrom (normal : Parser (List Char)) (control : Char)
    (transform : Parser (List Char)) : Nat → Bool → Parser (List Char)
  | 0, _, _ => .error .failure
  | _ + 1, _, [] => .ok ([], [])
  | rounds + 1, started, first :: rest =>
    match normal (first :: rest) with
    | .ok ([], part) => .ok ([], part)
    | .ok (behind, part) =>
      if behind.length = rest.length + 1 then .ok (first :: rest, part)
      else
        (escapedFrom normal control transform rounds true behind).map fun parsed =>
          (parsed.1, part ++ parsed.2)
    | .error .error =>
      if first = control then
        if rest.isEmpty then .error .error
        else
          match transform rest with
          | .ok ([], part) => .ok ([], part)
          | .ok (behind, part) =>
            (escapedFrom normal control transform rounds true behind).map
              fun parsed => (parsed.1, part ++ parsed.2)
          | .error failed => .error failed
      else if started then .ok (first :: rest, [])
      else .error .error
    | .error failed => .error failed

/-- Parts of plain text and characters escaped behind `control`. -/
def escapedTransform (normal : Parser (List Char)) (control : Char)
    (transform : Parser (List Char)) : Parser (List Char) := fun input =>
  escapedFrom normal control transform (input.length + 1) false input

/-! ## What a parser can return -/

/-- Every value the parser returns satisfies `Good`. -/
def Returns (Good : Value → Prop) : Prop :=
  ∀ input, Checks.Yields (fun parsed => Good parsed.2) (parser input)

theorem returns_map {parser : Parser Value} {f : Value → Other} {Good : Other → Prop}
    (hparser : Returns parser fun value => Good (f value)) :
    Returns (map parser f) Good := by
  intro input parsed hparse
  rw [map] at hparse
  cases hvalue : parser input with
  | error failed => rw [hvalue] at hparse; cases hparse
  | ok found =>
    rw [hvalue] at hparse
    cases hparse
    exact hparser input found hvalue

theorem exists_of_alt_eq_ok {parsers : List (Parser Value)} {input : List Char}
    {parsed : List Char × Value} (hparse : alt parsers input = .ok parsed) :
    ∃ parser ∈ parsers, parser input = .ok parsed := by
  induction parsers with
  | nil => cases hparse
  | cons parser others ih =>
    rw [alt] at hparse
    split at hparse
    · obtain ⟨other, hother, heq⟩ := ih hparse
      exact ⟨other, .tail _ hother, heq⟩
    · exact ⟨parser, .head _, hparse⟩

theorem returns_alt {parsers : List (Parser Value)} {Good : Value → Prop}
    (hparsers : ∀ parser ∈ parsers, Returns parser Good) : Returns (alt parsers) Good := by
  intro input parsed hparse
  obtain ⟨parser, hparser, heq⟩ := exists_of_alt_eq_ok hparse
  exact hparsers parser hparser input parsed heq

section Combinators

variable {parser : Parser Value} {Good : Value → Prop} (hparser : Returns parser Good)

include hparser

theorem returns_complete : Returns (complete parser) Good := by
  intro input parsed hparse
  rw [complete] at hparse
  split at hparse
  · cases hparse
  · exact hparser input parsed hparse

theorem returns_delimited : Returns (delimited left parser right) Good := by
  intro input
  refine Checks.yields_then fun opened _ => Checks.yields_then fun found hfound =>
    Checks.yields_then fun _ _ => Checks.yields_pure ?_
  exact hparser opened.1 found hfound

theorem returns_manyFrom (rounds : Nat) :
    Returns (manyFrom parser rounds) fun values => ∀ value ∈ values, Good value := by
  induction rounds with
  | zero => intro input parsed hparse; cases hparse
  | succ rounds ih =>
    intro input parsed hparse
    rw [manyFrom] at hparse
    split at hparse
    · cases hparse
      exact fun value hvalue => by cases hvalue
    · cases hparse
    · next behind first hfirst =>
      split at hparse
      · cases hparse
      cases hmore : manyFrom parser rounds behind with
      | error failed => rw [hmore] at hparse; cases hparse
      | ok found =>
        rw [hmore] at hparse
        cases hparse
        intro value hvalue
        rcases List.mem_cons.mp hvalue with rfl | hvalue
        · exact hparser input _ hfirst
        · exact ih behind found hmore value hvalue

end Combinators

end CyfsGateway.Parsing
