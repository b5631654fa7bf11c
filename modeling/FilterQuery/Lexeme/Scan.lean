import FilterQuery.Lexeme
import FilterQuery.Lexeme.Delimiter
import FilterQuery.Text.Letters

/-!
# From text to lexemes

At each place that is not blank the rules below are tried in a fixed order and
the first that fits gives the next lexeme: group, combinator, nested query,
filter, toggle, comment, word.  A rule looks at the characters from the place on
and gives the lexeme with the characters behind it.  Operators are tried in the
order of their alphabet, the longest first.
-/

namespace FilterQuery

/-- A rule's result: what it has read, and the characters behind that. -/
abbrev Scanned (β : Type) := Option (β × List Char)

namespace Lexeme

open Text

/-- A character that may continue the name of a filter. -/
def isNameChar (c : Char) : Bool :=
  isLetterOrNumeral c || c = '_' || c = '.'

/-- A character that may start the name of a filter. -/
def isNameStart (c : Char) : Bool :=
  isLetter c || c = '_' || c = '#'

/-- A character of a word. -/
def isWordChar (c : Char) : Bool :=
  !isBlank c && !(['(', ')', '"', '\x7b', '\x7d'].contains c)

/-- A character of a value without quotes. -/
def isValueChar (c : Char) : Bool :=
  !isBlank c && c ≠ '(' && c ≠ ')'

/-- A character of the name of an aggregator. -/
def isAggregatorChar (c : Char) : Bool :=
  isLetterOrNumeral c || c = '_'

/-- The token of the characters that stand before `rest`. -/
def tokenBefore (position : Nat) (cs rest : List Char) : Token :=
  Token.ofChars position (cs.take (cs.length - rest.length))

/-- A keyword stands alone if a blank, an opening delimiter, a quote or nothing
follows. -/
def endsKeyword : List Char → Bool
  | [] => true
  | c :: _ => isBlank c || c = '(' || c = '"' || c = '\x7b'

/-- The combinator that a word in any case names. -/
def keyword? (word : List Char) : Option (Token → Lexeme) :=
  let name := String.ofList (word.map Char.toLower)
  if name = "and" then some and
  else if name = "or" then some or
  else if name = "not" then some not
  else none

/-- A minus sign with something right behind it, or a keyword that stands
alone. -/
def combinator? (cs : List Char) : Scanned (Token → Lexeme) :=
  match cs with
  | '-' :: c :: rest => if isBlank c then none else some (not, c :: rest)
  | _ =>
    let word := cs.takeWhile Char.isAlpha
    let rest := cs.dropWhile Char.isAlpha
    match keyword? word with
    | some kind => if endsKeyword rest then some (kind, rest) else none
    | none => none

/-- A block in braces, with or without the name of an aggregator. -/
def block? (position : Nat) (cs : List Char) : Except QueryError (Scanned NestedBlock) :=
  let name := cs.takeWhile isAggregatorChar
  let rest := cs.dropWhile isAggregatorChar
  if rest.head? = some '\x7b' then do
    let brace := position + byteLength name
    match ← delimited? brace rest with
    | none => throw ⟨.unbalancedBrace, brace, 1⟩
    | some (query, behind) =>
      let block : NestedBlock :=
        { aggregator := if name.isEmpty then none else some (String.ofList name)
          query := String.ofList (trimChars query)
          token := tokenBefore position cs behind }
      return some (block, behind)
  else return none

/-- The parameter in parentheses behind a name: none at all, or text without
parentheses.  Fails if a parenthesis opens otherwise. -/
def parameter? (cs : List Char) : Option (Option String × List Char) :=
  match cs with
  | '(' :: rest =>
    let isParenthesis (c : Char) : Bool := c = '(' || c = ')'
    match rest.dropWhile (!isParenthesis ·) with
    | ')' :: behind =>
      some (some (String.ofList (trimChars (rest.takeWhile (!isParenthesis ·)))), behind)
    | _ => none
  | _ => some (none, cs)

/-- The first token of the alphabet that the characters begin with. -/
def operator? (alphabet : List String) (cs : List Char) : Scanned String :=
  (alphabet.find? fun op => op.toList.isPrefixOf cs).map fun op =>
    (op, cs.drop op.toList.length)

/-- The value of a filter. -/
structure FilterValue where
  text : String
  quoted : Bool := false
  block : Option NestedBlock := none

/-- A value: quoted text, a nested query, or characters up to a blank or a
parenthesis. -/
def filterValue (position : Nat) (cs : List Char) :
    Except QueryError (FilterValue × List Char) :=
  match cs with
  | '"' :: rest =>
    match splitAtQuote? rest with
    | some (text, behind) => return ({ text := String.ofList text, quoted := true }, behind)
    | none => throw ⟨.unterminatedValue, position, byteLength cs⟩
  | _ => do
    match ← block? position cs with
    | some (block, behind) => return ({ text := block.token.text, block := some block }, behind)
    | none =>
      return ({ text := String.ofList (cs.takeWhile isValueChar) }, cs.dropWhile isValueChar)

/-- A name, perhaps a parameter, an operator and a value, with nothing between
them. -/
def filter? (alphabet : List String) (position : Nat) (cs : List Char) :
    Except QueryError (Scanned (Token → Lexeme)) :=
  match cs with
  | [] => return none
  | c :: tail =>
    if !isNameStart c then return none
    else
      let name := c :: tail.takeWhile isNameChar
      match parameter? (tail.dropWhile isNameChar) with
      | none => return none
      | some (param, rest) =>
        match operator? alphabet rest with
        | none => return none
        | some (operator, rest) => do
          let place := position + (byteLength cs - byteLength rest)
          let (value, behind) ← filterValue place rest
          let expression : FilterExpression :=
            { name := String.ofList name, param, operator
              value := value.text, quoted := value.quoted }
          return some (filter expression value.block, behind)

/-- A plus sign and a name, in which dashes may stand too. -/
def toggle? (cs : List Char) : Scanned (Token → Lexeme) :=
  match cs with
  | '+' :: rest =>
    let isToggleChar (c : Char) : Bool := isNameChar c || c = '-'
    let name := rest.takeWhile isToggleChar
    if name.isEmpty then none
    else some (toggle (String.ofList name), rest.dropWhile isToggleChar)
  | _ => none

/-- Two slashes and the rest of the line. -/
def comment? (cs : List Char) : Scanned (Token → Lexeme) :=
  match cs with
  | '/' :: '/' :: rest =>
    some (comment (String.ofList (trimChars (rest.takeWhile (· ≠ '\n')))),
      rest.dropWhile (· ≠ '\n'))
  | _ => none

/-- A word or a quoted phrase, exact behind an exclamation mark. A lone mark is
a word. -/
def word? (position : Nat) (cs : List Char) :
    Except QueryError (Scanned (Token → Lexeme)) :=
  let (exact, body) := match cs with
    | '!' :: rest => (true, rest)
    | _ => (false, cs)
  match body with
  | '"' :: rest =>
    match splitAtQuote? rest with
    | some (text, behind) =>
      return some (word { text := String.ofList text, exact, phrase := true }, behind)
    | none =>
      throw ⟨.unterminatedPhrase, position + (byteLength cs - byteLength body), byteLength body⟩
  | _ =>
    let text := body.takeWhile isWordChar
    let behind := body.dropWhile isWordChar
    if !text.isEmpty then return some (word { text := String.ofList text, exact }, behind)
    else if exact then return some (word { text := "!" }, behind)
    else return none

/-- The rules for lexemes other than groups, in order. -/
def single? (alphabet : List String) (position : Nat) (cs : List Char) :
    Except QueryError (Scanned Lexeme) := do
  let located (found : (Token → Lexeme) × List Char) : Lexeme × List Char :=
    (found.1 (tokenBefore position cs found.2), found.2)
  if let some found := combinator? cs then return some (located found)
  if let some (block, behind) ← block? position cs then return some (nested block, behind)
  if let some found ← filter? alphabet position cs then return some (located found)
  if let some found := toggle? cs then return some (located found)
  if let some found := comment? cs then return some (located found)
  if let some found ← word? position cs then return some (located found)
  return none

/-- The lexemes of the characters from a place on.  A group without lexemes is
dropped.  Each step takes at least one character, so `fuel` beyond their count
changes nothing. -/
def scanFrom (alphabet : List String) :
    (fuel position : Nat) → List Char → Except QueryError (List Lexeme)
  | 0, _, _ => .ok []
  | fuel + 1, position, cs =>
    match cs with
    | [] => .ok []
    | c :: tail =>
      if isBlank c then scanFrom alphabet fuel (position + c.utf8Size) tail
      else if c = ')' then .error ⟨.unexpectedClosing, position, 1⟩
      else if c = '(' then do
        match ← delimited? position cs with
        | none => throw ⟨.unbalancedParenthesis, position, 1⟩
        | some (inside, behind) =>
          let inner ← scanFrom alphabet fuel (position + 1) inside
          let token := tokenBefore position cs behind
          let rest ← scanFrom alphabet fuel token.stop behind
          if inner.isEmpty then return rest
          else return group inner token :: rest
      else do
        match ← single? alphabet position cs with
        | none => throw ⟨.unexpectedCharacter c, position, c.utf8Size⟩
        | some (lexeme, behind) =>
          let rest ← scanFrom alphabet fuel lexeme.token.stop behind
          return lexeme :: rest

/-- The lexemes of a text, or the first error in it. -/
def scan (alphabet : List String) (text : String) : Except QueryError (List Lexeme) :=
  let cs := text.toList
  scanFrom alphabet (cs.length + 1) 0 cs

end Lexeme

end FilterQuery
