import Usai.Postgres.Wire

/-! How the server cuts a text into statements: PostgreSQL's lexical rules, one
character at a time. The classes of tokens are those that decide where a statement
begins: words, semicolons, and everything else. -/

namespace Usai.Postgres

open Text (toAsciiLowercase)

/-- A token. A word is an unquoted identifier or keyword, in lower case. -/
inductive Token where
  | word (text : String)
  | semicolon
  | other
  deriving DecidableEq, Repr

namespace Lexer

def space (c : Char) : Bool :=
  c == ' ' || c == '\t' || c == '\n' || c == '\r' || c.toNat == 12 || c.toNat == 11

def identStart (c : Char) : Bool := c.isAlpha || c == '_' || 128 ≤ c.toNat

def tagCont (c : Char) : Bool := identStart c || c.isDigit

def identCont (c : Char) : Bool := tagCont c || c == '$'

/-- Where the lexer is. Letters and tags are kept with the last character first; a
block comment counts how deep it is nested. -/
inductive Mode where
  | between
  | word (letters : List Char)
  | number
  | escapedUnicode (letter : Char)
  | dash
  | slash
  | lineComment
  | block (depth : Nat)
  | blockSlash (depth : Nat)
  | blockStar (depth : Nat)
  | quoted (mark : Char) (backslashes : Bool)
  | backslash (mark : Char)
  | quoteSeen (mark : Char) (backslashes : Bool)
  | dollar (tag : List Char)
  | dollarBody (tag seen : List Char)
  deriving DecidableEq, Repr

namespace Mode

def enter (c : Char) : Mode × List Token :=
  if space c then (.between, [])
  else if identStart c then (.word [c], [])
  else if c.isDigit then (.number, [.other])
  else
    match c with
    | '\'' => (.quoted '\'' false, [.other])
    | '"' => (.quoted '"' false, [.other])
    | '$' => (.dollar [], [])
    | '-' => (.dash, [])
    | '/' => (.slash, [])
    | ';' => (.between, [.semicolon])
    | _ => (.between, [.other])

def enterAfter (tokens : List Token) (c : Char) : Mode × List Token :=
  let (next, emitted) := enter c
  (next, tokens ++ emitted)

def wordToken (letters : List Char) : Token :=
  .word (toAsciiLowercase (String.ofList letters.reverse))

def stepWord (letters : List Char) (c : Char) : Mode × List Token :=
  if identCont c then (.word (c :: letters), [])
  else
    match letters.map Char.toLower, c with
    | ['e'], '\'' => (.quoted '\'' true, [.other])
    | ['b'], '\'' | ['x'], '\'' | ['n'], '\'' => (.quoted '\'' false, [.other])
    | ['u'], '&' => (.escapedUnicode (letters.headD 'u'), [])
    | _, c => enterAfter [wordToken letters] c

def step : Mode → Char → Mode × List Token
  | .between, c => enter c
  | .word letters, c => stepWord letters c
  | .number, c => if c.isAlphanum || c == '.' || c == '_' then (.number, []) else enter c
  | .escapedUnicode letter, c =>
    if c == '\'' || c == '"' then (.quoted c false, [.other])
    else enterAfter [wordToken [letter], .other] c
  | .dash, c => if c = '-' then (.lineComment, []) else enterAfter [.other] c
  | .slash, c => if c = '*' then (.block 0, []) else enterAfter [.other] c
  | .lineComment, c => if c = '\n' || c = '\r' then (.between, []) else (.lineComment, [])
  | .block depth, c =>
    (if c = '/' then .blockSlash depth else if c = '*' then .blockStar depth else .block depth, [])
  | .blockSlash depth, c =>
    (if c = '*' then .block (depth + 1) else if c = '/' then .blockSlash depth else .block depth, [])
  | .blockStar depth, c =>
    (if c = '/' then (match depth with | 0 => .between | depth + 1 => .block depth)
      else if c = '*' then .blockStar depth else .block depth, [])
  | .quoted mark backslashes, c =>
    (if c = mark then .quoteSeen mark backslashes
      else if backslashes && c == '\\' then .backslash mark else .quoted mark backslashes, [])
  | .backslash mark, _ => (.quoted mark true, [])
  | .quoteSeen mark backslashes, c => if c = mark then (.quoted mark backslashes, []) else enter c
  | .dollar tag, c =>
    if c = '$' then (.dollarBody tag [], [.other])
    else if tag = [] && c.isDigit then (.number, [.other])
    else if (if tag = [] then identStart c else tagCont c) then (.dollar (c :: tag), [])
    -- no delimiter after all: a lone dollar sign, and the word that follows it
    else if tag = [] then enterAfter [.other] c
    else
      let (next, emitted) := stepWord tag c
      (next, .other :: emitted)
  | .dollarBody tag seen, c =>
    if ('$' :: tag ++ ['$']).isPrefixOf (c :: seen) then (.between, [])
    else (.dollarBody tag (c :: seen), [])

def finish : Mode → Option (List Token)
  | .between | .number | .lineComment | .quoteSeen _ _ => some []
  | .word letters => some [wordToken letters]
  | .escapedUnicode letter => some [wordToken [letter], .other]
  | .dash | .slash => some [.other]
  | .dollar tag => some (if tag = [] then [.other] else [.other, wordToken tag])
  | .block _ | .blockSlash _ | .blockStar _ | .quoted _ _ | .backslash _ | .dollarBody _ _ => none

end Mode

def scan : Mode → List Char → Option (List Token)
  | mode, [] => mode.finish
  | mode, c :: rest => (scan (mode.step c).1 rest).map ((mode.step c).2 ++ ·)

end Lexer

def statements (sql : String) : Option (List (List Token)) :=
  (Lexer.scan .between sql.toList).map (List.splitOn .semicolon)

example : statements "/* /* */ ; */ select ';', $$;$$ -- ;\n; Begin" =
    some [[.word "select", .other, .other, .other], [.word "begin"]] := rfl

end Usai.Postgres
