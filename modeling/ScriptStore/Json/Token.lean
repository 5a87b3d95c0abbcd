import ScriptStore.Json.Basic

/-!
# Tokens of JSON texts

A text is read character by character into tokens: brackets, separators, strings, and the
undelimited values `null`, `true`, `false` and numbers. The state after each character says what
is being read; a character that no text can have there ends the reading.
-/

namespace ScriptStore

namespace Json

/-! ## Tokens -/

/-- A piece of a JSON text. -/
inductive Token where
  | openArray
  | closeArray
  | openObject
  | closeObject
  | comma
  | colon
  /-- A string, without its quotes and with its escapes resolved. -/
  | text (value : String)
  /-- A value written without delimiters. -/
  | atom (value : Json)
  deriving DecidableEq

/-- The token that a bracket or separator is. -/
def Token.ofChar? : Char → Option Token
  | '[' => some .openArray
  | ']' => some .closeArray
  | '\x7b' => some .openObject
  | '\x7d' => some .closeObject
  | ',' => some .comma
  | ':' => some .colon
  | _ => none

/-- The undelimited value that these characters spell. -/
def Token.ofAtom? (cs : List Char) : Option Token :=
  if cs = ['n', 'u', 'l', 'l'] then some (.atom .null)
  else if cs = ['t', 'r', 'u', 'e'] then some (.atom (.bool true))
  else if cs = ['f', 'a', 'l', 's', 'e'] then some (.atom (.bool false))
  else (Number.ofChars? cs).map fun n => .atom (.num n)

/-! ## Characters -/

/-- The blanks that may stand between tokens. -/
def isBlank (c : Char) : Bool := c == ' ' || c == '\t' || c == '\n' || c == '\r'

/-- The character that a letter after a backslash stands for, code points apart. -/
def ofEscape? : Char → Option Char
  | '"' => some '"'
  | '\\' => some '\\'
  | '/' => some '/'
  | 'b' => some '\x08'
  | 'f' => some '\x0c'
  | 'n' => some '\n'
  | 'r' => some '\r'
  | 't' => some '\t'
  | _ => none

/-- The value of a hexadecimal digit of either case. -/
def hexValue? (c : Char) : Option Nat :=
  if '0' ≤ c ∧ c ≤ '9' then some (c.toNat - '0'.toNat)
  else if 'a' ≤ c ∧ c ≤ 'f' then some (c.toNat - 'a'.toNat + 10)
  else if 'A' ≤ c ∧ c ≤ 'F' then some (c.toNat - 'A'.toNat + 10)
  else none

/-- Whether a 16-bit unit is the first of a surrogate pair. -/
def isHighSurrogate (unit : Nat) : Bool := 0xD800 ≤ unit && unit < 0xDC00

/-- Whether a 16-bit unit is the second of a surrogate pair. -/
def isLowSurrogate (unit : Nat) : Bool := 0xDC00 ≤ unit && unit < 0xE000

/-- The character of a surrogate pair. -/
def ofSurrogates (high low : Nat) : Char :=
  Char.ofNat (0x10000 + (high - 0xD800) * 0x400 + (low - 0xDC00))

/-! ## The state of the reading -/

/-- What is being read. Characters read so far come latest first. -/
inductive Lexing where
  /-- Nothing is pending. -/
  | between
  /-- An undelimited value. -/
  | inAtom (read : List Char)
  /-- A string. -/
  | inText (read : List Char)
  /-- A string, after a backslash. -/
  | inEscape (read : List Char)
  /-- A string, in the digits of a 16-bit unit, after the first unit of a pair if there is one. -/
  | inUnit (read : List Char) (high : Option Nat) (count value : Nat)
  /-- A string, where the second unit of a pair must come. -/
  | needLow (read : List Char) (high : Nat)
  /-- The same, after its backslash. -/
  | needLowEscape (read : List Char) (high : Nat)

/-- The tokens read so far, latest first, and what is being read. -/
structure Lexer where
  tokens : List Token
  state : Lexing

namespace Lexer

/-- The state before the first character. -/
def start : Lexer := ⟨[], .between⟩

/-- Starts on a character that does not continue the token before it. -/
def begin (tokens : List Token) (c : Char) : Lexer :=
  if isBlank c then ⟨tokens, .between⟩
  else if c = '"' then ⟨tokens, .inText []⟩
  else
    match Token.ofChar? c with
    | some token => ⟨token :: tokens, .between⟩
    | none => ⟨tokens, .inAtom [c]⟩

/-- Whether a character ends an undelimited value. -/
def endsAtom (c : Char) : Bool := isBlank c || c == '"' || (Token.ofChar? c).isSome

/-- Reads on with a complete 16-bit unit: a character of its own, or half of a pair. -/
def takeUnit (tokens : List Token) (read : List Char) (high : Option Nat) (unit : Nat) :
    Option Lexer :=
  match high with
  | some first =>
    if isLowSurrogate unit then some ⟨tokens, .inText (ofSurrogates first unit :: read)⟩ else none
  | none =>
    if isHighSurrogate unit then some ⟨tokens, .needLow read unit⟩
    else if isLowSurrogate unit then none
    else some ⟨tokens, .inText (Char.ofNat unit :: read)⟩

/-- Reads one character. -/
def step (lexer : Lexer) (c : Char) : Option Lexer :=
  match lexer.state with
  | .between => some (begin lexer.tokens c)
  | .inAtom read =>
    if endsAtom c then
      (Token.ofAtom? read.reverse).map fun token => begin (token :: lexer.tokens) c
    else some ⟨lexer.tokens, .inAtom (c :: read)⟩
  | .inText read =>
    if c = '"' then some ⟨.text (String.ofList read.reverse) :: lexer.tokens, .between⟩
    else if c = '\\' then some ⟨lexer.tokens, .inEscape read⟩
    else if c.toNat < 0x20 then none
    else some ⟨lexer.tokens, .inText (c :: read)⟩
  | .inEscape read =>
    if c = 'u' then some ⟨lexer.tokens, .inUnit read none 0 0⟩
    else (ofEscape? c).map fun e => ⟨lexer.tokens, .inText (e :: read)⟩
  | .inUnit read high count value =>
    match hexValue? c with
    | none => none
    | some digit =>
      if count < 3 then some ⟨lexer.tokens, .inUnit read high (count + 1) (16 * value + digit)⟩
      else takeUnit lexer.tokens read high (16 * value + digit)
  | .needLow read high =>
    if c = '\\' then some ⟨lexer.tokens, .needLowEscape read high⟩ else none
  | .needLowEscape read high =>
    if c = 'u' then some ⟨lexer.tokens, .inUnit read (some high) 0 0⟩ else none

/-- The tokens at the end of the text, in order; none inside a string. -/
def finish? (lexer : Lexer) : Option (List Token) :=
  match lexer.state with
  | .between => some lexer.tokens.reverse
  | .inAtom read => (Token.ofAtom? read.reverse).map fun token => (token :: lexer.tokens).reverse
  | _ => none

end Lexer

/-- The tokens of a text. -/
def tokens? (cs : List Char) : Option (List Token) :=
  (cs.foldlM Lexer.step Lexer.start).bind Lexer.finish?

end Json

end ScriptStore
