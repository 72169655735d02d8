/-
# Malformed JSON text

* `Malformed` — the ways in which a text fails to be JSON, as they are found reading from left to
  right.
* `Malformed.message` — their wording.
-/
namespace Quarry.Json

/-- What is wrong with a JSON text at the place where reading it stops. -/
inductive Malformed where
  /-- The text ends where a value should be. -/
  | eofValue
  /-- The text ends inside a string. -/
  | eofString
  /-- The text ends inside an array. -/
  | eofList
  /-- The text ends inside an object. -/
  | eofObject
  /-- Something that starts no value stands where a value should be. -/
  | expectedValue
  /-- A word that starts like `null`, `true` or `false` goes on differently. -/
  | expectedWord
  /-- No colon follows a key. -/
  | expectedColon
  /-- Neither a comma nor a closing bracket follows an element. -/
  | expectedCommaOrBracket
  /-- Neither a comma nor a closing brace follows a member. -/
  | expectedCommaOrBrace
  /-- A comma stands before a closing bracket or brace. -/
  | trailingComma
  /-- Something follows a complete value. -/
  | trailingCharacters
  /-- A member does not start with a string. -/
  | keyNotString
  /-- A number is not written as numbers are. -/
  | invalidNumber
  /-- A number is too large for a floating point number. -/
  | numberOutOfRange
  /-- A backslash is followed by something that makes no escape. -/
  | invalidEscape
  /-- The second escape of a surrogate pair is missing. -/
  | missingSurrogate
  /-- A surrogate stands alone. -/
  | loneSurrogate
  /-- A control character stands unescaped in a string. -/
  | controlCharacter
  /-- The bytes of a string are not UTF-8. -/
  | invalidCodePoint
  /-- Arrays and objects are nested too deeply. -/
  | tooDeep
  deriving DecidableEq, Repr

/-- The message for a malformed text. -/
def Malformed.message : Malformed → String
  | .eofValue => "EOF while parsing a value"
  | .eofString => "EOF while parsing a string"
  | .eofList => "EOF while parsing a list"
  | .eofObject => "EOF while parsing an object"
  | .expectedValue => "expected value"
  | .expectedWord => "expected ident"
  | .expectedColon => "expected `:`"
  | .expectedCommaOrBracket => "expected `,` or `]`"
  | .expectedCommaOrBrace => "expected `,` or `\x7d`"
  | .trailingComma => "trailing comma"
  | .trailingCharacters => "trailing characters"
  | .keyNotString => "key must be a string"
  | .invalidNumber => "invalid number"
  | .numberOutOfRange => "number out of range"
  | .invalidEscape => "invalid escape"
  | .missingSurrogate => "unexpected end of hex escape"
  | .loneSurrogate => "lone leading surrogate in hex escape"
  | .controlCharacter => "control character (\\u0000-\\u001F) found while parsing a string"
  | .invalidCodePoint => "invalid unicode code point"
  | .tooDeep => "recursion limit exceeded"

end Quarry.Json
