import CodeAtlas.Text.Basic

/-! Kinds of parse failures. A failure is told apart by words in the parser's message; where the
message only speaks of syntax, the content decides. -/

namespace CodeAtlas.Repair

/-- The kind of a parse failure. -/
inductive Fault where
  | bracketMismatch
  | quoteMismatch
  | missingSemicolon
  | encodingError
  | resourceError
  | timeoutError
  | parseError
  | unknownError
  deriving Repr, DecidableEq, Inhabited

namespace Fault

def all : List Fault :=
  [bracketMismatch, quoteMismatch, missingSemicolon, encodingError, resourceError, timeoutError,
    parseError, unknownError]

def tag : Fault → String
  | bracketMismatch => "bracket_mismatch"
  | quoteMismatch => "quote_mismatch"
  | missingSemicolon => "missing_semicolon"
  | encodingError => "encoding_error"
  | resourceError => "resource_error"
  | timeoutError => "timeout_error"
  | parseError => "parse_error"
  | unknownError => "unknown_error"

def ofTag? (tag : String) : Option Fault :=
  all.find? fun fault => fault.tag == tag

end Fault

/-! ## Balance -/

/-- The pairs of brackets, innermost first. -/
def bracketPairs : List (Char × Char) := [('[', ']'), ('(', ')'), ('\x7b', '\x7d')]

/-- Some kind of bracket opens more or less often than it closes. -/
def hasUnbalancedBrackets (text : Text) : Bool :=
  bracketPairs.any fun pair => text.count pair.1 != text.count pair.2

def quotes : List Char := ['"', '\'']

/-- Some quote stands in the text an odd number of times. -/
def hasOddQuotes (text : Text) : Bool :=
  quotes.any fun quote => text.count quote % 2 == 1

/-! ## Classification -/

/-- A character in lower case, as far as a search for ASCII words can tell: two letters outside
ASCII have an ASCII letter in their lower-case form. -/
def searchFold (c : Char) : List Char :=
  if c.toNat = 0x212A then ['k']
  else if c.toNat = 0x130 then ['i', Char.ofNat 0x307]
  else [c.toLower]

def encodingWords : List String :=
  ["encoding", "utf-8", "utf8", "unicode", "decode", "invalid byte", "charset"]

def timeoutWords : List String := ["timeout", "timed out", "deadline"]

def resourceWords : List String :=
  ["memory", "resource", "stack overflow", "too large", "limit exceeded", "allocation"]

def syntaxWords : List String :=
  ["syntax", "unexpected", "expected", "unterminated", "unclosed", "unmatched", "missing",
    "token"]

def parseWords : List String := ["parse", "parser", "grammar", "panicked"]

def quoteWords : List String :=
  ["quote", "string literal", "unterminated string", "\"", "'", "\x60"]

def bracketWords : List String :=
  ["bracket", "brace", "paren", "\x7b", "\x7d", "(", ")", "[", "]", "end of input",
    "end of file", "eof"]

def semicolonWords : List String := ["semicolon", ";"]

/-- The kind of a failure whose message, in lower case, speaks of syntax. -/
def classifySyntax (message content : Text) : Fault :=
  if message.containsAny quoteWords then .quoteMismatch
  else if message.containsAny bracketWords then .bracketMismatch
  else if message.containsAny semicolonWords then .missingSemicolon
  else if hasUnbalancedBrackets content then .bracketMismatch
  else if hasOddQuotes content then .quoteMismatch
  else .parseError

/-- The kind of a failure with a given message on a given content. -/
def classify (message : String) (content : Text) : Fault :=
  let message : Text := message.toList.flatMap searchFold
  if message.containsAny encodingWords then .encodingError
  else if message.containsAny timeoutWords then .timeoutError
  else if message.containsAny resourceWords then .resourceError
  else if message.containsAny syntaxWords then classifySyntax message content
  else if message.containsAny parseWords then .parseError
  else .unknownError

end CodeAtlas.Repair
