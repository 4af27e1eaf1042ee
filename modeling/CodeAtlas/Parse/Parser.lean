import CodeAtlas.Error
import CodeAtlas.Tree.Outline
import CodeAtlas.Tree.Problem

/-! Parsers: those that read a syntax tree, and any other function from the bytes of a file to a
reply. A parser may also break down or take too long. -/

namespace CodeAtlas

/-- The reply of a parser. -/
inductive Reply where
  | parsed (outline : Outline)
  | failed (error : ParseError)
  | brokeDown
  | overran

/-- A parser for the files of one language. -/
structure Parser where
  language : Language
  reply : (content : Bytes) → (path : String) → Reply

/-- A grammar: the syntax tree of a content, if one could be made. The path of the file may choose a
dialect. -/
abbrev Grammar := (content : Bytes) → (path : String) → Option Tree.SyntaxTree

/-- The outline of a content by the tree that a grammar makes of it. A content that is no UTF-8 is
refused before that, and a tree with errors after it. -/
def parseTree (language : Language) (grammar : Grammar) (content : Bytes) (path : String) :
    Except ParseError Outline :=
  match Utf8.firstError? content with
  | some offset =>
    .error (.encoding path ("invalid UTF-8 byte sequence at offset " ++ toString offset))
  | none =>
    match Tree.Kinds.ofLanguage? language with
    | none => .error (.grammarNotFound language.name)
    | some kinds =>
      match grammar content path with
      | none => .error (.resource path "parser produced no tree")
      | some tree =>
        if tree.hasError then
          let message := ((tree.root.firstProblem? content).map (·.message)).getD "syntax error"
          .error (.badSyntax path message)
        else .ok (Tree.outline tree.root ⟨language, content, kinds⟩)

/-- The parser of a language by a grammar. -/
def Parser.ofGrammar (language : Language) (grammar : Grammar) : Parser where
  language := language
  reply content path :=
    match parseTree language grammar content path with
    | .ok outline => .parsed outline
    | .error error => .failed error

/-- Runs a parser for at most the given time. -/
def Parser.run (parser : Parser) (content : Bytes) (path : String) (timeoutMillis : Nat) :
    Except ParseError Outline :=
  match parser.reply content path with
  | .parsed outline => .ok outline
  | .failed error => .error error
  | .brokeDown => .error (.panicked path)
  | .overran => .error (.timeout path timeoutMillis)

/-! ## Registries -/

/-- The parsers by language; the latest registration of a language counts. -/
structure Registry where
  parsers : List Parser

namespace Registry

/-- No language has a parser. -/
def empty : Registry := ⟨[]⟩

/-- Every language with a grammar has the parser of that grammar. -/
def standard (grammar : Language → Grammar) : Registry :=
  ⟨(Language.all.filter Language.hasGrammar).map fun language =>
    .ofGrammar language (grammar language)⟩

def register (registry : Registry) (parser : Parser) : Registry :=
  ⟨parser :: registry.parsers⟩

/-- The parser of a language. -/
def get? (registry : Registry) (language : Language) : Option Parser :=
  registry.parsers.find? fun parser => parser.language == language

def supports (registry : Registry) (language : Language) : Bool :=
  (registry.get? language).isSome

def languages (registry : Registry) : List Language :=
  Language.all.filter registry.supports

def describe (registry : Registry) : String :=
  "ParserRegistry \x7b languages: [" ++
    ", ".intercalate (registry.languages.map Language.tag) ++ "] \x7d"

end Registry

end CodeAtlas
