import CodeAtlas.Json

/-! The languages that files are told apart by, with their names and file extensions. -/

namespace CodeAtlas

/-- A known language. -/
inductive Language where
  | typeScript
  | javaScript
  | python
  | go
  | rust
  | java
  | kotlin
  | ruby
  | php
  | cSharp
  deriving Repr, DecidableEq, Inhabited

namespace Language

/-- Every language, in order. -/
def all : List Language :=
  [typeScript, javaScript, python, go, rust, java, kotlin, ruby, php, cSharp]

/-- The place of a language in that order. -/
def rank : Language → Nat
  | typeScript => 0
  | javaScript => 1
  | python => 2
  | go => 3
  | rust => 4
  | java => 5
  | kotlin => 6
  | ruby => 7
  | php => 8
  | cSharp => 9

/-- The extensions of a language's files, without the dot. -/
def extensions : Language → List String
  | typeScript => ["ts", "tsx", "mts", "cts"]
  | javaScript => ["js", "jsx", "mjs", "cjs"]
  | python => ["py", "pyi"]
  | go => ["go"]
  | rust => ["rs"]
  | java => ["java"]
  | kotlin => ["kt", "kts"]
  | ruby => ["rb", "rake", "gemspec"]
  | php => ["php"]
  | cSharp => ["cs"]

/-- The stable identifier in lower case. -/
def id : Language → String
  | typeScript => "typescript"
  | javaScript => "javascript"
  | python => "python"
  | go => "go"
  | rust => "rust"
  | java => "java"
  | kotlin => "kotlin"
  | ruby => "ruby"
  | php => "php"
  | cSharp => "csharp"

/-- The name for readers. -/
def name : Language → String
  | typeScript => "TypeScript"
  | javaScript => "JavaScript"
  | python => "Python"
  | go => "Go"
  | rust => "Rust"
  | java => "Java"
  | kotlin => "Kotlin"
  | ruby => "Ruby"
  | php => "PHP"
  | cSharp => "C#"

/-- The tag that stands for a language in records. -/
def tag : Language → String
  | php => "Php"
  | cSharp => "CSharp"
  | language => language.name

def ofTag? (tag : String) : Option Language :=
  all.find? fun language => language.tag == tag

/-- A text with its ASCII letters in lower case. -/
def lowered (text : String) : String :=
  String.ofList (text.toList.map Char.toLower)

/-- The language of files with a given extension, in any case of its letters. -/
def ofExtension? (extension : String) : Option Language :=
  all.find? fun language => language.extensions.contains (lowered extension)

/-- The language with a given identifier or name, in any case of its letters. -/
def ofName? (name : String) : Option Language :=
  all.find? fun language =>
    lowered language.id == lowered name || lowered language.name == lowered name

/-- The languages whose syntax trees can be read. -/
def hasGrammar : Language → Bool
  | typeScript | javaScript | python | go | rust | java => true
  | kotlin | ruby | php | cSharp => false

/-- Two languages that share one grammar family for scripts. -/
def isScript : Language → Bool
  | typeScript | javaScript => true
  | _ => false

end Language

end CodeAtlas
