import CodeAtlas.Language
import CodeAtlas.Regex.Basic

/-! The families of patterns by which declarations are found without a parser, one for each
language and one for any language. Patterns of functions and classes keep the `name`; patterns of
imports keep the `source` and, where there are some, the imported `names`. -/

namespace CodeAtlas.Sketch

open Regex

/-- A family of patterns. -/
structure Family where
  functions : List Regex.Pattern
  classes : List Regex.Pattern
  imports : List Regex.Pattern

namespace Family

/-- Functions by `def`, classes by `class`, imports by `import` and `from`. -/
def python : Family where
  functions :=
    [ all [.lineStart, gap, opt (all [lit "async", gap1]), lit "def", gap1, named "name" word,
        gap, lit "("] ]
  classes :=
    [ all [.lineStart, gap, lit "class", gap1, named "name" word] ]
  imports :=
    [ all [.lineStart, gap, lit "from", gap1, named "source" (many1 (wordOr ".")), gap1,
        lit "import", gap1, named "names" (many1 (noneOf "\n#"))],
      all [.lineStart, gap, lit "import", gap1, named "source" (many1 (wordOr "."))] ]

/-- Functions by `function` and arrows, classes and interfaces, imports by `import` and
`require`. -/
def script : Family where
  functions :=
    [ all [.lineStart, gap, opt (all [lit "export", gap1]), opt (all [lit "default", gap1]),
        opt (all [lit "async", gap1]), lit "function", opt (lit "*"), gap1, named "name" word],
      all [.lineStart, gap, opt (all [lit "export", gap1]), anyLit ["const", "let", "var"], gap1,
        named "name" word, gap, opt (all [lit ":", many1 (noneOf "=\n")]), lit "=", gap,
        opt (all [lit "async", gap]), any [all [lit "(", .many (noneOf ")\n"), lit ")"], word],
        gap, opt (all [lit ":", many1 (noneOf "=\n")]), lit "=>"] ]
  classes :=
    [ all [.lineStart, gap, opt (all [lit "export", gap1]), opt (all [lit "default", gap1]),
        opt (all [lit "abstract", gap1]), anyLit ["class", "interface"], gap1, named "name" word] ]
  imports :=
    [ all [.lineStart, gap, lit "import", gap1, opt (all [opt (all [lit "type", gap1]),
        named "names" (few1 (noneOf "'\"\n")), gap1, lit "from", gap1]), .char (oneOf "'\""),
        named "source" (many1 (noneOf "'\"\n")), .char (oneOf "'\"")],
      all [lit "require(", spaces, .char (oneOf "'\""), named "source" (many1 (noneOf "'\"\n")),
        .char (oneOf "'\""), spaces, lit ")"] ]

/-- Functions by `func`, types by `type`, imports alone or in a block. -/
def go : Family where
  functions :=
    [ all [.lineStart, lit "func", gap1, opt (all [lit "(", .many (noneOf ")\n"), lit ")", gap]),
        named "name" word] ]
  classes :=
    [ all [.lineStart, gap, lit "type", gap1, named "name" word, gap1, anyLit ["struct",
        "interface"], .wordEdge] ]
  imports :=
    [ all [.lineStart, gap, lit "import", gap1, opt (all [word, gap1]), lit "\"",
        named "source" (many1 (noneOf "\"\n")), lit "\""],
      all [.lineStart, gap1, opt (all [many1 (wordOr "."), gap1]), lit "\"",
        named "source" (many1 (noneOf "\"\n")), lit "\"", gap, .lineEnd] ]

/-- Functions by `fn`, types by `struct`, `enum` and `trait`, imports by `use`. -/
def rust : Family where
  functions :=
    [ all [.lineStart, gap, opt (all [lit "pub", opt (all [lit "(", .many (noneOf ")\n"),
        lit ")"]), gap1]), opt (all [lit "const", gap1]), opt (all [lit "async", gap1]),
        opt (all [lit "unsafe", gap1]), lit "fn", gap1, named "name" word] ]
  classes :=
    [ all [.lineStart, gap, opt (all [lit "pub", opt (all [lit "(", .many (noneOf ")\n"),
        lit ")"]), gap1]), anyLit ["struct", "enum", "trait"], gap1, named "name" word] ]
  imports :=
    [ all [.lineStart, gap, opt (all [lit "pub", gap1]), lit "use", gap1,
        named "source" (many1 (wordOr ":")), opt (all [lit "::\x7b",
        named "names" (.many (noneOf "\x7d\n")), lit "\x7d"])] ]

/-- Methods by a type, a name, parameters and an opening brace. -/
def java : Family where
  functions :=
    [ all [.lineStart, gap, .star (all [anyLit ["public", "private", "protected", "static",
        "final", "abstract", "synchronized"], gap1]), many1 (wordOr "<>[],"), gap1,
        named "name" word, gap, lit "(", .many (noneOf ")\n"), lit ")", gap,
        opt (all [lit "throws", gap1, many1 (wordOr "., ")]), lit "\x7b"] ]
  classes :=
    [ all [.lineStart, gap, .star (all [anyLit ["public", "private", "protected", "static",
        "final", "abstract"], gap1]), anyLit ["class", "interface", "enum", "record"], gap1,
        named "name" word] ]
  imports :=
    [ all [.lineStart, gap, lit "import", gap1, opt (all [lit "static", gap1]),
        named "source" (all [many1 (wordOr "."), opt (lit ".*")]), gap, lit ";"] ]

/-- Functions by `fun`, with type parameters or a receiver in front of the name. -/
def kotlin : Family where
  functions :=
    [ all [.lineStart, gap, .star (all [anyLit ["public", "private", "internal", "protected",
        "override", "suspend", "inline", "open"], gap1]), lit "fun", gap1, opt (all [lit "<",
        many1 (noneOf ">\n"), lit ">", gap]), opt (all [word, lit "."]), named "name" word] ]
  classes :=
    [ all [.lineStart, gap, .star (all [anyLit ["public", "private", "internal", "data", "sealed",
        "open", "abstract", "enum"], gap1]), anyLit ["class", "interface", "object"], gap1,
        named "name" word] ]
  imports :=
    [ all [.lineStart, gap, lit "import", gap1, named "source" (all [.many (wordOr "."),
        .char wordClass, opt (lit ".*")])] ]

/-- Methods by `def`, classes and modules, imports by `require`. -/
def ruby : Family where
  functions :=
    [ all [.lineStart, gap, lit "def", gap1, opt (lit "self."),
        named "name" (many1 (wordOr "?!"))] ]
  classes :=
    [ all [.lineStart, gap, anyLit ["class", "module"], gap1, named "name" (many1 (wordOr ":"))] ]
  imports :=
    [ all [.lineStart, gap, lit "require", opt (lit "_relative"), many1 (oneOf " \t("),
        .char (oneOf "'\""), named "source" (many1 (noneOf "'\"\n")), .char (oneOf "'\"")] ]

/-- Functions by `function`, types, imports by `use`, `require` and `include`. -/
def php : Family where
  functions :=
    [ all [.lineStart, gap, .star (all [anyLit ["public", "private", "protected", "static",
        "abstract", "final"], gap1]), lit "function", gap1, named "name" word] ]
  classes :=
    [ all [.lineStart, gap, opt (all [anyLit ["abstract", "final"], gap1]), anyLit ["class",
        "interface", "trait"], gap1, named "name" word] ]
  imports :=
    [ all [.lineStart, gap, lit "use", gap1, named "source" (many1 (wordOr "\\"))],
      all [anyLit ["require", "include"], opt (lit "_once"), many1 (oneOf " \t("),
        .char (oneOf "'\""), named "source" (many1 (noneOf "'\"\n")), .char (oneOf "'\"")] ]

/-- Methods by at least one modifier, a type, a name and a parenthesis. -/
def cSharp : Family where
  functions :=
    [ all [.lineStart, gap, star1 (all [anyLit ["public", "private", "protected", "internal",
        "static", "virtual", "override", "async", "abstract", "sealed"], gap1]),
        many1 (wordOr "<>[],?"), gap1, named "name" word, gap, lit "("] ]
  classes :=
    [ all [.lineStart, gap, .star (all [anyLit ["public", "private", "protected", "internal",
        "static", "abstract", "sealed", "partial"], gap1]), anyLit ["class", "interface",
        "struct", "record", "enum"], gap1, named "name" word] ]
  imports :=
    [ all [.lineStart, gap, lit "using", gap1, opt (all [lit "static", gap1]),
        named "source" (many1 (wordOr ".")), gap, lit ";"] ]

/-- Declarations by words that many languages share, and callables by an opening brace. -/
def generic : Family where
  functions :=
    [ all [.lineStart, gap, .star (all [word, gap1]), anyLit ["function", "def", "func", "fn",
        "fun"], gap1, named "name" word],
      all [.lineStart, gap, many1 (wordOr "<>[]"), gap1, named "name" word, gap, lit "(",
        .many (noneOf ")\n"), lit ")", gap, lit "\x7b"] ]
  classes :=
    [ all [.lineStart, gap, .star (all [word, gap1]), anyLit ["class", "struct", "interface",
        "trait"], gap1, named "name" word] ]
  imports :=
    [ all [.lineStart, gap, anyLit ["import", "use", "using", "require", "include"],
        many1 (oneOf " \t("), opt (.char (oneOf "'\"")),
        named "source" (many1 (wordOr "./:\\@-"))] ]

/-- The family of a language. -/
def ofLanguage : Language → Family
  | .python => python
  | .typeScript | .javaScript => script
  | .go => go
  | .rust => rust
  | .java => java
  | .kotlin => kotlin
  | .ruby => ruby
  | .php => php
  | .cSharp => cSharp

end Family

end CodeAtlas.Sketch
