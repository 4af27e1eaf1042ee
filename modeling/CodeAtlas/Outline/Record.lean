import CodeAtlas.Json.Record
import CodeAtlas.Outline.Basic

/-! Outlines as JSON records. -/

namespace CodeAtlas

namespace FunctionDecl

def toJson (f : FunctionDecl) : Json :=
  .obj [("name", .str f.name), ("line", .ofNat f.line), ("complexity", .ofNat f.complexity),
    ("is_exported", .bool f.exported)]

def ofJson? (value : Json) : Option FunctionDecl := do
  let fields ← value.record? ["name", "line", "complexity", "is_exported"]
  return ⟨← fields.get "name" Json.str?, ← fields.get "line" Json.word32?,
    ← fields.get "complexity" Json.word32?, ← fields.get "is_exported" Json.bool?⟩

end FunctionDecl

namespace ClassDecl

def toJson (c : ClassDecl) : Json :=
  .obj [("name", .str c.name), ("methods", .strs c.methods), ("line", .ofNat c.line),
    ("is_exported", .bool c.exported)]

def ofJson? (value : Json) : Option ClassDecl := do
  let fields ← value.record? ["name", "methods", "line", "is_exported"]
  return ⟨← fields.get "name" Json.str?, ← fields.get "methods" Json.strings?,
    ← fields.get "line" Json.word32?, ← fields.get "is_exported" Json.bool?⟩

end ClassDecl

namespace ImportDecl

def toJson (i : ImportDecl) : Json :=
  .obj [("source", .str i.source), ("kind", .str i.kind.tag), ("names", .strs i.names),
    ("line", .ofNat i.line)]

def ofJson? (value : Json) : Option ImportDecl := do
  let fields ← value.record? ["source", "kind", "names", "line"]
  return ⟨← fields.get "source" Json.str?, ← fields.get "kind" (Json.tagged? ImportKind.ofTag?),
    ← fields.get "names" Json.strings?, ← fields.get "line" Json.word32?⟩

end ImportDecl

namespace Outline

def toJson (outline : Outline) : Json :=
  .obj [("functions", .arr (outline.functions.map FunctionDecl.toJson)),
    ("classes", .arr (outline.classes.map ClassDecl.toJson)),
    ("imports", .arr (outline.imports.map ImportDecl.toJson)),
    ("complexity", .ofNat outline.complexity), ("ast", outline.summary.getD .null)]

def ofJson? (value : Json) : Option Outline := do
  let fields ← value.record? ["functions", "classes", "imports", "complexity", "ast"]
  return ⟨← fields.get "functions" (Json.list? FunctionDecl.ofJson?),
    ← fields.get "classes" (Json.list? ClassDecl.ofJson?),
    ← fields.get "imports" (Json.list? ImportDecl.ofJson?),
    ← fields.get "complexity" Json.word32?, ← fields.opt "ast" some⟩

end Outline

end CodeAtlas
