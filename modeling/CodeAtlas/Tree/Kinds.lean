import CodeAtlas.Language

/-! The kinds of nodes by which each grammar marks declarations, imports and decisions. -/

namespace CodeAtlas.Tree

/-- The kinds of one grammar. The functions in an `impl` belong to a type that is declared
elsewhere; a decision counts towards the complexity of its function. -/
structure Kinds where
  functions : List String
  classes : List String
  impls : List String
  imports : List String
  decisions : List String
  deriving Repr, DecidableEq

namespace Kinds

def scriptFunctions : List String :=
  ["function_declaration", "generator_function_declaration", "method_definition",
    "arrow_function", "function_expression"]

def scriptDecisions : List String :=
  ["if_statement", "for_statement", "for_in_statement", "while_statement", "do_statement",
    "switch_case", "catch_clause", "ternary_expression"]

/-- The kinds of a language's grammar, if it has one. -/
def ofLanguage? : Language → Option Kinds
  | .typeScript => some
    { functions := scriptFunctions
      classes := ["class_declaration", "abstract_class_declaration", "interface_declaration"]
      impls := []
      imports := ["import_statement", "call_expression"]
      decisions := scriptDecisions }
  | .javaScript => some
    { functions := scriptFunctions
      classes := ["class_declaration"]
      impls := []
      imports := ["import_statement", "call_expression"]
      decisions := scriptDecisions }
  | .python => some
    { functions := ["function_definition"]
      classes := ["class_definition"]
      impls := []
      imports := ["import_statement", "import_from_statement"]
      decisions := ["if_statement", "elif_clause", "for_statement", "while_statement",
        "except_clause", "conditional_expression", "case_clause"] }
  | .go => some
    { functions := ["function_declaration", "method_declaration", "func_literal"]
      classes := ["type_spec"]
      impls := []
      imports := ["import_spec"]
      decisions := ["if_statement", "for_statement", "expression_case", "type_case",
        "communication_case"] }
  | .rust => some
    { functions := ["function_item", "function_signature_item"]
      classes := ["struct_item", "enum_item", "trait_item"]
      impls := ["impl_item"]
      imports := ["use_declaration"]
      decisions := ["if_expression", "match_arm", "while_expression", "for_expression",
        "loop_expression"] }
  | .java => some
    { functions := ["method_declaration", "constructor_declaration"]
      classes := ["class_declaration", "interface_declaration", "enum_declaration",
        "record_declaration"]
      impls := []
      imports := ["import_declaration"]
      decisions := ["if_statement", "for_statement", "enhanced_for_statement",
        "while_statement", "do_statement", "switch_label", "catch_clause",
        "ternary_expression"] }
  | .kotlin | .ruby | .php | .cSharp => none

def toJson (kinds : Kinds) : Json :=
  .obj [("functions", .strs kinds.functions), ("classes", .strs kinds.classes),
    ("impls", .strs kinds.impls), ("imports", .strs kinds.imports),
    ("decisions", .strs kinds.decisions)]

end Kinds

end CodeAtlas.Tree
