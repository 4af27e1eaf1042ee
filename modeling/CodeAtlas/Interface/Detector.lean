import CodeAtlas.Interface.Rules

/-! Detectors of interfaces and the registry that asks every detector for a file's language. -/

namespace CodeAtlas.Interface

/-- The rules for some languages. -/
structure Detector where
  name : String
  languages : List Language
  rules : List Rule

/-- The detectors in the order in which they are asked. -/
structure Registry where
  detectors : List Detector

namespace Registry

def empty : Registry := ⟨[]⟩

/-- Every known detector. -/
def standard : Registry :=
  ⟨[⟨"python", [.python], Rules.python⟩,
    ⟨"ecmascript", [.typeScript, .javaScript], Rules.script⟩,
    ⟨"go", [.go], Rules.go⟩, ⟨"rust", [.rust], Rules.rust⟩, ⟨"java", [.java], Rules.java⟩]⟩

def detectorsFor (registry : Registry) (language : Language) : List Detector :=
  registry.detectors.filter fun d => d.languages.contains language

def supports (registry : Registry) (language : Language) : Bool :=
  !(registry.detectorsFor language).isEmpty

/-- Adds what is not there yet. -/
def addNew (found : List InterfaceDescriptor) (d : InterfaceDescriptor) :
    List InterfaceDescriptor :=
  if found.contains d then found else found ++ [d]

/-- The interfaces of a file, each once. -/
def extract (registry : Registry) (context : Context) : List InterfaceDescriptor :=
  ((registry.detectorsFor context.language).flatMap fun d => detect d.rules context).foldl
    addNew []

def describe (registry : Registry) : String :=
  let names := registry.detectors.map fun d => "\"" ++ d.name ++ "\""
  "InterfaceRegistry \x7b detectors: [" ++ ", ".intercalate names ++ "] \x7d"

end Registry

end CodeAtlas.Interface
