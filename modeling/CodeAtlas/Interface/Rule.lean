import CodeAtlas.Interface.Basic
import CodeAtlas.Regex.Match
import CodeAtlas.Text.Cased

/-! Rules that recognise an interface on a line. A rule may ask for a marker that has to occur
somewhere in the file or in the sources of its imports. -/

namespace CodeAtlas.Interface

open Regex

/-- A rule. Its pattern may keep a `path`, a `name`, a `method` or a list of `methods`. -/
structure Rule where
  pattern : Regex.Pattern
  type : InterfaceType
  role : InterfaceRole
  framework : String
  marker : Option String

/-- A file in which interfaces are looked for, with the sources of its imports. -/
structure Context where
  file : String
  language : Language
  content : Text
  imports : List String

/-- A marker occurs in the content or in the source of an import. -/
def Context.mentions (context : Context) (marker : String) : Bool :=
  context.content.contains marker.toList ||
    context.imports.any fun source => Text.contains source.toList marker.toList

def Rule.applies (rule : Rule) (context : Context) : Bool :=
  rule.marker.all context.mentions

/-! ## What a match says -/

/-- The characters up to the first upper-case one behind a lower-case one. -/
def firstHump : Bool → Text → Text
  | _, [] => []
  | afterLower, c :: rest =>
    if afterLower && Text.isUppercase c then [] else c :: firstHump (Text.isLowercase c) rest

/-- The verb that a name such as `getForObject` stands for. -/
def methodVerb (raw : Text) : String :=
  let verb := String.ofList (Text.uppercase (firstHump false raw))
  if ["REQUEST", "ALL", "ANY", "EXCHANGE"].contains verb then "ANY" else verb

/-- A method in a list, without blanks and quotes around it, in upper case. -/
def listedMethod (raw : Text) : Text :=
  let isQuote := fun c => c == '\'' || c == '"'
  Text.uppercase (Text.dropTail isQuote (raw.trim.dropWhile isQuote))

/-- The methods of a list, joined by commas, if it has any. -/
def listedMethods? (raw : Text) : Option String :=
  let methods := ((Text.splitWhere (· == ',') raw).map listedMethod).filter fun m => !m.isEmpty
  if methods.isEmpty then none else some (String.ofList (Text.join [','] methods))

/-- The verb in front of a path, if the path starts with one, and the path behind it. -/
def qualified? (path : Text) : Option (String × Text) :=
  match path.cut? ' ' with
  | some (verb, rest) =>
    if !verb.isEmpty && verb.all Char.isUpper then some (String.ofList verb, rest.trim) else none
  | none => none

/-- The method and the path that a match gives: a verb in front of the path counts more than a
list of methods, and that more than a single one. -/
def endpoint (captures : Captures) : Option String × Option Text :=
  let path := (captures.get? "path").map fun c => c.text.trim
  let method := (captures.get? "method").map fun c => methodVerb c.text
  let listed := ((captures.get? "methods").bind fun c => listedMethods? c.text).orElse
    fun _ => method
  match path.bind qualified? with
  | some (verb, rest) => (some verb, some rest)
  | none => (listed, path)

/-- The interface that a match on a line shows. -/
def Rule.describe (rule : Rule) (context : Context) (line : Nat) (captures : Captures) :
    InterfaceDescriptor :=
  let (method, path) := endpoint captures
  { language := context.language
    file := context.file
    type := rule.type
    framework := rule.framework
    role := rule.role
    name := (captures.get? "name").map fun c => String.ofList c.text
    path := path.map String.ofList
    properties := ("line", toString line) :: (method.map fun m => ("method", m)).toList }

/-- The interfaces on one line, in the order of the rules. -/
def onLine (rules : List Rule) (context : Context) (line : Text × Nat) :
    List InterfaceDescriptor :=
  rules.flatMap fun rule =>
    (findAll rule.pattern line.1).map (rule.describe context (line.2 + 1))

/-- The interfaces of a file, in the order of its lines. -/
def detect (rules : List Rule) (context : Context) : List InterfaceDescriptor :=
  let active := rules.filter fun rule => rule.applies context
  context.content.lines.zipIdx.flatMap (onLine active context)

end CodeAtlas.Interface
