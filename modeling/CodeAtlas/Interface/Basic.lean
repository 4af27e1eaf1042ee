import CodeAtlas.Json.Record

/-! Interfaces between processes that a file provides or consumes. -/

namespace CodeAtlas

/-- A family of interfaces. -/
inductive InterfaceType where
  | rest
  | graphql
  | grpc
  | messageQueue
  | websocket
  deriving Repr, DecidableEq, Inhabited

namespace InterfaceType

def all : List InterfaceType := [rest, graphql, grpc, messageQueue, websocket]

def tag : InterfaceType → String
  | rest => "rest"
  | graphql => "graphql"
  | grpc => "grpc"
  | messageQueue => "message-queue"
  | websocket => "websocket"

def ofTag? (tag : String) : Option InterfaceType :=
  all.find? fun type => type.tag == tag

end InterfaceType

/-- The side of an interface on which a file stands: it serves it or calls it. -/
inductive InterfaceRole where
  | provider
  | consumer
  deriving Repr, DecidableEq, Inhabited

namespace InterfaceRole

def all : List InterfaceRole := [provider, consumer]

def tag : InterfaceRole → String
  | provider => "provider"
  | consumer => "consumer"

def ofTag? (tag : String) : Option InterfaceRole :=
  all.find? fun role => role.tag == tag

end InterfaceRole

/-- An interface that one file provides or consumes. The properties are told apart by name. -/
structure InterfaceDescriptor where
  language : Language
  file : String
  type : InterfaceType
  framework : String
  role : InterfaceRole
  name : Option String
  path : Option String
  properties : List (String × String)
  deriving Repr, DecidableEq

namespace InterfaceDescriptor

def toJson (d : InterfaceDescriptor) : Json :=
  .obj [("language", .ofLanguage d.language), ("file", .str d.file),
    ("interface_type", .str d.type.tag), ("framework", .str d.framework),
    ("role", .str d.role.tag), ("name", .ofOption .str d.name),
    ("path", .ofOption .str d.path),
    ("properties", .obj (d.properties.map fun p => (p.1, .str p.2)))]

def properties? : Json → Option (List (String × String))
  | .obj fields => fields.mapM fun f => f.2.str?.map (f.1, ·)
  | _ => none

def ofJson? (value : Json) : Option InterfaceDescriptor := do
  let fields ← value.record?
    ["language", "file", "interface_type", "framework", "role", "name", "path", "properties"]
  return {
    language := ← fields.get "language" Json.language?
    file := ← fields.get "file" Json.str?
    type := ← fields.get "interface_type" (Json.tagged? InterfaceType.ofTag?)
    framework := ← fields.get "framework" Json.str?
    role := ← fields.get "role" (Json.tagged? InterfaceRole.ofTag?)
    name := ← fields.opt "name" Json.str?
    path := ← fields.opt "path" Json.str?
    properties := ← fields.get "properties" properties? }

end InterfaceDescriptor

end CodeAtlas
