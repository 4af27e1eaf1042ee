import CodeAtlas.Interface.Rule

/-! The rules by which interfaces are recognised, for each family of languages that has some. -/

namespace CodeAtlas.Interface.Rules

open Regex

/-- Routes of web frameworks, HTTP clients, services and stubs, task queues and schemas. -/
def python : List Rule :=
  [ ⟨all [lit "@", word, lit ".route(", spaces, .char (oneOf "'\""),
      named "path" (many1 (noneOf "'\"")), .char (oneOf "'\""), opt (all [.many (noneOf ")"),
      lit "methods", spaces, lit "=", spaces, .char (oneOf "[("),
      named "methods" (.many (noneOf "])")), .char (oneOf "])")])],
      .rest, .provider, "flask", none⟩,
    ⟨all [lit "@", word, lit ".", named "method" (anyLit ["get", "post", "put", "delete",
      "patch"]), lit "(", spaces, .char (oneOf "'\""), named "path" (many1 (noneOf "'\"")),
      .char (oneOf "'\"")],
      .rest, .provider, "fastapi", none⟩,
    ⟨all [lit "@", word, lit ".websocket(", spaces, .char (oneOf "'\""),
      named "path" (many1 (noneOf "'\"")), .char (oneOf "'\"")],
      .websocket, .provider, "fastapi", none⟩,
    ⟨all [.wordEdge, opt (lit "re_"), lit "path(", spaces, opt (lit "r"), .char (oneOf "'\""),
      opt (lit "^"), named "path" (many1 (noneOf "'\"$"))],
      .rest, .provider, "django", some "urlpatterns"⟩,
    ⟨all [.wordEdge, anyLit ["requests", "httpx", "session", "client"], lit ".",
      named "method" (anyLit ["get", "post", "put", "delete", "patch"]), lit "(", spaces,
      opt (lit "f"), .char (oneOf "'\""), named "path" (many1 (noneOf "'\"")),
      .char (oneOf "'\"")],
      .rest, .consumer, "requests", none⟩,
    ⟨all [lit "class", spaces1, named "name" word, lit "(", spaces, .many (wordOr "."),
      lit "Servicer", spaces, lit ")"],
      .grpc, .provider, "grpcio", none⟩,
    ⟨all [.wordEdge, named "name" word, lit "Stub(", spaces, word],
      .grpc, .consumer, "grpcio", some "grpc"⟩,
    ⟨all [lit "@", opt (all [word, lit "."]), anyLit ["task", "shared_task"], .wordEdge],
      .messageQueue, .provider, "celery", some "celery"⟩,
    ⟨all [lit "KafkaConsumer(", spaces, .char (oneOf "'\""), named "name" (many1 (noneOf "'\"")),
      .char (oneOf "'\"")],
      .messageQueue, .consumer, "kafka", none⟩,
    ⟨all [lit ".send(", spaces, .char (oneOf "'\""), named "name" (many1 (noneOf "'\"")),
      .char (oneOf "'\"")],
      .messageQueue, .provider, "kafka", some "KafkaProducer"⟩,
    ⟨all [lit "class", spaces1, named "name" word, lit "(", spaces, lit "graphene.ObjectType",
      spaces, lit ")"],
      .graphql, .provider, "graphene", none⟩,
    ⟨all [lit "@strawberry.type", .wordEdge],
      .graphql, .provider, "strawberry", none⟩ ]

/-- Routes and servers, `fetch` and other clients, queries, sockets and services. -/
def script : List Rule :=
  [ ⟨all [.wordEdge, anyLit ["app", "router", "server", "api", "route", "routes"], lit ".",
      named "method" (anyLit ["get", "post", "put", "delete", "patch", "all"]), lit "(", spaces,
      .char (oneOf "'\"\x60"), named "path" (all [lit "/", .many (noneOf "'\"\x60")]),
      .char (oneOf "'\"\x60")],
      .rest, .provider, "express", none⟩,
    ⟨all [.wordEdge, lit "fastify.", named "method" (anyLit ["get", "post", "put", "delete",
      "patch"]), lit "(", spaces, .char (oneOf "'\"\x60"), named "path" (all [lit "/",
      .many (noneOf "'\"\x60")]), .char (oneOf "'\"\x60")],
      .rest, .provider, "fastify", none⟩,
    ⟨all [.wordEdge, lit "fetch(", spaces, .char (oneOf "'\"\x60"),
      named "path" (many1 (noneOf "'\"\x60")), .char (oneOf "'\"\x60")],
      .rest, .consumer, "fetch", none⟩,
    ⟨all [.wordEdge, lit "axios", opt (all [lit ".", named "method" (anyLit ["get", "post", "put",
      "delete", "patch"])]), lit "(", spaces, .char (oneOf "'\"\x60"),
      named "path" (many1 (noneOf "'\"\x60")), .char (oneOf "'\"\x60")],
      .rest, .consumer, "axios", none⟩,
    ⟨all [.wordEdge, lit "new", spaces1, anyLit ["ApolloServer", "GraphQLServer",
      "GraphQLSchema"], .wordEdge],
      .graphql, .provider, "apollo", none⟩,
    ⟨all [.wordEdge, anyLit ["buildSchema", "createSchema", "makeExecutableSchema"], lit "("],
      .graphql, .provider, "graphql-tools", none⟩,
    ⟨all [.wordEdge, anyLit ["useQuery", "useMutation", "useSubscription"], lit "(", spaces,
      named "name" word],
      .graphql, .consumer, "apollo-client", none⟩,
    ⟨all [.wordEdge, lit "new", spaces1, lit "WebSocket(", spaces, .char (oneOf "'\"\x60"),
      named "path" (many1 (noneOf "'\"\x60")), .char (oneOf "'\"\x60")],
      .websocket, .consumer, "websocket", none⟩,
    ⟨all [.wordEdge, lit "new", spaces1, anyLit ["WebSocketServer", "WebSocket.Server"], lit "("],
      .websocket, .provider, "ws", none⟩,
    ⟨all [.wordEdge, lit "io.on(", spaces, .char (oneOf "'\""), lit "connection",
      .char (oneOf "'\"")],
      .websocket, .provider, "socket.io", none⟩,
    ⟨all [lit ".addService(", spaces, named "name" (many1 (wordOr "."))],
      .grpc, .provider, "grpc-js", some "grpc"⟩,
    ⟨all [.wordEdge, lit "new", spaces1, .star (all [word, lit "."]), named "name" word, lit "(",
      .many (noneOf ")"), lit "grpc.credentials"],
      .grpc, .consumer, "grpc-js", none⟩ ]

/-- A call on a router that is named for the method. -/
def routerCall : Regex.Pattern :=
  all [.wordEdge, word, lit ".", named "method" (anyLit ["GET", "POST", "PUT", "DELETE", "PATCH",
    "Any"]), lit "(", spaces, lit "\"", named "path" (many1 (noneOf "\"")), lit "\""]

/-- Handlers and routes, registrations and clients of services, outbound requests. -/
def go : List Rule :=
  [ ⟨all [.wordEdge, anyLit ["http", "mux", "r", "router", "m"], lit ".Handle", opt (lit "Func"),
      lit "(", spaces, lit "\"", named "path" (many1 (noneOf "\"")), lit "\""],
      .rest, .provider, "net/http", none⟩,
    ⟨routerCall,
      .rest, .provider, "gin", some "gin-gonic"⟩,
    ⟨routerCall,
      .rest, .provider, "echo", some "labstack/echo"⟩,
    ⟨all [.wordEdge, lit "Register", named "name" word, lit "Server("],
      .grpc, .provider, "grpc-go", none⟩,
    ⟨all [.wordEdge, lit "New", named "name" word, lit "Client(", spaces, .many wordClass,
      .char (oneOf "cC"), lit "onn"],
      .grpc, .consumer, "grpc-go", some "grpc"⟩,
    ⟨all [.wordEdge, lit "http.", named "method" (anyLit ["Get", "Post", "Head", "PostForm"]),
      lit "(", spaces, lit "\"", named "path" (many1 (noneOf "\"")), lit "\""],
      .rest, .consumer, "net/http", none⟩,
    ⟨all [.wordEdge, lit "http.NewRequest", opt (lit "WithContext"), lit "(", .many (noneOf "\""),
      lit "\"", named "method" (many1 capitalClass), lit "\"", spaces, lit ",", spaces, lit "\"",
      named "path" (many1 (noneOf "\"")), lit "\""],
      .rest, .consumer, "net/http", none⟩ ]

/-- Routes, services and clients, outbound requests and sockets. -/
def rust : List Rule :=
  [ ⟨all [lit "#[", named "method" (anyLit ["get", "post", "put", "delete", "patch"]), lit "(",
      spaces, lit "\"", named "path" (many1 (noneOf "\"")), lit "\""],
      .rest, .provider, "actix-web", some "actix"⟩,
    ⟨all [lit "web::resource(", spaces, lit "\"", named "path" (many1 (noneOf "\"")), lit "\""],
      .rest, .provider, "actix-web", none⟩,
    ⟨all [lit ".route(", spaces, lit "\"", named "path" (many1 (noneOf "\"")), lit "\"",
      opt (all [spaces, lit ",", spaces, .star (all [word, lit "::"]),
      named "method" (anyLit ["get", "post", "put", "delete", "patch"]), .wordEdge])],
      .rest, .provider, "axum", some "axum"⟩,
    ⟨all [.wordEdge, named "name" word, lit "Server::new("],
      .grpc, .provider, "tonic", some "tonic"⟩,
    ⟨all [.wordEdge, named "name" word, lit "Client::", anyLit ["connect", "new"], lit "("],
      .grpc, .consumer, "tonic", some "tonic"⟩,
    ⟨all [.wordEdge, anyLit ["reqwest", "client", "http"], anyLit ["::", "."],
      named "method" (anyLit ["get", "post", "put", "delete", "patch"]), lit "(", spaces,
      opt (all [opt (lit "&"), lit "format!(", spaces]), lit "\"",
      named "path" (many1 (noneOf "\"")), lit "\""],
      .rest, .consumer, "reqwest", some "reqwest"⟩,
    ⟨all [lit "connect_async(", spaces, lit "\"", named "path" (many1 (noneOf "\"")), lit "\""],
      .websocket, .consumer, "tungstenite", none⟩ ]

/-- Request mappings, templates and clients, services, listeners and endpoints. -/
def java : List Rule :=
  [ ⟨all [lit "@", named "method" (anyLit ["Get", "Post", "Put", "Delete", "Patch", "Request"]),
      lit "Mapping(", spaces, opt (all [anyLit ["value", "path"], spaces, lit "=", spaces]),
      opt (lit "\x7b"), spaces, lit "\"", named "path" (.many (noneOf "\"")), lit "\""],
      .rest, .provider, "spring", none⟩,
    ⟨all [.wordEdge, .many wordClass, .char (oneOf "rR"), lit "estTemplate.",
      named "method" (anyLit ["getForObject", "getForEntity", "postForObject", "postForEntity",
      "patchForObject", "exchange", "put", "delete"]), lit "(", spaces, lit "\"",
      named "path" (many1 (noneOf "\"")), lit "\""],
      .rest, .consumer, "resttemplate", none⟩,
    ⟨all [lit ".uri(", spaces, lit "\"", named "path" (many1 (noneOf "\"")), lit "\""],
      .rest, .consumer, "webclient", some "WebClient"⟩,
    ⟨all [lit "extends", spaces1, .star (all [word, lit "."]), named "name" word, lit "ImplBase",
      .wordEdge],
      .grpc, .provider, "grpc-java", none⟩,
    ⟨all [.wordEdge, named "name" word, lit "Grpc.new", opt (anyLit ["Blocking", "Future"]),
      lit "Stub("],
      .grpc, .consumer, "grpc-java", none⟩,
    ⟨all [lit "@KafkaListener(", .many (noneOf ")"), lit "topics", spaces, lit "=", spaces,
      opt (lit "\x7b"), spaces, lit "\"", named "name" (many1 (noneOf "\"")), lit "\""],
      .messageQueue, .consumer, "spring-kafka", none⟩,
    ⟨all [.wordEdge, .many wordClass, .char (oneOf "kK"), lit "afkaTemplate.send(", spaces,
      lit "\"", named "name" (many1 (noneOf "\"")), lit "\""],
      .messageQueue, .provider, "spring-kafka", none⟩,
    ⟨all [lit "@ServerEndpoint(", spaces, lit "\"", named "path" (many1 (noneOf "\"")), lit "\""],
      .websocket, .provider, "jakarta-websocket", none⟩ ]

end CodeAtlas.Interface.Rules
