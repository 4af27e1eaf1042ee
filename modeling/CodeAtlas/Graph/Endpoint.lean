import CodeAtlas.Text.Basic

/-! Endpoints: the paths under which interfaces are served and called. Two endpoints overlap if the
shorter one matches the end of the longer one, segment by segment. -/

namespace CodeAtlas.Graph

/-- A segment of an endpoint. -/
inductive Segment where
  | parameter
  | literal (name : Text)
  deriving Repr, DecidableEq

namespace Segment

/-- A piece between slashes: a parameter in any of its spellings, or a name in lower case. -/
def ofText (piece : Text) : Segment :=
  let opens := fun word : String => Text.startsWith piece word.toList
  if piece = ['*'] || [":", "\x7b", "<", "$\x7b"].any opens then .parameter
  else .literal (piece.map Char.toLower)

/-- A parameter matches anything. -/
def agrees : Segment → Segment → Bool
  | literal a, literal b => a == b
  | _, _ => true

end Segment

/-- What follows the scheme of an address. -/
def afterScheme? : Text → Option Text
  | [] => none
  | ':' :: '/' :: '/' :: rest => some rest
  | _ :: rest => afterScheme? rest

/-- An address without its scheme and host. -/
def pathOfAddress (address : Text) : Text :=
  match afterScheme? address with
  | some rest => rest.dropWhile (· != '/')
  | none => address

/-- The segments of an endpoint, without its query and fragment. -/
def segments (endpoint : Text) : List Segment :=
  let path := (pathOfAddress endpoint.trim).takeWhile fun c => c != '?' && c != '#'
  ((Text.splitWhere (· == '/') path).filter fun piece => !piece.isEmpty).map Segment.ofText

/-- The segments of `short` agree with the last ones of `long`, and not all of them are
parameters. -/
def endsLike (short long : List Segment) : Bool :=
  !short.all (· == .parameter) &&
    (short.zip (long.drop (long.length - short.length))).all fun pair => pair.1.agrees pair.2

/-- Two endpoints may be the same. Endpoints without segments overlap if the first one is not
blank. -/
def overlap (a b : Text) : Bool :=
  let (sa, sb) := (segments a, segments b)
  if sa.isEmpty || sb.isEmpty then sa.isEmpty && sb.isEmpty && !a.trim.isEmpty
  else if sa.length ≤ sb.length then endsLike sa sb
  else endsLike sb sa

end CodeAtlas.Graph
