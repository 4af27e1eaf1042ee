import CodeAtlas.Digest
import CodeAtlas.Text.Utf8

/-! Where a cached result holds: in a project, on a branch, and perhaps at a commit. The key of a
result is a digest of its file, its scope and the content that it was made from. -/

namespace CodeAtlas

/-- What the head of the repository around a project points at. -/
inductive Head where
  | noRepository
  | unborn (branch : String)
  | branch (name : String) (commit : Option String)
  | detached (commit : String)
  deriving Repr, DecidableEq

/-- Where a cached result holds. -/
structure Scope where
  root : String
  branch : String
  commit : Option String
  deriving Repr, DecidableEq, Inhabited

namespace Scope

def defaultBranch : String := "default"

/-- The scope of a project by the head of its repository. Before the first commit there is no
branch yet. -/
def ofHead (root : String) : Head → Scope
  | .noRepository | .unborn _ => ⟨root, defaultBranch, none⟩
  | .branch name commit => ⟨root, name, commit⟩
  | .detached commit => ⟨root, "HEAD", some commit⟩

/-- A text with a mark for its end. -/
def ended (text : String) : Text :=
  text.toList ++ [Char.ofNat 0]

/-- What the key of a result is a digest of. No commit is written as an empty one. -/
def material (scope : Scope) (file : String) (content : Bytes) : Text :=
  [file, scope.root, scope.branch, scope.commit.getD "",
    Digest.hex16 (Digest.narrow content)].flatMap ended

/-- The key of the result for a file with a content. -/
def key (scope : Scope) (file : String) (content : Bytes) : String :=
  (Digest.wide (Utf8.encode (scope.material file content))).hex

end Scope

end CodeAtlas
