import CodeAtlas.Text.Utf8

/-! Texts of an operating system. Names and paths are bytes there, which need not be UTF-8. -/

namespace CodeAtlas

/-- A name or a path of a disk. -/
structure RawText where
  bytes : Bytes
  deriving Repr, DecidableEq, Inhabited

namespace RawText

instance : Coe String RawText where
  coe s := ⟨Utf8.encode s.toList⟩

/-- The text for readers, with U+FFFD in the place of what is no UTF-8. -/
def text (raw : RawText) : String := String.ofList (Utf8.decode raw.bytes)

/-- The text, if the bytes are UTF-8. -/
def text? (raw : RawText) : Option String := (Utf8.decode? raw.bytes).map String.ofList

end RawText

end CodeAtlas
