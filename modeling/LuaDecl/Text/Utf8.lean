/-!
# Lossy UTF-8

A file may hold bytes that are no UTF-8. Reading it lossily keeps the characters and drops, one by
one, the bytes at which no character begins.
-/

namespace LuaDecl.Text.Utf8

/-- The characters that the bytes from a position on spell. -/
def charsFrom (bytes : ByteArray) (position : Nat) : List Char :=
  if _h : position < bytes.size then
    match bytes.utf8DecodeChar? position with
    | some c => c :: charsFrom bytes (position + c.utf8Size)
    | none => charsFrom bytes (position + 1)
  else []
termination_by bytes.size - position
decreasing_by
  · have := Char.utf8Size_pos c
    omega
  · omega

/-- The text of the characters in a file. -/
def decodeLossy (bytes : ByteArray) : String :=
  String.ofList (charsFrom bytes 0)

end LuaDecl.Text.Utf8
