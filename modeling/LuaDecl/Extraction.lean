import LuaDecl.Comment
import LuaDecl.Definition.Hit
import LuaDecl.Parameters
import LuaDecl.SortedMap

/-!
# Extraction

The signatures of a text: the hits of the five shapes, one shape after the other and each in text
order, without the globals that a preceding `local` makes private. The guard looks at the twenty
characters before the hit only, and at their end only.
-/

namespace LuaDecl

open Definition

/-- What one source holds: its signatures and the tables that they belong to. -/
structure Extraction where
  signatures : List Signature
  tables : SortedSet

namespace Extraction

/-- How many characters before a definition are searched for `local`. -/
def localWindow : Nat := 20

/-- The keyword that makes a definition private. -/
def localKeyword : List Char :=
  ['l', 'o', 'c', 'a', 'l']

/-- The text before a definition ends, up to blanks, with `local` inside the window. -/
def endsWithLocal (before : List Char) : Bool :=
  localKeyword.isSuffixOf (Text.trimEnd (before.drop (before.length - localWindow)))

/-- The hit defines a global that a preceding `local` makes private. -/
def isPrivate (text : List Char) (shape : Shape) (hit : Hit) : Bool :=
  shape.kind = .global && endsWithLocal (text.take hit.start)

/-- The signature of a hit. -/
def signature (shape : Shape) (hit : Hit) : Signature where
  kind := shape.kind
  table := hit.capture.table.map String.ofList
  name := String.ofList hit.capture.name
  params := String.ofList (Parameters.normalizeChars hit.capture.params)

/-- The signatures that a shape contributes. -/
def ofShape (text : List Char) (shape : Shape) : List Signature :=
  ((shape.hits text).filter fun hit => !isPrivate text shape hit).map (signature shape)

/-- The extraction of a list of signatures, with the tables that they name. -/
def ofSignatures (signatures : List Signature) : Extraction where
  signatures := signatures
  tables := SortedSet.ofList (signatures.filterMap Signature.table)

/-- The extraction of a text as it is, comments included. -/
def ofText (text : String) : Extraction :=
  ofSignatures (Shape.all.flatMap (ofShape text.toList))

/-- The extraction of a source, which comments have no part in. -/
def ofSource (source : String) : Extraction :=
  ofText (Comment.strip source)

/-- No signature was found. -/
def isEmpty (e : Extraction) : Bool :=
  e.signatures.isEmpty

end Extraction

end LuaDecl
