/-
Azsl.Token.Semantic — the words that name a pipeline semantic.

A declaration may be followed by a colon and a semantic. Stream semantics are a fixed list of
names, most of which take an index; system semantics start with `SV_` in any case.
-/
import Azsl.Token.Scan

namespace Azsl

/-- What a semantic word stands for. -/
inductive SemanticKind where
  | stream
  | system
  /-- A word of the program's own. -/
  | plain
deriving DecidableEq, Repr

namespace SemanticKind

/-- Stream semantics that may carry an index. -/
def indexedStreams : List String :=
  ["BINORMAL", "BINOMIAL", "BLENDINDICES", "BLENDWEIGHT", "COLOR", "NORMAL", "POSITION", "PSIZE",
   "TANGENT", "TEXCOORD", "TESSFACTOR", "VPOS", "DEPTH"]

/-- Stream semantics without an index. -/
def plainStreams : List String := ["POSITIONT", "FOG", "VFACE"]

/-- A stream semantic: a listed name, with an index where one is allowed. -/
def isStream (word : String) : Bool :=
  plainStreams.contains word ||
    indexedStreams.any fun name =>
      name.toList.isPrefixOf word.toList && (word.toList.drop name.length).all Scan.isDigit

/-- Letters, at least one, and then digits only. -/
def isIndexedName (chars : List Char) : Bool :=
  let letters := Scan.runLength Scan.isLetter chars
  0 < letters && (chars.drop letters).all Scan.isDigit

/-- A system semantic: `SV_` in any case, letters and an optional index. -/
def isSystem (word : String) : Bool :=
  match word.toList with
  | s :: v :: '_' :: rest =>
    (s == 's' || s == 'S') && (v == 'v' || v == 'V') && isIndexedName rest
  | _ => false

/-- Classify a semantic word. -/
def ofWord (word : String) : SemanticKind :=
  if isStream word then .stream else if isSystem word then .system else .plain

end SemanticKind

end Azsl
