import TypedWrappers.Yaml.Tag

/-!
# YAML tokens

What a YAML stream is made of: indicators, scalars with their blanks folded, and the starts and ends of blocks, which
no character writes but a change of indentation.
-/

namespace TypedWrappers.Yaml

/-- How a scalar is written. -/
inductive Style
  | plain
  | singleQuoted
  | doubleQuoted
  | literal
  | folded
  deriving Repr, DecidableEq

/-- A token. -/
inductive Token
  | versionDirective (major minor : Nat)
  | tagDirective (handle : List Char) (meaning : List UInt8)
  | documentStart
  | documentEnd
  | blockSequenceStart
  | blockMappingStart
  | blockEnd
  | flowSequenceStart
  | flowSequenceEnd
  | flowMappingStart
  | flowMappingEnd
  | blockEntry
  | flowEntry
  | key
  | value
  | aliasOf (name : String)
  | anchor (name : String)
  | tag (text : TagText)
  | scalar (text : String) (style : Style)
  deriving Repr

end TypedWrappers.Yaml
