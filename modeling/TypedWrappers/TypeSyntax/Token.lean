import TypedWrappers.TypeSyntax.Basic

/-!
# Tokens of type text

Type text as words and punctuation. ASCII blanks end a word and are dropped otherwise, so that two texts with the
same tokens are the same to a reader of types.

- `TypeToken.scan`: the tokens of a text;
- `TypeSyntax.tokens`: the tokens of the normal spelling of a tree.
-/

namespace TypedWrappers

/-- A piece of type text. -/
inductive TypeToken
  | word (text : String)
  | less
  | greater
  | comma
  | openBracket
  | closeBracket
  | question
  | parenthesis
  deriving Repr, DecidableEq

namespace TypeToken

/-- The blanks between tokens: space, tab, line feed, form feed and carriage return. -/
def isSpace (c : Char) : Bool :=
  c = ' ' || c = '\t' || c = '\n' || c = '\x0C' || c = '\r'

/-- The token that a character is by itself. -/
def punctuation? (c : Char) : Option TypeToken :=
  match c with
  | '<' => some less
  | '>' => some greater
  | ',' => some comma
  | '[' => some openBracket
  | ']' => some closeBracket
  | '?' => some question
  | '(' => some parenthesis
  | ')' => some parenthesis
  | _ => none

/-- The word made of the characters read so far, last first, in front of further tokens. -/
def endWord (pending : List Char) (rest : List TypeToken) : List TypeToken :=
  if pending = [] then rest else word (String.ofList pending.reverse) :: rest

/-- The tokens of a text of which `pending`, last first, has been read as part of a word. -/
def scanFrom (pending : List Char) : List Char → List TypeToken
  | [] => endWord pending []
  | c :: cs =>
    match punctuation? c with
    | some token => endWord pending (token :: scanFrom [] cs)
    | none => if isSpace c then endWord pending (scanFrom [] cs) else scanFrom (c :: pending) cs

/-- The tokens of a text. -/
def scan (s : String) : List TypeToken :=
  scanFrom [] s.toList

end TypeToken

open TypeToken

/-- The tokens of a mark. -/
def TypeMark.tokens : TypeMark → List TypeToken
  | nullable => [question]
  | array commas => openBracket :: List.replicate commas comma ++ [closeBracket]

namespace TypeSyntax

mutual

/-- The tokens of a tree. -/
def tokens : TypeSyntax → List TypeToken
  | ⟨name, arguments, marks⟩ => word name :: (argumentTokens arguments ++ marks.flatMap TypeMark.tokens)

/-- The tokens of type arguments with their brackets. -/
def argumentTokens : List TypeSyntax → List TypeToken
  | [] => []
  | t :: rest => less :: (tokens t ++ restTokens rest)

/-- The tokens of the arguments after the first, with the closing bracket. -/
def restTokens : List TypeSyntax → List TypeToken
  | [] => [greater]
  | t :: rest => comma :: (tokens t ++ restTokens rest)

end

end TypeSyntax

end TypedWrappers
