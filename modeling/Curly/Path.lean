import Curly.Meaning

namespace Curly

namespace Path

def keywords : List Text :=
  ["true".toList, "True".toList, "false".toList, "False".toList, "none".toList, "None".toList,
    "not".toList, "and".toList, "or".toList, "in".toList, "is".toList, "if".toList, "else".toList]

def data : Text := "_data".toList

def startsWithDigit : Text → Bool
  | c :: _ => c.isDigit
  | [] => false

/-- The expression that reads a top-level key. Keywords and names that start with a digit are
looked up in the whole data. -/
def rootLookup (name : Text) : Text :=
  if startsWithDigit name || name ∈ keywords then data ++ ['[', '"'] ++ name ++ ['"', ']'] else name

def chain (reference : Text) : List Text → List Text
  | [] => [reference]
  | segment :: rest => reference :: chain (reference ++ '.' :: segment) rest

def ifDefined (root expr : Text) : Text :=
  ['('] ++ expr ++ " if ".toList ++ root ++ " is defined else \"\")".toList

def guardedSegments (root : Text) (segments : List Text) : Text :=
  match segments with
  | [] => ifDefined root root
  | segments =>
    ifDefined root ("((".toList ++ Text.join " and ".toList (chain root segments)
      ++ ") or \"\")".toList)

/-- An expression that never fails on missing data: an undefined root shows nothing, a single
segment shows its value, and a longer path shows its leaf when every step on the way to it, the leaf
included, is truthy. -/
def guardedLookup (path : Text) : Text :=
  match Text.splitOn '.' path with
  | [] => []
  | name :: segments => guardedSegments (rootLookup name) segments

def isWordChar (c : Char) : Bool := c.isAlphanum || c = '_'

def isWord (s : Text) : Bool := s.all isWordChar

def isPath (s : Text) : Bool := (Text.splitOn '.' s).all fun word => word ≠ [] && isWord word

def meaning? (content : Text) : Option Meaning :=
  if content = ['.'] then some .current
  else if isPath content then some (.output (guardedLookup content))
  else none

end Path

end Curly
