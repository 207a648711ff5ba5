import Curly.Text.Basic

namespace Curly

namespace Text

def entity : Char → Text
  | '&' => "&amp;".toList
  | '<' => "&lt;".toList
  | '>' => "&gt;".toList
  | '"' => "&quot;".toList
  | '\'' => "&#39;".toList
  | c => [c]

/-- A character as the filter that escapes writes it. It spells the apostrophe in hexadecimal, and
has an entity for the slash, too. -/
def strictEntity : Char → Text
  | '\'' => "&#x27;".toList
  | '/' => "&#x2f;".toList
  | c => entity c

def escape (s : Text) : Text := s.flatMap entity

def escapeStrict (s : Text) : Text := s.flatMap strictEntity

@[simp] theorem escape_nil : escape [] = [] := rfl

@[simp] theorem escape_cons (c : Char) (s : Text) : escape (c :: s) = entity c ++ escape s := rfl

end Text

end Curly
