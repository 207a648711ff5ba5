namespace Curly

inductive Escaping where
  | html
  | none
deriving DecidableEq, Repr

/-- The defaults escape for HTML, check that sections are balanced, and keep the line ending that
a template may end with. -/
structure Options where
  escape : Escaping := .html
  strictSections : Bool := true
  keepTrailingNewline : Bool := true
deriving DecidableEq, Repr, Inhabited

namespace Options

def default : Options where

def withEscape (o : Options) (mode : Escaping) : Options := { o with escape := mode }

def withStrictSections (o : Options) (strict : Bool) : Options :=
  { o with strictSections := strict }

def withKeepTrailingNewline (o : Options) (keep : Bool) : Options :=
  { o with keepTrailingNewline := keep }

end Options

end Curly
