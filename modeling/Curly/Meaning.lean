import Curly.Text.Basic

namespace Curly

inductive Meaning where
  /-- Opens a section; an empty name asks for the current context. -/
  | opening (name : Text)
  /-- Opens a section that is shown when its guard is falsy. -/
  | inverted (name : Text)
  /-- Closes the innermost section. -/
  | closing (name : Text)
  /-- An expression whose value is printed. -/
  | output (expr : Text)
  /-- The current context. -/
  | current
  /-- A statement, as it stands. -/
  | statement (code : Text)
deriving DecidableEq, Repr

end Curly
