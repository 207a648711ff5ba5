import Curly.Options.Basic
import Curly.Yaml.Node

namespace Curly

namespace Options

def flagTag : Yaml.Octets := Yaml.octets "tag:yaml.org,2002:bool".toList

/-- A truth value, which is plain, or stands in a block with its tag. -/
def flag? : Yaml.Node → Option Bool
  | .scalar p style s =>
    if style = .plain ∨ (style = .literal ∧ p.tag = some flagTag) then
      if s ∈ ["true".toList, "True".toList, "TRUE".toList] then some true
      else if s ∈ ["false".toList, "False".toList, "FALSE".toList] then some false
      else none
    else none
  | _ => none

def escapeNamed? (name : Text) : Option Escaping :=
  if name = "html".toList then some .html
  else if name = "none".toList then some .none
  else none

def tagName? : Yaml.Octets → Option Text
  | 0x21 :: name => Yaml.textOf? name
  | _ => none

def isNull (style : Yaml.Style) (s : Text) : Bool :=
  s = [] || (style = .plain && s ∈ ["null".toList, "Null".toList, "NULL".toList, ['~']])

/-- An escape mode is named by a scalar, or by the tag of a scalar that says nothing more. -/
def escapeMode? : Yaml.Node → Option Escaping
  | .scalar p style s =>
    match p.tag.bind tagName? with
    | some name => if isNull style s then escapeNamed? name else none
    | none => escapeNamed? s
  | _ => none

def optionNames : List Text :=
  ["escape".toList, "strict_sections".toList, "keep_trailing_newline".toList]

def setNamed (o : Options) (name : Text) (v : Yaml.Node) : Option Options :=
  if name = "escape".toList then (escapeMode? v).map o.withEscape
  else if name = "strict_sections".toList then (flag? v).map o.withStrictSections
  else if name = "keep_trailing_newline".toList then (flag? v).map o.withKeepTrailingNewline
  else some o

def keyName? : Yaml.Node → Option Text
  | .scalar _ _ s => some s
  | _ => none

/-- The options that a document gives. Keys that are no options are passed over, an option may be
given once, and what is not given keeps its default. -/
def ofDocument? (root : Yaml.Node) : Option Options :=
  match root with
  | .map _ entries => do
    let named ← entries.mapM fun (k, v) => do some (← keyName? (root.resolve k), root.resolve v)
    if ((named.map (·.1)).filter (· ∈ optionNames)).Nodup then
      named.foldlM (fun o (name, v) => o.setNamed name v) .default
    else none
  | .scalar _ .plain [] => some .default
  | _ => none

def read? (s : Text) : Option Options := (Yaml.read? s).bind ofDocument?

end Options

end Curly
