import Curly.Context
import Curly.Script.Eval
import Curly.Source

namespace Curly

inductive TemplateError where
  /-- The text of the template is malformed. -/
  | malformed (d : Diagnostic)
  /-- The script of the template is malformed. -/
  | rejected (name : Text) (r : Script.Refusal)
  /-- Rendering failed. The name is missing where a renderer given as a function failed. -/
  | failed (name : Option Text) (e : EvalError)
  /-- A key of the data is no name. -/
  | badKey
deriving Repr

namespace TemplateError

def templateName : TemplateError → Option Text
  | malformed d => some d.name
  | rejected name _ => some name
  | failed name _ => name
  | badKey => none

def badKeyMessage : Text := "serialization error: key must be a string".toList

end TemplateError

abbrev Renderer := Data → BoundHelpers → Except EvalError Text

namespace Template

inductive Body where
  | script (source : Text) (escape : Escaping) (statements : List Script.Stmt)
  | native (render : Renderer)

end Template

/-- A script that was read from text, or a renderer that is given as a function, with the default
helpers of the time it was made. -/
structure Template where
  name : Text
  body : Template.Body
  helpers : HelperTable

namespace Template

def script (table : RuleTable) (name text : Text) (o : Options) : Except TemplateError Text :=
  (Source.ofTemplate table o.strictSections text).mapError fun c =>
    .malformed (.ofComplaint name text c)

/-- The template of a script whose blocks and brackets nest at most `limit` deep. -/
def ofScriptWithin (limit : Nat) (helpers : HelperTable) (name source : Text) (o : Options) :
    Except TemplateError Template :=
  match Script.Stmt.readAll limit o.keepTrailingNewline source with
  | .ok statements => .ok ⟨name, .script source o.escape statements, helpers⟩
  | .error r => .error (.rejected name r)

def ofScript (helpers : HelperTable) (name source : Text) (o : Options) :
    Except TemplateError Template :=
  ofScriptWithin Script.Stmt.maxDepth helpers name source o

def compileWithin (limit : Nat) (table : RuleTable) (helpers : HelperTable)
    (name text : Text) (o : Options) : Except TemplateError Template :=
  (script table name text o).bind fun source => ofScriptWithin limit helpers name source o

def compile (table : RuleTable) (helpers : HelperTable) (name text : Text) (o : Options) :
    Except TemplateError Template :=
  compileWithin Script.Stmt.maxDepth table helpers name text o

def ofRenderer (helpers : HelperTable) (name : Text) (render : Renderer) : Template :=
  ⟨name, .native render, helpers⟩

def source (t : Template) : Option Text :=
  match t.body with
  | .script source _ _ => some source
  | .native _ => none

/-- Missing data and null are rendered as the empty object. -/
def dataOrEmpty : Option Data → Data
  | none | some .null => .object []
  | some d => d

def render (t : Template) (data : Option Data) (extras : HelperTable) : Except TemplateError Text :=
  let data := dataOrEmpty data
  let hs := BoundHelpers.new (.ofData data) t.helpers extras
  match t.body with
  | .script _ escape statements =>
    (Script.Stmt.run (Context.ofData data hs) hs.call escape statements).mapError
      (.failed (some t.name))
  | .native render => (render data hs).mapError (.failed none)

def renderEntries (t : Template) (entries : List (Data × Data)) (extras : HelperTable) :
    Except TemplateError Text :=
  match Data.ofEntries? entries with
  | some data => t.render (some data) extras
  | none => .error .badKey

def describe (t : Template) : Text :=
  let source :=
    match t.source with
    | some s => "Some(".toList ++ Text.quoted s ++ [')']
    | none => "None".toList
  "Mustache \x7b name: ".toList ++ Text.quoted t.name ++ ", source: ".toList ++ source
    ++ ", helpers: ".toList ++ describeNames t.helpers.names ++ ", .. \x7d".toList

end Template

end Curly
