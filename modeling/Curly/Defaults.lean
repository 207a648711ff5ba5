import Curly.Template.Basic

namespace Curly

structure Defaults where
  rules : RuleTable := .stock
  helpers : HelperTable := {}

namespace Defaults

def addRule (d : Defaults) (name : Text) (f : Rule) : Defaults :=
  { d with rules := d.rules.insert name f }

def addHelper (d : Defaults) (name : Text) (f : Helper) : Defaults :=
  { d with helpers := d.helpers.insert name f }

def helper? (d : Defaults) (name : Text) : Option Helper := d.helpers.get? name

def ruleNames (d : Defaults) : List Text := d.rules.names

def script (d : Defaults) (name text : Text) (o : Options) : Except TemplateError Text :=
  Template.script d.rules name text o

def compile (d : Defaults) (name text : Text) (o : Options) : Except TemplateError Template :=
  Template.compile d.rules d.helpers name text o

def load (d : Defaults) (name source : Text) (o : Options) : Except TemplateError Template :=
  Template.ofScript d.helpers name source o

def wrap (d : Defaults) (name : Text) (render : Renderer) : Template :=
  Template.ofRenderer d.helpers name render

end Defaults

end Curly
