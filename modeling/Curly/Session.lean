import Curly.Defaults

namespace Curly

structure Session where
  defaults : Defaults := {}
  templates : Catalog Template := {}

inductive Step where
  | addHelper (name : Text) (f : Helper)
  | addRule (name : Text) (f : Rule)
  | ruleNames
  | callHelper (name : Text) (data : Value) (args : List Value)
  | script (name text : Text) (o : Options)
  | compile (id name text : Text) (o : Options)
  | load (id name source : Text) (o : Options)
  | wrap (id name : Text) (render : Renderer)
  | render (id : Text) (data : Option Data) (extras : HelperTable)
  | inspect (id : Text)
  | describe (id : Text)

inductive Answer where
  | done
  | names (ns : List Text)
  /-- What a helper returns, if there is one. -/
  | called (result : Option (Except EvalError Value))
  | source (s : Text)
  | output (s : Text)
  | template (t : Template)
  | description (s : Option Text)
  | failed (e : TemplateError)
  | noTemplate

namespace Session

def store (s : Session) (id : Text) : Except TemplateError Template → Session × Answer
  | .ok t => ({ s with templates := s.templates.insert id t }, .done)
  | .error e => (s, .failed e)

def answer (make : Text → Answer) : Except TemplateError Text → Answer
  | .ok s => make s
  | .error e => .failed e

/-- A template that cannot be made leaves the session as it was. -/
def step (s : Session) : Step → Session × Answer
  | .addHelper name f => ({ s with defaults := s.defaults.addHelper name f }, .done)
  | .addRule name f =>
    ({ s with defaults := s.defaults.addRule name f }, .done)
  | .ruleNames => (s, .names s.defaults.ruleNames)
  | .callHelper name data args =>
    (s, .called ((s.defaults.helper? name).map fun f => f data args))
  | .script name text o => (s, answer .source (s.defaults.script name text o))
  | .compile id name text o => s.store id (s.defaults.compile name text o)
  | .load id name source o => s.store id (s.defaults.load name source o)
  | .wrap id name render => s.store id (.ok (s.defaults.wrap name render))
  | .render id data extras =>
    match s.templates.get? id with
    | some t => (s, answer .output (t.render data extras))
    | none => (s, .noTemplate)
  | .inspect id =>
    match s.templates.get? id with
    | some t => (s, .template t)
    | none => (s, .noTemplate)
  | .describe id => (s, .description ((s.templates.get? id).map Template.describe))

def after (s : Session) (steps : List Step) : Session := steps.foldl (fun s x => (s.step x).1) s

def run (s : Session) : List Step → List Answer
  | [] => []
  | x :: rest => (s.step x).2 :: run (s.step x).1 rest

end Session

end Curly
