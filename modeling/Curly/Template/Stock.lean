import Curly.Template.Basic

namespace Curly

inductive StockRenderer where
  /-- The data as compact JSON. -/
  | data
  /-- The names of the helpers with commas between them. -/
  | names
  /-- Whether there is a helper of that name. -/
  | has (helper : Text)
  /-- The text of an attribute of the data. -/
  | attr (name : Text)
  /-- The text of what a helper returns. -/
  | call (helper : Text) (args : List Value)
deriving Repr

namespace StockRenderer

def render : StockRenderer → Renderer
  | data, d, _ => .ok d.toJson
  | names, _, hs => .ok (Text.join [','] hs.names)
  | has helper, _, hs => .ok (Value.bool (hs.contains helper)).toText
  | attr name, _, hs => (hs.data.getAttr name).map Value.toText
  | call helper args, _, hs => (hs.call helper args).map Value.toText

end StockRenderer

end Curly
