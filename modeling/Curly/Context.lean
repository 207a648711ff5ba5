import Curly.Helper.Basic
import Curly.Path

namespace Curly

namespace Context

def ofHelpers (names : List Text) : Catalog Value :=
  names.foldl (fun t name => t.insert name (.function name)) {}

def addFields (t : Catalog Value) (fields : List (Text × Data)) : Catalog Value :=
  fields.foldl (fun t (name, d) => t.insert name (.ofData d)) t

/-- The names that a script starts with. Later ones win, so a field hides a helper, and also the
name of the whole data. -/
def ofData (data : Data) (hs : BoundHelpers) : Catalog Value :=
  let t := (ofHelpers hs.names).insert Path.data hs.data
  match data with
  | .object fields => addFields t fields
  | _ => t

end Context

end Curly
