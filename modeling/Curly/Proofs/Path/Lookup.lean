import Curly.Context
import Curly.Options.Basic
import Curly.Proofs.DistinctNames
import Curly.Proofs.Path.Spelling
import Curly.Text.Entity
import Curly.Value.Access

namespace Curly

namespace Data

/-- What the name of the whole data stands for. A field of that name hides the data. -/
def whole (d : Data) : Data := (d.get? Path.data).getD d

def root? (d : Data) (name : Text) : Option Data :=
  if Path.isQuoted name then d.whole.get? name
  else if name = Path.data then some d.whole
  else d.get? name

def index? : Data → Nat → Option Data
  | list items, n => items[n]?
  | text s, n => s[n]?.map fun c => text [c]
  | _, _ => none

def part? (d : Data) (segment : Text) : Option Data :=
  match Path.startsWithDigit segment, Path.numeral? segment with
  | true, some n => d.index? n
  | _, _ => d.get? segment

def isTruthy : Data → Bool
  | null => false
  | bool b => b
  | int n => n ≠ 0
  | double x => x != 0
  | text s => s ≠ []
  | list items => !items.isEmpty
  | object fields => !fields.isEmpty

/-- What segments lead to, when everything on the way there and the leaf itself are truthy. -/
def leaf? (d : Data) : List Text → Option Data
  | [] => if d.isTruthy then some d else none
  | segment :: rest => if d.isTruthy then (d.part? segment).bind (leaf? · rest) else none

/-- What a path stands for: a name alone for its value, and a longer path for its leaf. -/
def lookup? (d : Data) (name : Text) : List Text → Option Data
  | [] => d.root? name
  | segments => (d.root? name).bind (leaf? · segments)

def shown (mode : Escaping) (verbatim : Bool) : Option Data → Text
  | none | some null => []
  | some d =>
    let s := (Value.ofData d).toText
    if mode = .html && !verbatim then Text.escape s else s

theorem shown_some (mode : Escaping) (verbatim : Bool) {d : Data} (h : d ≠ null) :
    shown mode verbatim (some d) =
      if mode = .html && !verbatim then Text.escape (Value.ofData d).toText
      else (Value.ofData d).toText := by
  unfold shown
  split
  · next he => cases he
  · next he => exact absurd (Option.some.inj he) h
  · next he =>
    cases he
    rfl

end Data

namespace Value

def ofFound : Option Data → Value
  | .none => undefined
  | some d => ofData d

theorem isTruthy_ofData (d : Data) : (ofData d).isTruthy = d.isTruthy := by
  cases d with
  | null | bool b | double x | text s => rfl
  | int n => cases n <;> simp [ofData, isTruthy, Data.isTruthy]
  | list items => cases items <;> rfl
  | object fields => cases fields <;> rfl

theorem isUndefined_ofData (d : Data) : (ofData d).isUndefined = false := by
  cases d with
  | int n => cases n <;> rfl
  | _ => rfl

theorem isSafe_ofData (d : Data) : (ofData d).isSafe = false := by
  cases d with
  | int n => cases n <;> rfl
  | _ => rfl

theorem isMissing_ofData (d : Data) : (ofData d).isMissing = true ↔ d = .null := by
  cases d with
  | int n => cases n <;> simp [ofData, isMissing]
  | _ => simp [ofData, isMissing]

theorem attr?_ofData (d : Data) (name : Text) :
    (ofData d).attr? name = (d.get? name).map ofData := by
  cases d with
  | int n => cases n <;> rfl
  | object fields => exact lookupText_ofFields fields name
  | _ => rfl

theorem ofItems_eq_map (items : List Data) : ofItems items = items.map ofData := by
  induction items with
  | nil => rfl
  | cons d items ih => rw [ofItems, ih, List.map_cons]

theorem find?_nat_ofFields (fields : List (Text × Data)) (n : Nat) :
    (ofFields fields).find? (fun (l, _) => order l (nat n) = .eq) = .none := by
  induction fields with
  | nil => rfl
  | cons f fields ih =>
    obtain ⟨k, d⟩ := f
    rw [ofFields, List.find?_cons_of_neg (by simp [order, kind, Kind.rank]), ih]

theorem item?_nat_ofData (d : Data) (n : Nat) :
    (ofData d).item? (nat n) = (d.index? n).map ofData := by
  have hp (length : Nat) : place? (n : Int) length = some n := by simp [place?]
  cases d with
  | int n => cases n <;> rfl
  | list items => simp [ofData, item?, toIndex?, toInt?, hp, Data.index?, ofItems_eq_map]
  | text s =>
    cases h : s[n]? <;> simp [ofData, item?, toIndex?, toInt?, hp, Data.index?, h]
  | object fields => simp [ofData, item?, find?_nat_ofFields, Data.index?]
  | _ => rfl

end Value

namespace Context

theorem get?_ofHelpers (names : List Text) (name : Text) :
    (ofHelpers names).get? name = if name ∈ names then some (.function name) else none := by
  have hfold (t : Catalog Value) :
      (names.foldl (fun t n => t.insert n (.function n)) t).get? name =
        if name ∈ names then some (.function name) else t.get? name := by
    induction names generalizing t with
    | nil => rfl
    | cons n names ih =>
      rw [List.foldl_cons, ih, Catalog.get?_insert]
      by_cases hn : name = n <;> simp [hn]
  exact hfold {}

theorem get?_addFields {fields : List (Text × Data)} (h : (fields.map (·.1)).Nodup)
    (t : Catalog Value) (name : Text) :
    (addFields t fields).get? name = ((fields.lookup name).map Value.ofData).or (t.get? name) :=
  Catalog.get?_foldl_insert Value.ofData h t name

/-- A script starts with the fields of the data, else with the name of the whole data, else with
the helpers. -/
theorem get?_ofData {data : Data} (hd : data.HasDistinctNames) (hs : BoundHelpers) (name : Text) :
    (ofData data hs).get? name =
      ((data.get? name).map Value.ofData).or
        (if name = Path.data then some hs.data
          else if name ∈ hs.names then some (.function name) else none) := by
  have hbase : ((ofHelpers hs.names).insert Path.data hs.data).get? name =
      if name = Path.data then some hs.data
        else if name ∈ hs.names then some (.function name) else none := by
    rw [Catalog.get?_insert, get?_ofHelpers]
  rw [← hbase]
  cases data with
  | object fields => exact get?_addFields hd _ name
  | _ => rfl

theorem get?_ofData_of_not_mem {data : Data} (hd : data.HasDistinctNames) {hs : BoundHelpers}
    (hdata : hs.data = .ofData data) {name : Text} (hn : name ∈ hs.names → name = Path.data) :
    (ofData data hs).get? name =
      (if name = Path.data then some data.whole else data.get? name).map Value.ofData := by
  rw [get?_ofData hd, hdata]
  by_cases hp : name = Path.data
  · subst hp
    cases h : data.get? Path.data <;> simp [Data.whole, h]
  · simp [hp, mt hn hp]

end Context

end Curly
