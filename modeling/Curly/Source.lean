import Curly.Complaint
import Curly.Options.Basic
import Curly.Rule

namespace Curly

structure PendingSection where
  name : Text
  guard : Text
  inverted : Bool
  offset : Nat
deriving DecidableEq, Repr

/-- A script in the making, with the open sections, innermost first. -/
structure Draft where
  source : Text := []
  sections : List PendingSection := []
deriving DecidableEq, Repr

namespace Source

def unescapedFilter : Text := "unescaped".toList

def statement (code : Text) : Text := ['{', '%', ' '] ++ code ++ [' ', '%', '}']

def printed (expr : Text) : Text := ['{', '{', ' '] ++ expr ++ [' ', '}', '}']

def output (expr : Text) (unescaped : Bool) : Text :=
  if unescaped then printed (['('] ++ expr ++ [')', '|'] ++ unescapedFilter) else printed expr

/-- Text behind whose braces no script construct can start. The line feeds at its end stay
outside of the protection. Text that could end a raw block is printed as a string literal. -/
def protectedText (s : Text) : Text :=
  if '{' ∈ s then
    let body := (s.reverse.dropWhile (· = '\n')).reverse
    let tail := s.drop body.length
    if Text.includes body "endraw".toList then
      printed (Text.jsonString body ++ "|safe".toList) ++ tail
    else statement "raw".toList ++ body ++ statement "endraw".toList ++ tail
  else s

end Source

namespace Draft

open Source

def write (d : Draft) (s : Text) : Draft := { d with source := d.source ++ s }

/-- The guard of the innermost section that is named and not inverted; outside of all such
sections, the whole data. -/
def current (sections : List PendingSection) : Text :=
  match sections.find? fun s => !s.inverted && s.name ≠ [] with
  | some s => s.guard
  | none => Path.data

def guard (sections : List PendingSection) (name : Text) : Text :=
  if name = [] then current sections else Path.rootLookup name

def openSection (d : Draft) (name : Text) (inverted : Bool) (offset : Nat) : Draft :=
  let guard := guard d.sections name
  let test := if inverted then "if not ".toList ++ guard else "if ".toList ++ guard
  { (d.write (statement test)) with sections := ⟨name, guard, inverted, offset⟩ :: d.sections }

/-- A closing tag must meet an open section, and the names must agree unless one is empty. -/
def checkClose (sections : List PendingSection) (name : Text) : Option Fault :=
  match sections with
  | [] => some (.orphanClose name)
  | s :: _ =>
    if s.name ≠ [] ∧ name ≠ [] ∧ s.name ≠ name then some (.wrongClose s.name name) else none

def closeSection (strict : Bool) (d : Draft) (name : Text) (offset : Nat) :
    Except Complaint Draft :=
  match if strict then checkClose d.sections name else none with
  | some fault => .error ⟨fault, offset⟩
  | none => .ok { (d.write (statement "endif".toList)) with sections := d.sections.tail }

def addMeaning (strict : Bool) (d : Draft) (m : Meaning) (unescaped : Bool) (offset : Nat) :
    Except Complaint Draft :=
  match m with
  | .opening name => .ok (d.openSection name false offset)
  | .inverted name => .ok (d.openSection name true offset)
  | .closing name => d.closeSection strict name offset
  | .output expr => .ok (d.write (output expr unescaped))
  | .current => .ok (d.write (output (current d.sections) unescaped))
  | .statement code => .ok (d.write (statement code))

def meaningOf (table : RuleTable) (content : Text) : Meaning :=
  (table.apply content).getD (.output content)

/-- The fault of a tag that shows before its content is looked at: reserved delimiters, and a
triple opening that is not closed by a triple. -/
def tagFault (t : Tag Mark) : Option Fault :=
  if t.opening.isReserved then some (.reserved t.opening)
  else if t.closing.isReserved then some (.reserved t.closing)
  else if t.openText = Mark.literal .verbatimOpen ∧ t.closing ≠ .tripleClose then
    some .tripleMismatch
  else none

def addContent (table : RuleTable) (strict : Bool) (d : Draft) (t : Tag Mark) :
    Except Complaint Draft :=
  let content := Text.trim t.content
  let interpolate (unescaped : Bool) : Except Complaint Draft :=
    if content = [] then .error ⟨.emptyTag, t.position⟩
    else d.addMeaning strict (meaningOf table content) unescaped t.position
  match t.opening with
  | .commentOpen => .ok d
  | .runOpen => .ok (if content = [] then d else d.write (statement content))
  | .plainOpen => interpolate false
  | .verbatimOpen => interpolate true
  | m => .error ⟨.unexpected m, t.position⟩

/-- The third brace that closes a tag opened by two is text. -/
def spareBrace (t : Tag Mark) : Text :=
  if t.closing = .tripleClose ∧ t.openText ≠ Mark.literal .verbatimOpen then ['}'] else []

def addTag (table : RuleTable) (strict : Bool) (d : Draft) (t : Tag Mark) :
    Except Complaint Draft :=
  match tagFault t with
  | some fault => .error ⟨fault, t.position⟩
  | none => (d.addContent table strict t).map (·.write (spareBrace t))

def addSegment (table : RuleTable) (strict : Bool) (d : Draft) :
    Segment Mark → Except Complaint Draft
  | .text s _ => .ok (d.write (protectedText s))
  | .tag t => d.addTag table strict t

def addSegments (table : RuleTable) (strict : Bool) :
    Draft → List (Segment Mark) → Except Complaint Draft
  | d, [] => .ok d
  | d, s :: rest => (d.addSegment table strict s).bind fun d => addSegments table strict d rest

def finish (strict : Bool) (d : Draft) : Except Complaint Text :=
  match d.sections with
  | s :: _ => if strict then .error ⟨.unclosedSection s.name, s.offset⟩ else .ok d.source
  | [] => .ok d.source

end Draft

namespace Source

def ofSegments (table : RuleTable) (strict : Bool) (segments : List (Segment Mark)) :
    Except Complaint Text :=
  (Draft.addSegments table strict {} segments).bind (Draft.finish strict)

def ofTemplate (table : RuleTable) (strict : Bool) (text : Text) : Except Complaint Text :=
  match Mark.table.segments text with
  | .error e => .error ⟨.pairing e, e.offset⟩
  | .ok segments => ofSegments table strict segments

end Source

end Curly
