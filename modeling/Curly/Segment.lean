import Curly.Token
import Curly.Text.Blank

namespace Curly

structure Tag (κ : Type) where
  opening : κ
  openText : Text
  content : Text
  closing : κ
  closeText : Text
  offset : Nat
deriving DecidableEq, Repr

/-- Where the tag shows: an opening delimiter may start with blanks. -/
def Tag.position {κ : Type} (t : Tag κ) : Nat := t.offset + Text.indent t.openText

inductive Segment (κ : Type) where
  | text (s : Text) (offset : Nat)
  | tag (t : Tag κ)
deriving DecidableEq, Repr

inductive Mispairing where
  | unclosed
  | nested
deriving DecidableEq, Repr

structure PairingError where
  cause : Mispairing
  opening : Text
  offset : Nat
  position : Position
deriving DecidableEq, Repr

namespace PairingError

/-- The error about an opening delimiter of `input`; leading blanks are not shown. -/
def ofOpening (cause : Mispairing) (input openText : Text) (offset : Nat) : PairingError :=
  let place := offset + Text.indent openText
  ⟨cause, Text.trimStart openText, place, .ofOffset input place⟩

def message (e : PairingError) : Text :=
  let place :=
    "` at line ".toList ++ Text.ofNat e.position.line ++ ", column ".toList
      ++ Text.ofNat e.position.col
  match e.cause with
  | .unclosed => "unclosed tag `".toList ++ e.opening ++ place
  | .nested => "tag `".toList ++ e.opening ++ place ++ " opened inside an unclosed tag".toList

end PairingError

namespace Segment

variable {κ : Type}

/-- Puts text behind the segments, which are given last first. -/
def addText (s : Text) (offset : Nat) : List (Segment κ) → List (Segment κ)
  | .text t start :: done => .text (t ++ s) start :: done
  | done => if s = [] then done else .text s offset :: done

end Segment

structure OpenTag (κ : Type) where
  kind : κ
  openText : Text
  offset : Nat
  content : Text
deriving DecidableEq, Repr

namespace OpenTag

variable {κ : Type}

def add (t : OpenTag κ) (s : Text) : OpenTag κ := { t with content := t.content ++ s }

def close (t : OpenTag κ) (kind : κ) (s : Text) : Tag κ where
  opening := t.kind
  openText := t.openText
  content := t.content
  closing := kind
  closeText := s
  offset := t.offset

end OpenTag

namespace DelimiterTable

variable {κ : Type}

/-- Pairs the delimiters of `tokens`. Tags do not nest, and a closing delimiter outside of a tag is
plain text. `done` holds the segments so far, last first. -/
def pairFrom (input : Text) :
    (done : List (Segment κ)) → Option (OpenTag κ) → List (Token κ) →
      Except PairingError (List (Segment κ))
  | done, none, [] => .ok done.reverse
  | _, some t, [] => .error (.ofOpening .unclosed input t.openText t.offset)
  | done, none, .text s offset :: rest => pairFrom input (Segment.addText s offset done) none rest
  | done, some t, .text s _ :: rest => pairFrom input done (some (t.add s)) rest
  | done, none, .delimiter kind .opening s offset :: rest =>
    pairFrom input done (some ⟨kind, s, offset, []⟩) rest
  | _, some _, .delimiter _ .opening s offset :: _ => .error (.ofOpening .nested input s offset)
  | done, none, .delimiter _ .closing s offset :: rest =>
    pairFrom input (Segment.addText s offset done) none rest
  | done, some t, .delimiter kind .closing s _ :: rest =>
    pairFrom input (.tag (t.close kind s) :: done) none rest

def segments (t : DelimiterTable κ) (input : Text) : Except PairingError (List (Segment κ)) :=
  pairFrom input [] none (t.tokens input)

end DelimiterTable

end Curly
