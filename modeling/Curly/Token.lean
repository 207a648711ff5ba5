import Curly.Delimiter.Table

namespace Curly

inductive Token (κ : Type) where
  | text (s : Text) (offset : Nat)
  | delimiter (kind : κ) (role : Role) (s : Text) (offset : Nat)
deriving DecidableEq, Repr

namespace DelimiterTable

variable {κ : Type}

/-- The tokens of `s`, which `place` characters in `offset` bytes come before. Offsets of tokens
count bytes. -/
def tokensFrom (t : DelimiterTable κ) (place offset : Nat) (s : Text) : List (Token κ) :=
  if s = [] then []
  else
    match t.find? place s with
    | none => [.text s offset]
    | some (d, hit) =>
      if hit.rest.length < s.length then
        let start := offset + Text.bytes hit.before
        let found :=
          .delimiter d.kind d.role hit.text start ::
            tokensFrom t (place + hit.before.length + hit.text.length)
              (start + Text.bytes hit.text) hit.rest
        if hit.before = [] then found else .text hit.before offset :: found
      else [.text s offset]
termination_by s.length

def tokens (t : DelimiterTable κ) (s : Text) : List (Token κ) := t.tokensFrom 0 0 s

end DelimiterTable

end Curly
