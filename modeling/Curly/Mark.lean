import Curly.Segment

namespace Curly

inductive Mark where
  | reservedOpen
  | reservedClose
  | verbatimOpen
  | commentOpen
  | runOpen
  | plainOpen
  | tripleClose
  | close
deriving DecidableEq, Repr

namespace Mark

def literal : Mark → Text
  | reservedOpen => ['{', '{', '$']
  | reservedClose => ['$', '}', '}']
  | verbatimOpen => ['{', '{', '{']
  | commentOpen => ['{', '{', '!']
  | runOpen => ['{', '{', '~']
  | plainOpen => ['{', '{']
  | tripleClose => ['}', '}', '}']
  | close => ['}', '}']

/-- Delimiters that are recognized and then refused. -/
def isReserved : Mark → Bool
  | reservedOpen | reservedClose => true
  | _ => false

def role : Mark → Role
  | reservedOpen | verbatimOpen | commentOpen | runOpen | plainOpen => .opening
  | reservedClose | tripleClose | close => .closing

/-- The pattern of a delimiter with several spellings. A comment also takes the blank lines before
it, from a line feed on. -/
def source : Mark → Option Text
  | verbatimOpen => some "\\\x7b\\\x7b[\\\x7b&]".toList
  | commentOpen => some "\\n\\s*\\\x7b\\\x7b!|\\\x7b\\\x7b!".toList
  | _ => none

def delimiter (m : Mark) : Delimiter Mark := ⟨m, m.literal, m.role, m.source⟩

/-- The delimiters in order of priority, longer ones before the shorter ones they start with. -/
def delimiters : List (Delimiter Mark) :=
  [reservedOpen, reservedClose, verbatimOpen, commentOpen, runOpen, plainOpen, tripleClose,
    close].map delimiter

theorem isSome_ofDelimiters : (DelimiterTable.ofDelimiters delimiters).toOption.isSome := by
  decide +kernel

def table : DelimiterTable Mark :=
  (DelimiterTable.ofDelimiters delimiters).toOption.get isSome_ofDelimiters

theorem ofDelimiters_delimiters : DelimiterTable.ofDelimiters delimiters = .ok table := by
  have h : (DelimiterTable.ofDelimiters delimiters).toOption = some table := by simp [table]
  cases ht : DelimiterTable.ofDelimiters delimiters with
  | error e => simp [ht, Except.toOption] at h
  | ok t => simpa [ht, Except.toOption] using h

end Mark

end Curly
