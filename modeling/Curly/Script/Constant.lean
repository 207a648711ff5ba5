import Curly.Script.Expr

namespace Curly.Script.Expr

def literal? : Expr → Option Value
  | const v => some v
  | _ => none

def literalEntry? (entry : Expr × Expr) : Option (Value × Value) := do
  some (← entry.1.literal?, ← entry.2.literal?)

mutual

/-- The value of a constant expression, which does not depend on where it stands. One that fails is
no constant. -/
def constant? : Expr → Option Value
  | const v => some v
  | list es => (es.mapM literal?).map .ofList
  | map entries => do
    let entries ← entries.mapM literalEntry?
    some (.map (entries.foldl (fun done (k, v) => Value.insertEntry k v done) []))
  | unary op e => do (op.apply (← constant? e)).toOption
  | binary op l r => do (op.fold (← constant? l) (← constant? r)).toOption
  | compare e links => do
    let v ← constant? e
    (constantChain? v links).map .bool
  | _ => none

def constantChain? (v : Value) : List (Comparison × Expr) → Option Bool
  | [] => some true
  | (c, e) :: links => do
    let w ← constant? e
    let first ← (c.holds v w).toOption
    let rest ← constantChain? w links
    some (first && rest)

end

end Curly.Script.Expr
