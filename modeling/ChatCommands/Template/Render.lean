import ChatCommands.Template.Expr
import ChatCommands.Template.Filter

namespace ChatCommands.Template

/-- What names stand for, the innermost block first. -/
abbrev Scope := List (List (String × Value))

namespace Scope

def value (scope : Scope) (id : String) : Value := Value.ofOption (scope.findSome? (·.lookup id))

/-- Binds a name in the innermost block. -/
def bind (id : String) (v : Value) : Scope → Scope
  | [] => [[(id, v)]]
  | block :: outer => ((id, v) :: block) :: outer

/-- Binds several names to as many parts of a value. -/
def bindParts : List String → List Value → Scope → Option Scope
  | [], [], scope => some scope
  | id :: ids, v :: vs, scope => bindParts ids vs (scope.bind id v)
  | _, _, _ => none

def bindTarget (target : Target) (v : Value) (scope : Scope) : Option Scope :=
  match target with
  | .one id => some (scope.bind id v)
  | .several ids => do bindParts ids (← v.items?) scope

end Scope

/-- The whole numbers from one to before another, by a step. Long runs of them are refused. -/
def range (start stop step : Int) : Option Value :=
  if step = 0 then none
  else
    let count := if 0 < step then (stop - start + step - 1) / step else (start - stop - step - 1) / -step
    if 100000 < count then none
    else some (.list ((List.range count.toNat).map fun (i : Nat) => .whole (start + i * step)))

/-- The functions that a name stands for when it is not bound. -/
def applyFunction (id : String) (arguments : List Value) : Option Value := do
  if id = "range" then
    match ← arguments.mapM (·.whole?) with
    | [stop] => range 0 stop 1
    | [start, stop] => range start stop 1
    | [start, stop, step] => range start stop step
    | _ => none
  else none

mutual

def Expr.eval (scope : Scope) : Expr → Option Value
  | .value v => some v
  | .name id => some (scope.value id)
  | .list items => (evalAll scope items).map .list
  | .map keys values => do
    let keys ← evalAll scope keys
    let values ← evalAll scope values
    return Value.ofEntries (keys.zip values)
  | .not e => do return .bool !(← e.eval scope).holds
  | .negated e => do Operator.negated (← e.eval scope)
  | .binary op left right => do
    let a ← left.eval scope
    if op = .or ∧ a.holds ∨ op = .and ∧ !a.holds then return a
    op.apply a (← right.eval scope)
  | .choice test yes no => do
    if (← test.eval scope).holds then yes.eval scope else no.eval scope
  | .part whole key => do
    let v ← whole.eval scope
    v.part (← key.eval scope)
  | .call callee arguments => do
    let given ← evalAll scope arguments
    match callee with
    | .name id => if (scope.value id).isUnknown then applyFunction id given else none
    | _ => none
  | .filter id subject arguments => do
    let v ← subject.eval scope
    applyFilter id v (← evalAll scope arguments)
  | .check id subject arguments => do
    let v ← subject.eval scope
    return .bool (← applyCheck id v (← evalAll scope arguments))
  | .named _ _ => none

def evalAll (scope : Scope) : List Expr → Option (List Value)
  | [] => some []
  | e :: rest => do return (← e.eval scope) :: (← evalAll scope rest)

end

/-- What a loop tells of the round with this number. -/
def loopValue (index length : Nat) : Value :=
  Value.ofEntries [
    (.text "index0", .whole index), (.text "index", .whole (index + 1)),
    (.text "revindex", .whole (length - index)), (.text "revindex0", .whole (length - index - 1)),
    (.text "first", .bool (index = 0)), (.text "last", .bool (index + 1 = length)),
    (.text "length", .whole length), (.text "depth", .whole 1), (.text "depth0", .whole 0)]

/-- Binds the targets of a statement `with`, one after another. -/
def bindAll : List (Target × Expr) → Scope → Option Scope
  | [], scope => some scope
  | (target, e) :: rest, scope => do bindAll rest (← scope.bindTarget target (← e.eval scope))

/-- The items that a loop runs over and whose test holds. -/
def selected (target : Target) (range test : Expr) (scope : Scope) : Option (List Value) := do
  (← (← range.eval scope).items?).filterM fun v => do
    return (← test.eval (← Scope.bindTarget target v ([] :: scope))).holds

mutual

/-- The text of a statement, and the scope after it. -/
def Statement.render (scope : Scope) : Statement → Option (String × Scope)
  | .text s => some (s, scope)
  | .show e => do return ((← e.eval scope).shown, scope)
  | .branch test yes no => do
    if (← test.eval scope).holds then renderAll scope yes else renderAll scope no
  | .loop target range test body otherwise => do
    let values ← selected target range test scope
    if values.isEmpty then renderAll scope otherwise
    else
      let (text, inner, _) ← values.foldlM
        (fun (text, inner, index) v => do
          let inner ← Scope.bindTarget target v (Scope.bind "loop" (loopValue index values.length) inner)
          let (more, inner) ← renderAll inner body
          return (text ++ more, inner, index + 1))
        ("", [] :: scope, 0)
      return (text, inner.drop 1)
  | .bind target e => do return ("", ← scope.bindTarget target (← e.eval scope))
  | .capture id body => do
    let (text, scope) ← renderAll scope body
    return ("", Scope.bind id (.text text) scope)
  | .within bindings body => do
    let (text, inner) ← renderAll (← bindAll bindings ([] :: scope)) body
    return (text, inner.drop 1)
  | .other e needed => do
    let _ ← e.eval scope
    if needed then none else return ("", scope)

def renderAll (scope : Scope) : List Statement → Option (String × Scope)
  | [] => some ("", scope)
  | s :: rest => do
    let (text, scope) ← s.render scope
    let (more, scope) ← renderAll scope rest
    return (text ++ more, scope)

end

end ChatCommands.Template
