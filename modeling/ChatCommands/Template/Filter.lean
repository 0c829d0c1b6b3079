import ChatCommands.Template.Operator
import ChatCommands.Text.Case

namespace ChatCommands.Template

open Value

/-- What is put in place of a value that is not known, or with the second argument of one that does not
hold. -/
def orElse (v : Value) (arguments : List Value) : Option Value :=
  let other := ofOption arguments.head?
  let other := if arguments.isEmpty then .text "" else other
  match arguments with
  | [] | [_] => some (if v.isUnknown then other else v)
  | [_, anyway] => some (if v.isUnknown || anyway.holds && !v.holds then other else v)
  | _ => .none

def absolute : Value → Option Value
  | .whole n => Operator.bounded n.natAbs
  | .double x => some (.double x.abs)
  | _ => .none

/-- Rounds to so many places, a half away from zero. -/
def rounded (v : Value) (places : Int) : Option Value :=
  match v with
  | .whole n => some (.whole n)
  | .double x =>
    let scale := Float.pow 10.0 (Float.ofInt places)
    some (.double ((x * scale).round / scale))
  | _ => .none

def toWhole : Value → Option Value
  | .unknown | .none => some (.whole 0)
  | .bool b => some (.whole (if b then 1 else 0))
  | .whole n => some (.whole n)
  | .double x => some (.whole x.toInt64.toInt)
  | .text s =>
    match Text.integer? s with
    | some n => Operator.bounded n
    | .none => (number? s).map fun x => .whole x.toInt64.toInt
  | _ => .none

def toDouble : Value → Option Value
  | .unknown | .none => some (.double 0.0)
  | .text s => (number? s).map .double
  | v => v.double?.map .double

/-- Every word begins with a capital and goes on without. -/
def titled : (start : Bool) → List Char → List Char
  | _, [] => []
  | start, c :: cs =>
    let n := c.toNat
    let apart := Text.isBlank c || 0x21 ≤ n && n ≤ 0x7e && !c.isAlphanum
    if apart then c :: titled true cs
    else (if start then Text.upperChar c else Text.lowerChar c) ++ titled false cs

def capitalised (s : String) : String :=
  match s.toList with
  | [] => ""
  | c :: cs => String.ofList (Text.upperChar c) ++ Text.lower (String.ofList cs)

/-- Puts `new` for every `old`, from left to right. -/
def replaced (old new s : String) : String := new.intercalate (s.splitOn old)

def escapedChar : Char → String
  | '<' => "&lt;"
  | '>' => "&gt;"
  | '&' => "&amp;"
  | '"' => "&quot;"
  | '\'' => "&#x27;"
  | '/' => "&#x2f;"
  | c => c.toString

def trimmedOf (chars s : List Char) : List Char :=
  let drop (cs : List Char) := cs.dropWhile chars.contains
  (drop (drop s).reverse).reverse

def reversed : Value → Option Value
  | .text s => some (.text (String.ofList s.toList.reverse))
  | .list items => some (.list items.reverse)
  | .unknown => some .unknown
  | .none => some .none
  | _ => .none

def joined (v : Value) (between : String) : Option Value :=
  v.items?.map fun items => .text (between.intercalate (items.map Value.shown))

/-- The item of which no other is further towards one end of the order. -/
def extreme (better : Ordering) (items : List Value) : Value :=
  match items with
  | [] => .unknown
  | first :: rest => rest.foldl (fun best v => if v.order best == better then v else best) first

/-- Items in order, texts without regard to capitals. -/
def sorted (items : List Value) : List Value :=
  let key (v : Value) : Value :=
    match v with
    | .text s => .text (Text.lower s)
    | v => v
  items.mergeSort fun a b => (key a).order (key b) != .gt

def applyFilter (id : String) (v : Value) (arguments : List Value) : Option Value :=
  match id, arguments with
  | "default", arguments | "d", arguments => orElse v arguments
  | "round", [places] => do rounded v (← places.whole?)
  | "round", [] => rounded v 0
  | "trim", [chars] => some (.text (String.ofList (trimmedOf chars.shown.toList v.shown.toList)))
  | "replace", [old, new] => some (.text (replaced old.shown new.shown v.shown))
  | "join", [between] => joined v between.shown
  | "join", [] => joined v ""
  | "upper", [] => some (.text (Text.upper v.shown))
  | "lower", [] => some (.text (Text.lower v.shown))
  | "title", [] => some (.text (String.ofList (titled true v.shown.toList)))
  | "capitalize", [] => some (.text (capitalised v.shown))
  | "trim", [] => some (.text (Text.trim v.shown))
  | "escape", [] | "e", [] => some (.text (String.join (v.shown.toList.map escapedChar)))
  | "safe", [] | "string", [] => some (.text v.shown)
  | "length", [] | "count", [] => v.size?.map fun n => .whole n
  | "abs", [] => absolute v
  | "int", [] => toWhole v
  | "float", [] => toDouble v
  | "bool", [] => some (.bool v.holds)
  | "list", [] => v.items?.map .list
  | "reverse", [] => reversed v
  | "first", [] => v.items?.map fun items => ofOption items.head?
  | "last", [] => v.items?.map fun items => ofOption items.getLast?
  | "min", [] => v.items?.map (extreme .lt)
  | "max", [] => v.items?.map (extreme .gt)
  | "sort", [] => v.items?.map fun items => .list (sorted items)
  | "sum", [] => do (← v.items?).foldlM Operator.sum (.whole 0)
  | _, _ => .none

def divides (v by_ : Value) : Bool :=
  match v.whole?, by_.whole? with
  | some m, some n => n ≠ 0 && m % n = 0
  | _, _ => false

def applyCheck (id : String) (v : Value) (arguments : List Value) : Option Bool :=
  match id, arguments with
  | "defined", [] => some !v.isUnknown
  | "undefined", [] => some v.isUnknown
  | "none", [] => some (match v with | .none => true | _ => false)
  | "boolean", [] => some (match v with | .bool _ => true | _ => false)
  | "true", [] => some (match v with | .bool true => true | _ => false)
  | "false", [] => some (match v with | .bool false => true | _ => false)
  | "number", [] => some (match v with | .whole _ | .double _ => true | _ => false)
  | "integer", [] | "int", [] => some (match v with | .whole _ => true | _ => false)
  | "float", [] => some (match v with | .double _ => true | _ => false)
  | "string", [] => some (match v with | .text _ => true | _ => false)
  | "sequence", [] => some (match v with | .list _ => true | _ => false)
  | "mapping", [] => some (match v with | .map _ => true | _ => false)
  | "iterable", [] => some v.items?.isSome
  | "odd", [] => some (v.whole?.any fun n => n % 2 ≠ 0)
  | "even", [] => some (v.whole?.any fun n => n % 2 = 0)
  | "divisibleby", [n] => some (divides v n)
  | "startingwith", [part] => some (v.shown.startsWith part.shown)
  | "endingwith", [part] => some (v.shown.endsWith part.shown)
  | "eq", [b] | "equalto", [b] | "sameas", [b] => some (v.same b)
  | "ne", [b] => some !v.same b
  | "lt", [b] | "lessthan", [b] => some (v.order b == .lt)
  | "le", [b] => some (v.order b != .gt)
  | "gt", [b] | "greaterthan", [b] => some (v.order b == .gt)
  | "ge", [b] => some (v.order b != .lt)
  | "in", [b] => some ((b.has v).getD false)
  | _, _ => .none

end ChatCommands.Template
