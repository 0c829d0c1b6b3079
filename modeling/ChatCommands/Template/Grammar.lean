import ChatCommands.Template.Expr
import ChatCommands.Template.Token

namespace ChatCommands.Template

/-- Reads from the front of a list of tokens. -/
abbrev Parse := StateT (List Token) Option

namespace Parse

def peek? : Parse (Option Token) := return (← get).head?

def next : Parse Token := do
  match ← get with
  | [] => failure
  | t :: rest =>
    set rest
    return t

/-- Takes the token if it comes next, and says whether it did. -/
def skip (t : Token) : Parse Bool := do
  if (← peek?) = some t then
    let _ ← next
    return true
  return false

def expect (t : Token) : Parse Unit := do
  if (← next) = t then return () else failure

def identifier : Parse String := do
  match ← next with
  | .name id => return id
  | _ => failure

inductive Level
  | disjunction
  | conjunction
  | negation
  | comparison
  | sum
  | join
  | product
  | power
  | operand
deriving DecidableEq

def Level.tighter : Level → Level
  | .disjunction => .conjunction
  | .conjunction => .negation
  | .negation => .comparison
  | .comparison => .sum
  | .sum => .join
  | .join => .product
  | .product => .power
  | .power | .operand => .operand

def Level.operators : Level → List (Token × Operator)
  | .disjunction => [(.name "or", .or)]
  | .conjunction => [(.name "and", .and)]
  | .comparison => [(.mark "==", .equal), (.mark "!=", .different), (.mark "<", .less), (.mark "<=", .atMost),
      (.mark ">", .more), (.mark ">=", .atLeast), (.name "in", .within)]
  | .sum => [(.mark "+", .plus), (.mark "-", .minus)]
  | .join => [(.mark "~", .join)]
  | .product => [(.mark "*", .times), (.mark "/", .divided), (.mark "//", .dividedWhole), (.mark "%", .remainder)]
  | .power => [(.mark "**", .power)]
  | .negation | .operand => []

/-- Takes an operator of a level if one comes next. -/
def operator? (l : Level) : Parse (Option Operator) := do
  match ← peek? with
  | none => return none
  | some t =>
    match l.operators.lookup t with
    | some op =>
      let _ ← next
      return some op
    | none =>
      if l = .comparison ∧ t = .name "not" then
        let _ ← next
        expect (.name "in")
        return some .notWithin
      return none

/-- Names that stand for a value. -/
def constant? : String → Option Value
  | "true" | "True" => some (.bool true)
  | "false" | "False" => some (.bool false)
  | "none" | "None" => some .none
  | _ => none

/-- Holds when a token after the name of a check begins the one argument of that check. -/
def beginsArgument : Token → Bool
  | .name id => !(["and", "or", "else", "is", "if"].contains id)
  | .quoted _ | .whole _ | .fraction _ => true
  | .mark s => ["+", "-", "[", "\x7b"].contains s
  | _ => false

mutual

/-- Reads an expression. -/
def expr : Nat → Parse Expr
  | 0 => failure
  | fuel + 1 => do choices fuel (← level fuel .disjunction)

/-- Reads the choices that an expression may be one side of. -/
def choices : Nat → Expr → Parse Expr
  | 0, _ => failure
  | fuel + 1, yes => do
    if ← skip (.name "if") then
      let test ← level fuel .disjunction
      let no ← if ← skip (.name "else") then expr fuel else pure (.value .unknown)
      choices fuel (.choice test yes no)
    else return yes

def level : Nat → Level → Parse Expr
  | 0, _ => failure
  | fuel + 1, .negation => do
    if ← skip (.name "not") then return .not (← level fuel .negation)
    level fuel .comparison
  | fuel + 1, .operand => do filters fuel (← trailers fuel (← signed fuel))
  | fuel + 1, l => do operations fuel l (← level fuel l.tighter)

/-- Reads the operations of a level that follow an operand. They group to the left. -/
def operations : Nat → Level → Expr → Parse Expr
  | 0, _, _ => failure
  | fuel + 1, l, left => do
    match ← operator? l with
    | some op => operations fuel l (.binary op left (← level fuel l.tighter))
    | none => return left

def signed : Nat → Parse Expr
  | 0 => failure
  | fuel + 1 => do
    if ← skip (.mark "-") then return .negated (← signed fuel)
    primary fuel

/-- Reads the parts and calls that follow an expression. -/
def trailers : Nat → Expr → Parse Expr
  | 0, _ => failure
  | fuel + 1, e => do
    if ← skip (.mark ".") then trailers fuel (.part e (.value (.text (← identifier))))
    else if ← skip (.mark "[") then
      let key ← expr fuel
      expect (.mark "]")
      trailers fuel (.part e key)
    else if ← skip (.mark "(") then trailers fuel (.call e (← arguments fuel false))
    else return e

/-- Reads the filters and checks that follow an expression. -/
def filters : Nat → Expr → Parse Expr
  | 0, _ => failure
  | fuel + 1, e => do
    if ← skip (.mark "|") then
      let id ← identifier
      let given ← if ← skip (.mark "(") then arguments fuel false else pure []
      filters fuel (.filter id e given)
    else if ← skip (.name "is") then
      let negative ← skip (.name "not")
      let id ← identifier
      let given ←
        if ← skip (.mark "(") then arguments fuel false
        else if (← peek?).any beginsArgument then pure [← trailers fuel (← signed fuel)]
        else pure []
      let check := Expr.check id e given
      filters fuel (if negative then .not check else check)
    else return e

/-- Reads arguments up to the closing bracket. After the first of them each follows a comma. -/
def arguments : Nat → (later : Bool) → Parse (List Expr)
  | 0, _ => failure
  | fuel + 1, later => do
    if ← skip (.mark ")") then return []
    if later then
      expect (.mark ",")
      if ← skip (.mark ")") then return []
    let e ← expr fuel
    match e with
    | .name id =>
      if ← skip (.mark "=") then
        let value ← level fuel .disjunction
        return .named id value :: (← arguments fuel true)
      return e :: (← arguments fuel true)
    | _ => return e :: (← arguments fuel true)

/-- Reads items up to a closing bracket. -/
def items : Nat → (closer : String) → (later : Bool) → Parse (List Expr)
  | 0, _, _ => failure
  | fuel + 1, closer, later => do
    if ← skip (.mark closer) then return []
    if later then
      expect (.mark ",")
      if ← skip (.mark closer) then return []
    let e ← expr fuel
    return e :: (← items fuel closer true)

/-- Reads the entries of a map up to the closing brace. -/
def entries : Nat → (later : Bool) → Parse (List (Expr × Expr))
  | 0, _ => failure
  | fuel + 1, later => do
    if ← skip (.mark "\x7d") then return []
    if later then
      expect (.mark ",")
      if ← skip (.mark "\x7d") then return []
    let key ← expr fuel
    expect (.mark ":")
    let value ← expr fuel
    return (key, value) :: (← entries fuel true)

def primary : Nat → Parse Expr
  | 0 => failure
  | fuel + 1 => do
    match ← next with
    | .name id => return ((constant? id).map .value).getD (.name id)
    | .quoted s => return .value (.text s)
    | .whole n => return .value (.whole n)
    | .fraction d => return .value (.double d.toFloat)
    | .mark "(" =>
      if ← skip (.mark ")") then return .list []
      let e ← expr fuel
      if ← skip (.mark ",") then return .list (e :: (← items fuel ")" false))
      expect (.mark ")")
      return e
    | .mark "[" => return .list (← items fuel "]" false)
    | .mark "\x7b" =>
      let pairs ← entries fuel false
      return .map (pairs.map (·.1)) (pairs.map (·.2))
    | _ => failure

end

/-- Names that no statement may bind. -/
def reserved : List String := ["true", "True", "false", "False", "none", "None", "loop", "self"]

def targetName : Parse String := do
  let id ← identifier
  if reserved.contains id then failure else return id

/-- Reads the names after the first one. A comma may also end them. -/
def moreNames : Nat → Parse (List String)
  | 0 => failure
  | fuel + 1 => do
    if ← skip (.mark ",") then
      match ← peek? with
      | some (.name "in") | some (.mark ")") | some .closeStep => return []
      | _ => return (← targetName) :: (← moreNames fuel)
    return []

def target (fuel : Nat) : Parse Target := do
  let bracketed ← skip (.mark "(")
  let first ← targetName
  let comma := (← peek?) = some (.mark ",")
  let more ← moreNames fuel
  if bracketed then expect (.mark ")")
  return if comma then .several (first :: more) else .one first

/-- Reads the bindings of a statement `with`. -/
def bindings : Nat → (later : Bool) → Parse (List (Target × Expr))
  | 0, _ => failure
  | fuel + 1, later => do
    if (← peek?) = some .closeStep then return []
    if later then expect (.mark ",")
    let id ← targetName
    expect (.mark "=")
    let e ← expr fuel
    return (.one id, e) :: (← bindings fuel true)

mutual

/-- Reads statements up to a tag that begins with one of the words, or to the end of the template. The
opening of that tag is taken too. -/
def statements : Nat → List String → Parse (List Statement)
  | 0, _ => failure
  | fuel + 1, ends => do
    if (← get).isEmpty then return []
    match ← next with
    | .text s => return .text s :: (← statements fuel ends)
    | .openShow =>
      let e ← expr fuel
      expect .closeShow
      return .show e :: (← statements fuel ends)
    | .openStep =>
      match ← peek? with
      | none => failure
      | some (.name word) =>
        if ends.contains word then return []
        let s ← statement fuel
        expect .closeStep
        return s :: (← statements fuel ends)
      | some _ => failure
    | _ => failure

/-- Reads the inside of the tag that a statement begins with, and what belongs to the statement after
it, up to the end of the inside of its last tag. -/
def statement : Nat → Parse Statement
  | 0 => failure
  | fuel + 1 => do
    match ← identifier with
    | "if" => branch fuel
    | "for" =>
      let target ← target fuel
      expect (.name "in")
      let range ← level fuel .disjunction
      let test ← if ← skip (.name "if") then expr fuel else pure (.value (.bool true))
      let _ ← skip (.name "recursive")
      expect .closeStep
      let body ← statements fuel ["endfor", "else"]
      let otherwise ←
        if ← skip (.name "else") then
          expect .closeStep
          statements fuel ["endfor"]
        else pure []
      expect (.name "endfor")
      return .loop target range test body otherwise
    | "set" =>
      let target ← target fuel
      match target, ← peek? with
      | .one id, some .closeStep =>
        expect .closeStep
        let body ← statements fuel ["endset"]
        expect (.name "endset")
        return .capture id body
      | target, _ =>
        expect (.mark "=")
        return .bind target (← expr fuel)
    | "with" =>
      let bound ← bindings fuel false
      expect .closeStep
      let body ← statements fuel ["endwith"]
      expect (.name "endwith")
      return .within bound body
    | "extends" => return .other (← expr fuel) true
    | "include" =>
      let e ← expr fuel
      if ← skip (.name "ignore") then
        expect (.name "missing")
        return .other e false
      return .other e true
    | _ => failure

/-- Reads a condition and what hangs on it. -/
def branch : Nat → Parse Statement
  | 0 => failure
  | fuel + 1 => do
    let test ← expr fuel
    expect .closeStep
    let yes ← statements fuel ["endif", "else", "elif"]
    match ← identifier with
    | "else" =>
      expect .closeStep
      let no ← statements fuel ["endif"]
      expect (.name "endif")
      return .branch test yes no
    | "elif" => return .branch test yes [← branch fuel]
    | _ => return .branch test yes []

end

/-- Reads the statements of a whole template. -/
def all (tokens : List Token) : Option (List Statement) := do
  let (found, _) ← (statements (15 * (tokens.length + 2)) []).run tokens
  return found

end Parse

end ChatCommands.Template
