import ChatCommands.Template.Operator

namespace ChatCommands.Template

inductive Expr
  | value (v : Value)
  | name (id : String)
  | list (items : List Expr)
  | map (keys values : List Expr)
  | not (e : Expr)
  | negated (e : Expr)
  | binary (op : Operator) (left right : Expr)
  | choice (test yes no : Expr)
  | part (whole key : Expr)
  | call (callee : Expr) (arguments : List Expr)
  | filter (id : String) (subject : Expr) (arguments : List Expr)
  | check (id : String) (subject : Expr) (arguments : List Expr)
  /-- An argument that is given by name. Nothing takes one. -/
  | named (id : String) (e : Expr)
deriving Inhabited

/-- The names that a value is bound to, one to each part of it when there are several. -/
inductive Target
  | one (id : String)
  | several (ids : List String)

inductive Statement
  | text (s : String)
  | show (e : Expr)
  | branch (test : Expr) (yes no : List Statement)
  | loop (target : Target) (range test : Expr) (body otherwise : List Statement)
  | bind (target : Target) (e : Expr)
  | capture (id : String) (body : List Statement)
  | within (bindings : List (Target × Expr)) (body : List Statement)
  /-- Asks for another template. There are no others. -/
  | other (e : Expr) (needed : Bool)

end ChatCommands.Template
