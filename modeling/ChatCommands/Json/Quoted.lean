import ChatCommands.Json.Reading

namespace ChatCommands.Json

def hexDigit? (c : Char) : Option Nat :=
  if c.isDigit then some (c.toNat - '0'.toNat)
  else if 'a' ≤ c ∧ c ≤ 'f' then some (c.toNat - 'a'.toNat + 10)
  else if 'A' ≤ c ∧ c ≤ 'F' then some (c.toNat - 'A'.toNat + 10)
  else none

def hex4? (a b c d : Char) : Option Nat := do
  return (((← hexDigit? a) * 16 + (← hexDigit? b)) * 16 + (← hexDigit? c)) * 16 + (← hexDigit? d)

/-- The character that a backslash makes of the next one, `u` apart. -/
def escaped? : Char → Option Char
  | '"' => some '"'
  | '\\' => some '\\'
  | '/' => some '/'
  | 'b' => some '\x08'
  | 'f' => some '\x0c'
  | 'n' => some '\n'
  | 'r' => some '\r'
  | 't' => some '\t'
  | _ => none

/-- What is wrong with four hexadecimal digits that are not there. -/
def missingHex (cs : List Char) : Defect :=
  if cs.foldl (fun n c => n + c.utf8Size) 0 < 4 then .ended else .malformed

def isHigh (n : Nat) : Bool := 0xd800 ≤ n && n < 0xdc00

def isLow (n : Nat) : Bool := 0xdc00 ≤ n && n < 0xe000

/-- What is wrong after a high surrogate that no escape of a low one follows. -/
def missingLow : List Char → Defect
  | [] => .ended
  | ['\\'] => .ended
  | '\\' :: 'u' :: rest => missingHex rest
  | _ => .malformed

/-- Reads a string after its opening quote, up to and with its closing one. `before` is what came so
far, backwards. -/
def text (before : List Char) : List Char → Except Defect (String × List Char)
  | [] => .error .ended
  | '"' :: rest => .ok (String.ofList before.reverse, rest)
  | ['\\'] => .error .ended
  | '\\' :: 'u' :: a :: b :: c :: d :: rest =>
    match hex4? a b c d with
    | none => .error .malformed
    | some n =>
      if isLow n then .error .malformed
      else if isHigh n then
        match rest with
        | '\\' :: 'u' :: e :: f :: g :: h :: more =>
          match hex4? e f g h with
          | none => .error .malformed
          | some m =>
            if isLow m then text (Char.ofNat (0x10000 + (n - 0xd800) * 0x400 + (m - 0xdc00)) :: before) more
            else .error .malformed
        | _ => .error (missingLow rest)
      else text (Char.ofNat n :: before) rest
  | '\\' :: 'u' :: rest => .error (missingHex rest)
  | '\\' :: c :: rest =>
    match escaped? c with
    | some x => text (x :: before) rest
    | none => .error .malformed
  | c :: rest => if c.toNat < 0x20 then .error .malformed else text (c :: before) rest

/-- Passes over a string after its opening quote. -/
def passText : List Char → Except Defect (List Char)
  | [] => .error .ended
  | '"' :: rest => .ok rest
  | ['\\'] => .error .ended
  | '\\' :: 'u' :: a :: b :: c :: d :: rest =>
    if (hex4? a b c d).isSome then passText rest else .error .malformed
  | '\\' :: 'u' :: rest => .error (missingHex rest)
  | '\\' :: c :: rest => if (escaped? c).isSome then passText rest else .error .malformed
  | c :: rest => if c.toNat < 0x20 then .error .malformed else passText rest

/-- A string and what follows it. The text is missing when the string can only be passed over. -/
def quoted (cs : List Char) : Except Fault (Option String × List Char) :=
  match text [] cs, passText cs with
  | .ok (s, rest), _ => .ok (some s, rest)
  | .error _, .ok rest => .ok (none, rest)
  | .error needed, .error passed => .error ⟨needed, passed⟩

end ChatCommands.Json
