import ChatCommands.Decimal.Basic
import ChatCommands.Json.Quoted
import ChatCommands.Text.Blank

namespace ChatCommands.Template

inductive Token
  | text (s : String)
  | openShow
  | closeShow
  | openStep
  | closeStep
  | name (s : String)
  | quoted (s : String)
  | whole (n : Nat)
  | fraction (d : Decimal)
  | mark (s : String)
deriving DecidableEq

namespace Token

/-- Blanks between the tokens of a tag. -/
def isGap (c : Char) : Bool := c = ' ' || c = '\t' || c = '\n' || c = '\x0c' || c = '\r'

def isNameStart (c : Char) : Bool := c = '_' || c.isAlpha

def isNamePart (c : Char) : Bool := c = '_' || c.isAlphanum

/-- The text up to the next tag, and the rest. -/
def untilTag : List Char → List Char × List Char
  | [] => ([], [])
  | [c] => ([c], [])
  | a :: b :: cs =>
    if a = '\x7b' ∧ (b = '\x7b' ∨ b = '%' ∨ b = '#') then ([], a :: b :: cs)
    else
      let (lead, rest) := untilTag (b :: cs)
      (a :: lead, rest)

/-- What follows the end of a remark, and whether the blanks there go. -/
def afterRemark : List Char → Option (Bool × List Char)
  | '-' :: '#' :: '\x7d' :: cs => some (true, cs)
  | '#' :: '\x7d' :: cs => some (false, cs)
  | _ :: cs => afterRemark cs
  | [] => none

/-- A sign that stands first. -/
def takeSign : List Char → Option Char × List Char
  | '-' :: cs => (some '-', cs)
  | '+' :: cs => (some '+', cs)
  | cs => (none, cs)

/-- What follows a tag of one word, when `cs` begins with the inside of such a tag, and whether the
blanks there go. -/
def plainTag (word : String) (cs : List Char) : Option (Bool × List Char) := do
  let rest ← Text.afterChars word.toList (cs.dropWhile isGap)
  let (sign?, rest) := takeSign (rest.dropWhile isGap)
  return (sign? = some '-', ← Text.afterChars ['%', '\x7d'] rest)

/-- The text up to a tag `endraw` as it is written, the signs of that tag, and the rest. -/
def untilEndRaw : List Char → Option (List Char × Option Char × Bool × List Char)
  | [] => none
  | c :: cs =>
    let here :=
      match c, cs with
      | '\x7b', '%' :: more =>
        let (sign?, inside) := takeSign more
        (plainTag "endraw" inside).map fun (trims, rest) => ([], sign?, trims, rest)
      | _, _ => none
    match here with
    | some found => some found
    | none => (untilEndRaw cs).map fun (raw, more) => (c :: raw, more)

/-- The part of a numeral that is being read. -/
inductive Stretch
  | based (hexadecimal : Bool)
  | whole
  | places
  | exponentSign
  | exponent
deriving DecidableEq

/-- Where a numeral stands after one more character, if it goes on with it. -/
def Stretch.next? (c : Char) : Stretch → Option Stretch
  | .whole =>
    if c.isDigit ∨ c = '_' then some .whole
    else if c = '.' then some .places
    else if c = 'e' ∨ c = 'E' then some .exponentSign
    else none
  | .places =>
    if c.isDigit ∨ c = '_' then some .places
    else if c = 'e' ∨ c = 'E' then some .exponentSign
    else none
  | .exponentSign =>
    if c.isDigit ∨ c = '+' ∨ c = '-' then some .exponent
    else if c = '_' then some .exponentSign
    else none
  | .exponent => if c.isDigit ∨ c = '_' then some .exponent else none
  | .based hexadecimal =>
    if c.isDigit ∨ c = '_' ∨ (hexadecimal ∧ (Json.hexDigit? c).isSome) then some (.based hexadecimal)
    else none

/-- The characters that a numeral goes on with, where it ends, and the rest. -/
def stretch (s : Stretch) : List Char → List Char × Stretch × List Char
  | [] => ([], s, [])
  | c :: cs =>
    match s.next? c with
    | none => ([], s, c :: cs)
    | some after =>
      let (more, last, rest) := stretch after cs
      (c :: more, last, rest)

/-- The value of digits in a base of at most sixteen. -/
def valueIn? (base : Nat) (digits : List Char) : Option Nat :=
  if digits.isEmpty then none
  else digits.foldlM (fun n c => do
    let d ← Json.hexDigit? c
    if d < base then some (n * base + d) else none) 0

/-- Whole numbers are below `2 ^ 128`. -/
def wholeIn? (base : Nat) (digits : List Char) : Option Token := do
  let n ← valueIn? base digits
  if n < twoTo 128 then some (.whole n) else none

/-- Reads a numeral. An underscore may stand between its digits. -/
def numeral (cs : List Char) : Option (Token × List Char) :=
  let (base, start, body) :=
    match cs with
    | '0' :: 'b' :: more | '0' :: 'B' :: more => (2, Stretch.based false, more)
    | '0' :: 'o' :: more | '0' :: 'O' :: more => (8, Stretch.based false, more)
    | '0' :: 'x' :: more | '0' :: 'X' :: more => (16, Stretch.based true, more)
    | _ => (10, Stretch.whole, cs)
  let (written, last, rest) := stretch start body
  let digits := written.filter (· ≠ '_')
  if written.getLast? = some '_' then none
  else
    match last with
    | .based _ | .whole => (wholeIn? base digits).map (·, rest)
    | _ => (Decimal.ofChars? digits).map fun d => (.fraction d, rest)

/-- The inside of a quoted text, as it is written, and the rest. -/
def untilQuote (quote : Char) : List Char → Option (List Char × List Char)
  | [] => none
  | ['\\'] => none
  | '\\' :: c :: cs => (untilQuote quote cs).map fun (inside, rest) => ('\\' :: c :: inside, rest)
  | c :: cs =>
    if c = quote then some ([], cs)
    else (untilQuote quote cs).map fun (inside, rest) => (c :: inside, rest)

/-- Takes the escapes out of a quoted text. -/
def unescape : List Char → Option (List Char)
  | [] => some []
  | '\\' :: 'u' :: a :: b :: c :: d :: cs =>
    match Json.hex4? a b c d, cs with
    | none, _ => none
    | some n, '\\' :: 'u' :: e :: f :: g :: h :: more =>
      if Json.isHigh n then
        match Json.hex4? e f g h with
        | some m =>
          if Json.isLow m then
            (unescape more).map (Char.ofNat (0x10000 + (n - 0xd800) * 0x400 + (m - 0xdc00)) :: ·)
          else none
        | none => none
      else if Json.isLow n then none
      else (unescape ('\\' :: 'u' :: e :: f :: g :: h :: more)).map (Char.ofNat n :: ·)
    | some n, cs => if Json.isHigh n || Json.isLow n then none else (unescape cs).map (Char.ofNat n :: ·)
  | '\\' :: '\'' :: cs => (unescape cs).map ('\'' :: ·)
  | '\\' :: c :: cs => do (← Json.escaped? c) :: (← unescape cs)
  | ['\\'] => none
  | c :: cs => (unescape cs).map (c :: ·)

def longMarks : List (List Char) := ["//", "**", "==", "!=", ">=", "<="].map String.toList

def shortMarks : List Char := "+-*/%!.,:~|=><()[]\x7b\x7d".toList

/-- Reads one token inside a tag. -/
def one : List Char → Option (Token × List Char)
  | [] => none
  | c :: cs =>
    match longMarks.find? (·.isPrefixOf (c :: cs)) with
    | some long => some (.mark (String.ofList long), (c :: cs).drop long.length)
    | none =>
      if shortMarks.contains c then some (.mark c.toString, cs)
      else if c = '"' ∨ c = '\'' then do
        let (inside, rest) ← untilQuote c cs
        return (.quoted (String.ofList (← unescape inside)), rest)
      else if c.isDigit then numeral (c :: cs)
      else if isNameStart c then
        some (.name (String.ofList ((c :: cs).takeWhile isNamePart)), (c :: cs).dropWhile isNamePart)
      else none

/-- How many brackets a token opens, less those that it closes. -/
def nesting : Token → Int
  | .mark "(" | .mark "[" | .mark "\x7b" => 1
  | .mark ")" | .mark "]" | .mark "\x7d" => -1
  | _ => 0

/-- Where reading stands: in text, whose first blanks may go, or inside a tag, so many brackets deep. -/
inductive Place
  | text (trims : Bool)
  | show (depth : Int)
  | step (depth : Int)

/-- The end of the tag at a place, what follows it, and where that is. -/
def close? : Place → List Char → Option (Token × Place × List Char)
  | .show 0, '-' :: '\x7d' :: '\x7d' :: cs => some (.closeShow, .text true, cs)
  | .show 0, '\x7d' :: '\x7d' :: cs => some (.closeShow, .text false, cs)
  | .step 0, '-' :: '%' :: '\x7d' :: cs => some (.closeStep, .text true, cs)
  | .step 0, '+' :: '%' :: '\x7d' :: cs => some (.closeStep, .text false, cs)
  | .step 0, '%' :: '\x7d' :: cs => some (.closeStep, .text false, cs)
  | _, _ => none

def Place.after (t : Token) : Place → Place
  | .show depth => .show (depth + t.nesting)
  | .step depth => .step (depth + t.nesting)
  | .text trims => .text trims

/-- Text without any characters is no token. -/
def ofText (cs : List Char) : List Token := if cs.isEmpty then [] else [.text (String.ofList cs)]

/-- Reads the tokens at a place. Each round of reading takes at least one character, so the length of the
text is fuel enough. -/
def scan : (fuel : Nat) → Place → List Char → Option (List Token)
  | 0, _, cs => if cs.isEmpty then some [] else none
  | fuel + 1, .text trims, cs =>
    let (lead, rest) := untilTag (if trims then Text.trimStart cs else cs)
    match rest with
    | _ :: kind :: more =>
      let (sign?, inside) := takeSign more
      let lead := ofText (if sign? = some '-' then Text.trimEnd lead else lead)
      if kind = '#' then do
        let (trims, rest) ← afterRemark more
        return lead ++ (← scan fuel (.text trims) rest)
      else if kind = '%' then
        match plainTag "raw" inside with
        | some (trimsRaw, rest) => do
          let (raw, sign?, trims, rest) ← untilEndRaw rest
          let raw := if trimsRaw then Text.trimStart raw else raw
          let raw := if sign? = some '-' then Text.trimEnd raw else raw
          return lead ++ ofText raw ++ (← scan fuel (.text trims) rest)
        | none => return lead ++ .openStep :: (← scan fuel (.step 0) inside)
      else return lead ++ .openShow :: (← scan fuel (.show 0) inside)
    | _ => some (ofText lead)
  | fuel + 1, place, cs =>
    match cs.dropWhile isGap with
    | [] => some []
    | c :: cs =>
      match close? place (c :: cs) with
      | some (token, place, rest) => return token :: (← scan fuel place rest)
      | none => do
        let (token, rest) ← one (c :: cs)
        return token :: (← scan fuel (place.after token) rest)

/-- A line end at the very end of a template is not part of it. -/
def withoutLastLineEnd (cs : List Char) : List Char :=
  let drop (c : Char) (backwards : List Char) : List Char :=
    match backwards with
    | [] => []
    | d :: rest => if d = c then rest else d :: rest
  (drop '\x0d' (drop '\n' cs.reverse)).reverse

/-- The tokens of a template, when all of its tags can be read. -/
def ofSource (source : String) : Option (List Token) :=
  let cs := withoutLastLineEnd source.toList
  scan (cs.length + 1) (.text false) cs

end Token

end ChatCommands.Template
