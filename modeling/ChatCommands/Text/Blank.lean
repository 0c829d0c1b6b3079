namespace ChatCommands.Text

/-- The characters that Unicode lists as `White_Space`. -/
def isBlank (c : Char) : Bool :=
  let n := c.toNat
  (0x9 ≤ n && n ≤ 0xd) || n == 0x20 || n == 0x85 || n == 0xa0 || n == 0x1680 ||
    (0x2000 ≤ n && n ≤ 0x200a) || n == 0x2028 || n == 0x2029 || n == 0x202f || n == 0x205f || n == 0x3000

def trimStart (cs : List Char) : List Char := cs.dropWhile isBlank

def trimEnd (cs : List Char) : List Char := (cs.reverse.dropWhile isBlank).reverse

/-- The text without the blanks at its two ends. -/
def trim (s : String) : String := String.ofList (trimEnd (trimStart s.toList))

/-- Holds of a text with a blank anywhere in it. -/
def hasBlank (s : String) : Bool := s.toList.any isBlank

/-- The pieces between blanks. Two blanks in a row, or one at an end, leave an empty piece. -/
def pieces : List Char → List (List Char)
  | [] => [[]]
  | c :: cs =>
    if isBlank c then [] :: pieces cs
    else
      match pieces cs with
      | [] => [[c]]
      | word :: rest => (c :: word) :: rest

/-- The tokens of a text: its longest blank-free stretches, from left to right. -/
def words (s : String) : List String :=
  ((pieces s.toList).filter (!·.isEmpty)).map String.ofList

/-- The first token of a text and all that comes after it, blanks included. -/
def cut? (s : String) : Option (String × String) :=
  let trimmed := trimStart s.toList
  (words (String.ofList trimmed)).head?.map fun head => (head, String.ofList (trimmed.drop head.length))

/-- What follows `lead` in `cs`, when `cs` begins with it. -/
def afterChars : List Char → List Char → Option (List Char)
  | [], cs => some cs
  | _ :: _, [] => none
  | p :: ps, c :: cs => if p = c then afterChars ps cs else none

/-- What follows `lead` in `s`, when `s` begins with it. -/
def after? (lead s : String) : Option String :=
  (afterChars lead.toList s.toList).map String.ofList

/-- Holds when `part` occurs in `cs` as a stretch of neighbouring characters. -/
def occursIn (part : List Char) : List Char → Bool
  | [] => part.isEmpty
  | c :: cs => part.isPrefixOf (c :: cs) || occursIn part cs

def contains (s part : String) : Bool := occursIn part.toList s.toList

end ChatCommands.Text
