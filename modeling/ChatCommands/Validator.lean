import ChatCommands.DefinitionError
import ChatCommands.Decimal.Shortest

namespace ChatCommands

/-- A check with a name. It yields the value of a token that it accepts. -/
structure Validator where
  label : String
  check : String → Option String

namespace Validator

/-- A validator that accepts the tokens on which `accepts` holds, as they are. -/
def verbatim (label : String) (accepts : String → Bool) : Validator :=
  ⟨label, fun token => if accepts token then some token else none⟩

def string : Validator := verbatim "string" fun _ => true

def leastInteger : Int := -9223372036854775808

def greatestInteger : Int := 9223372036854775807

/-- The whole number that a token stands for, when it fits in 64 bits. -/
def integerValue? (token : String) : Option Int :=
  (Text.integer? token).filter fun n => leastInteger ≤ n && n ≤ greatestInteger

def integer : Validator := verbatim "integer" fun token => (integerValue? token).isSome

/-- Accepts the whole numbers from `min` to `max`. -/
def integerRange (min max : Int) : Validator :=
  verbatim s!"integer {min}..={max}" fun token =>
    (integerValue? token).any fun n => min ≤ n && n ≤ max

def float : Validator := verbatim "float" fun token => (number? token).isSome

/-- Accepts the numbers from `min` to `max`. -/
def floatRange (min max : Float) : Validator :=
  verbatim s!"float {Float.plain min}..={Float.plain max}" fun token =>
    (number? token).any fun x => min ≤ x && x ≤ max

def oneOf (options : List String) : Validator :=
  verbatim ("one of " ++ "/".intercalate options) fun token => options.contains token

def boolean : Validator := verbatim "boolean" fun token => token == "true" || token == "false"

/-- The digits between an opening and the closing `>` that ends the token. -/
def mentioned? (cs : List Char) : Option String :=
  match cs.reverse with
  | '>' :: digits => if Text.isNumeral digits then some (String.ofList digits.reverse) else none
  | _ => none

/-- Accepts a mention of a user and yields the identifier in it. -/
def userMention : Validator :=
  ⟨"user mention", fun token =>
    match token.toList with
    | '<' :: '@' :: '!' :: cs => mentioned? cs
    | '<' :: '@' :: cs => mentioned? cs
    | _ => none⟩

/-- Accepts a mention of a channel and yields the identifier in it. -/
def channelMention : Validator :=
  ⟨"channel mention", fun token =>
    match token.toList with
    | '<' :: '#' :: cs => mentioned? cs
    | _ => none⟩

end Validator

/-- A validator as a declaration names it. -/
inductive ValidatorSpec where
  | string
  | integer
  | integerRange (min max : Int)
  | float
  | floatRange (min max : Float)
  | oneOf (options : List String)
  | boolean
  | userMention
  | channelMention

/-- The validator that the declaration of `argument` asks for. A range that holds nothing and a choice
among nothing are refused. -/
def ValidatorSpec.build (argument : String) : ValidatorSpec → Except DefinitionError Validator
  | .string => .ok .string
  | .integer => .ok .integer
  | .integerRange min max =>
    if max < min then .error (.invalidValidator argument "min exceeds max")
    else .ok (.integerRange min max)
  | .float => .ok .float
  | .floatRange min max =>
    if min ≤ max then .ok (.floatRange min max)
    else .error (.invalidValidator argument "bounds must be ordered numbers")
  | .oneOf options =>
    if options.isEmpty then .error (.invalidValidator argument "no options given")
    else .ok (.oneOf options)
  | .boolean => .ok .boolean
  | .userMention => .ok .userMention
  | .channelMention => .ok .channelMention

end ChatCommands
