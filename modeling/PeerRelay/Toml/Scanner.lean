import PeerRelay.Toml.Value
import PeerRelay.Text.Hex

/-!
# The small parts of a TOML document

Readers take a part off the front of the text, or refuse. This module holds
white space, comments, keys, and the values that hold no other values: strings,
numbers, dates and times.
-/

namespace PeerRelay.Toml

/-- The characters that are still to be read, and how many they are. -/
structure Input where
  chars : List Char
  left : Nat := chars.length
  left_eq : left = chars.length := by rfl

namespace Input

/-- The characters of a class at the front, and the input after them. -/
def span (input : Input) (p : Char → Bool) : List Char × Input :=
  let taken := input.chars.takeWhile p
  (taken,
    { chars := input.chars.drop taken.length
      left := input.left - taken.length
      left_eq := by rw [input.left_eq, List.length_drop] })

/-- The input after so many characters. -/
def drop (input : Input) (n : Nat) : Input where
  chars := input.chars.drop n
  left := input.left - n
  left_eq := by rw [input.left_eq, List.length_drop]

@[simp] theorem left_drop (input : Input) (n : Nat) : (input.drop n).left = input.left - n := rfl

end Input

/-- Takes a part off the front of a text. -/
abbrev Reader (α : Type) := StateT Input Option α

namespace Reader

variable {α : Type}

/-- The next character, left where it is. -/
def peek : Reader (Option Char) := fun input => some (input.chars.head?, input)

/-- Takes one character of a class. -/
def satisfy (p : Char → Bool) : Reader Char := fun input =>
  match input.chars with
  | c :: _ => if p c then some (c, input.drop 1) else none
  | [] => none

def char (c : Char) : Reader Unit := do
  let _ ← satisfy (· == c)

/-- Takes the very characters. -/
def literal (expected : List Char) : Reader Unit := fun input =>
  if expected.isPrefixOf input.chars then some ((), input.drop expected.length) else none

/-- Takes the characters of a class, as many as there are. -/
def takeWhile (p : Char → Bool) : Reader (List Char) := fun input => some (input.span p)

/-- Takes the characters of a class; there must be one. -/
def takeSome (p : Char → Bool) : Reader (List Char) := do
  let first ← satisfy p
  let others ← takeWhile p
  return first :: others

/-- What the reader takes, or nothing. -/
def maybe (reader : Reader α) : Reader (Option α) := fun input =>
  match reader input with
  | some (a, rest) => some (some a, rest)
  | none => some (none, input)

/-- Reads again and again until the reader refuses or takes nothing. -/
def many (reader : Reader α) : Reader (List α) := fun input =>
  match reader input with
  | none => some ([], input)
  | some (a, rest) =>
    if _h : rest.left < input.left then
      match many reader rest with
      | some (as, rest) => some (a :: as, rest)
      | none => none
    else some ([a], rest)
termination_by input => input.left

/-- Reads at least once, with separators in between. -/
def separated (separator : Reader Unit) (reader : Reader α) : Reader (List α) := do
  let first ← reader
  let others ← many (do separator; reader)
  return first :: others

def atEnd : Reader Unit := fun input =>
  if input.chars.isEmpty then some ((), input) else none

/-- What the reader makes of a text, all of which it must take. -/
def readAll? (reader : Reader α) (text : List Char) : Option α :=
  ((reader <* atEnd) { chars := text }).map Prod.fst

end Reader

open Reader

/-- A space or a tab. -/
def isSpace (c : Char) : Bool := c == ' ' || c == '\t'

/-- The characters that may stand in a comment or a string: tab, and all but
the control characters. -/
def isText (c : Char) : Bool := c == '\t' || (0x20 ≤ c.toNat && c.toNat != 0x7F)

def spaces : Reader Unit := do
  let _ ← takeWhile isSpace

def newline : Reader Unit := char '\n' <|> literal ['\r', '\n']

def comment : Reader Unit := do
  char '#'
  let _ ← takeWhile isText

/-- What may stand between a value and the end of its line, and the end itself. -/
def lineEnd : Reader Unit := do
  spaces
  let _ ← maybe comment
  newline <|> atEnd

/-- Spaces, newlines, and comments that end with a newline. -/
def blankLines : Reader Unit := do
  spaces
  let _ ← many (do
    let _ ← maybe comment
    newline
    spaces)

/-! ## Strings -/

/-- The value of hexadecimal digits. -/
def hexNumber (digits : List Char) : Nat :=
  digits.foldl (fun n c => 16 * n + (Text.hexValue? c).getD 0) 0

def hexDigit : Reader Char := satisfy (fun c => (Text.hexValue? c).isSome)

/-- A code point of so many hexadecimal digits; surrogates are refused. -/
def codePoint (count : Nat) : Reader Char := do
  let digits ← (List.replicate count ()).mapM (fun _ => hexDigit)
  let n := hexNumber digits
  if n.isValidChar then return Char.ofNat n else failure

/-- A backslash and the character it stands for. -/
def escaped : Reader Char := do
  char '\\'
  let c ← satisfy (fun _ => true)
  if c = 'b' then return '\x08'
  else if c = 't' then return '\t'
  else if c = 'n' then return '\n'
  else if c = 'f' then return '\x0c'
  else if c = 'r' then return '\r'
  else if c = '\"' then return '\"'
  else if c = '\\' then return '\\'
  else if c = 'u' then codePoint 4
  else if c = 'U' then codePoint 8
  else failure

/-- Characters that stand for themselves, or one that is escaped. -/
def basicPiece : Reader (List Char) :=
  takeSome (fun c => isText c && c != '\"' && c != '\\') <|> (do return [← escaped])

def basicString : Reader String := do
  char '\"'
  let pieces ← many basicPiece
  char '\"'
  return String.ofList pieces.flatten

def literalString : Reader String := do
  char '\''
  let cs ← takeWhile (fun c => isText c && c != '\'')
  char '\''
  return String.ofList cs

/-- A backslash at the end of a line takes the white space up to the next text away. -/
def lineContinuation : Reader (List Char) := do
  char '\\'
  spaces
  newline
  let _ ← many (do newline <|> (do let _ ← satisfy isSpace))
  return []

/-- One or two quotes that do not close the string. -/
def innerQuotes (quote : Char) : Reader (List Char) := do
  let quotes ← takeSome (· == quote)
  guard (quotes.length ≤ 2 && (← peek).isSome)
  return quotes

/-- The closing quotes; up to two more in front of them belong to the string. -/
def closingQuotes (quote : Char) : Reader (List Char) := do
  let two := [quote, quote]
  literal (quote :: two)
  let extra ← literal two *> pure two <|> literal [quote] *> pure [quote] <|> pure []
  return extra

/-- A string between triple quotes. A newline right after the opening ones is
not part of it, and every newline in it is one line feed. -/
def multiline (quote : Char) (piece : Reader (List Char)) : Reader String := do
  literal [quote, quote, quote]
  let _ ← maybe newline
  let pieces ← many
    (piece <|> (do newline; return ['\n']) <|> innerQuotes quote)
  let last ← closingQuotes quote
  return String.ofList (pieces.flatten ++ last)

def multilineBasic : Reader String :=
  multiline '\"' (lineContinuation <|> basicPiece)

def multilineLiteral : Reader String :=
  multiline '\'' (takeSome (fun c => isText c && c != '\''))

def anyString : Reader String :=
  multilineBasic <|> basicString <|> multilineLiteral <|> literalString

/-! ## Keys -/

def isBareKey (c : Char) : Bool := c.isAlphanum || c == '_' || c == '-'

def bareKey : Reader String := do
  return String.ofList (← takeSome isBareKey)

def simpleKey : Reader String := bareKey <|> basicString <|> literalString

/-- Where a document becomes too deep: a dotted key has fewer parts, and fewer arrays
and inline tables stand within one another. -/
def depthLimit : Nat := 80

/-- A key with its dotted path. -/
def key : Reader (List String) := do
  spaces
  let path ← separated (do spaces; char '.'; spaces) simpleKey
  spaces
  guard (path.length < depthLimit)
  return path

/-! ## Numbers -/

def isDecimal (c : Char) : Bool := '0' ≤ c && c ≤ '9'

/-- Digits of a class; single underscores may stand between them. -/
def digitRun (p : Char → Bool) : Reader (List Char) := do
  let first ← satisfy p
  let others ← many (satisfy p <|> (do char '_'; satisfy p))
  return first :: others

/-- The value of digits in a base. -/
def digitsValue (base : Nat) (digits : List Char) : Nat :=
  digits.foldl (fun n c => base * n + (Text.hexValue? c).getD 0) 0

def sign : Reader Bool := do
  let c ← maybe (satisfy (fun c => c == '+' || c == '-'))
  return c == some '-'

/-- The digits of a decimal number, which has no leading zero. -/
def wholeDigits : Reader (List Char) := do
  match ← peek with
  | some '0' =>
    char '0'
    return ['0']
  | _ => digitRun isDecimal

def prefixed (mark : Char) (base : Nat) : Reader Int := do
  literal ['0', mark]
  let digits ← digitRun (fun c => (Text.hexValue? c).any (· < base))
  return digitsValue base digits

/-- A whole number of 64 bits with a sign. -/
def integer : Reader Int := do
  let n ← prefixed 'x' 16 <|> prefixed 'o' 8 <|> prefixed 'b' 2 <|> (do
    let negative ← sign
    let n := digitsValue 10 (← wholeDigits)
    return if negative then Int.neg n else n)
  guard (-9223372036854775808 ≤ n ∧ n ≤ 9223372036854775807)
  return n

def exponent : Reader Int := do
  let _ ← satisfy (fun c => c == 'e' || c == 'E')
  let negative ← sign
  let n := digitsValue 10 (← digitRun isDecimal)
  return if negative then Int.neg n else n

/-- Whether a decimal is too large for a 64-bit floating-point number. -/
def overflows (digits : Nat) (tens : Int) : Bool :=
  let size := (Nat.toDigits 10 digits).length + tens
  if digits = 0 ∨ size < 300 then false
  else if 320 < size then true
  else
    (Decimal.twoTo 1024 - Decimal.twoTo 970) * Decimal.tenTo (-tens).toNat ≤
      digits * Decimal.tenTo tens.toNat

/-- A number with a fraction, an exponent, or both. A positive one that is too
large is refused. -/
def decimalReal : Reader Real := do
  let negative ← sign
  let whole ← wholeDigits
  let fraction ← maybe (do char '.'; digitRun isDecimal)
  let tens ← maybe exponent
  guard (fraction.isSome || tens.isSome)
  let fraction := fraction.getD []
  let digits := digitsValue 10 (whole ++ fraction)
  let tens := tens.getD 0 - fraction.length
  guard (negative || !overflows digits tens)
  return .decimal negative digits tens

def specialReal : Reader Real := do
  let negative ← sign
  (do literal ['i', 'n', 'f']; return .infinite negative) <|>
    (do literal ['n', 'a', 'n']; return .nan)

def real : Reader Real := decimalReal <|> specialReal

/-! ## Dates and times -/

/-- A number of exactly so many digits within bounds. -/
def fixedNumber (width low high : Nat) : Reader Nat := do
  let digits ← (List.replicate width ()).mapM (fun _ => satisfy isDecimal)
  let n := digitsValue 10 digits
  guard (low ≤ n ∧ n ≤ high)
  return n

def daysIn (year month : Nat) : Nat :=
  if month = 2 then
    if year % 4 = 0 ∧ (year % 100 ≠ 0 ∨ year % 400 = 0) then 29 else 28
  else if month = 4 ∨ month = 6 ∨ month = 9 ∨ month = 11 then 30
  else 31

def date : Reader Date := do
  let year ← fixedNumber 4 0 9999
  char '-'
  let month ← fixedNumber 2 1 12
  char '-'
  let day ← fixedNumber 2 1 31
  guard (day ≤ daysIn year month)
  return ⟨year, month, day⟩

/-- A time of day; digits of the fraction past the ninth are dropped. -/
def time : Reader Time := do
  let hour ← fixedNumber 2 0 23
  char ':'
  let minute ← fixedNumber 2 0 59
  char ':'
  let second ← fixedNumber 2 0 60
  let fraction ← maybe (do
    char '.'
    takeSome isDecimal)
  let digits := (fraction.getD []).take 9
  return ⟨hour, minute, second, digitsValue 10 digits * Decimal.tenTo (9 - digits.length)⟩

def offset : Reader Offset := do
  (do let _ ← satisfy (fun c => c == 'Z' || c == 'z'); return .utc) <|> (do
    let c ← satisfy (fun c => c == '+' || c == '-')
    let hour ← fixedNumber 2 0 23
    char ':'
    let minute ← fixedNumber 2 0 59
    return .minutes (c == '-') (60 * hour + minute))

/-- A date, a time of day, or both, and with both an offset. -/
def moment : Reader Moment := do
  (do
    let d ← date
    let rest ← maybe (do
      let _ ← satisfy (fun c => c == 'T' || c == 't' || c == ' ')
      return (← time, ← maybe offset))
    return { date := some d, time := rest.map Prod.fst, offset := rest.bind Prod.snd }) <|>
  (do return { time := some (← time) })

/-- The moment that a text names, in the form in which a document has it. -/
def Moment.ofText? (text : String) : Option Moment := moment.readAll? text.toList

/-! ## Values that hold no others -/

def boolean : Reader Bool :=
  (do literal ['t', 'r', 'u', 'e']; return true) <|>
    (do literal ['f', 'a', 'l', 's', 'e']; return false)

/-- A value other than an array or a table. -/
def scalar : Reader Value :=
  (do return .string (← anyString)) <|> (do return .moment (← moment)) <|>
    (do return .real (← real)) <|> (do return .integer (← integer)) <|>
    (do return .boolean (← boolean))

end PeerRelay.Toml
