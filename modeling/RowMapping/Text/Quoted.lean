/-! Quoted text, as messages show values: single quotes unless the text holds only single ones,
escapes for what cannot be printed. -/
namespace RowMapping.Text

private def inRange (n low high : Nat) : Bool := low ≤ n && n ≤ high

/-- Characters that show as themselves. Separators, controls, formats and unassigned planes do not. -/
def isPrintable (c : Char) : Bool :=
  let n := c.toNat
  if n < 0x7F then 0x20 ≤ n
  else !(inRange n 0x7F 0xA0 || n = 0xAD || inRange n 0x600 0x605 || n = 0x61C || n = 0x6DD
    || n = 0x70F || n = 0x1680 || n = 0x180E || inRange n 0x2000 0x200F || inRange n 0x2028 0x202F
    || inRange n 0x205F 0x206F || n = 0x3000 || inRange n 0xD800 0xF8FF || n = 0xFEFF
    || inRange n 0xFFF0 0xFFFB || inRange n 0xFFFE 0xFFFF || inRange n 0xE0000 0x10FFFF)

def hexDigit (n : Nat) : Char := if n < 10 then Char.ofNat (48 + n) else Char.ofNat (87 + n)

def hex : Nat → Nat → List Char
  | 0, _ => []
  | width + 1, n => hex width (n / 16) ++ [hexDigit (n % 16)]

private def escapeCode (n : Nat) : List Char :=
  if n < 0x100 then '\\' :: 'x' :: hex 2 n
  else if n < 0x10000 then '\\' :: 'u' :: hex 4 n
  else '\\' :: 'U' :: hex 8 n

def escape (mark c : Char) : List Char :=
  if c = mark || c = '\\' then ['\\', c]
  else if c = '\n' then ['\\', 'n']
  else if c = '\t' then ['\\', 't']
  else if c = '\r' then ['\\', 'r']
  else if isPrintable c then [c]
  else escapeCode c.toNat

/-- The mark that encloses a text: double only where the text has single marks and no double one. -/
def quoteMark (cs : List Char) : Char :=
  if cs.contains '\'' && !cs.contains '"' then '"' else '\''

def quoted (s : String) : String :=
  let cs := s.toList
  let mark := quoteMark cs
  String.ofList (mark :: cs.flatMap (escape mark) ++ [mark])

private def escapeByte (mark : Char) (b : UInt8) : List Char :=
  let n := b.toNat
  if n < 0x7F && 0x20 ≤ n || n = 9 || n = 10 || n = 13 then escape mark (Char.ofNat n)
  else '\\' :: 'x' :: hex 2 n

def quotedBytes (bytes : List UInt8) : String :=
  let mark := quoteMark (bytes.map fun b => Char.ofNat b.toNat)
  String.ofList ('b' :: mark :: bytes.flatMap (escapeByte mark) ++ [mark])

def quotedList (names : List String) : String :=
  "[" ++ ", ".intercalate (names.map quoted) ++ "]"

/-- Names joined as in a sentence: `a`, `a and b`, `a, b, and c`. -/
def series (word : String) : List String → String
  | [] => ""
  | [a] => a
  | [a, b] => a ++ " " ++ word ++ " " ++ b
  | names => ", ".intercalate names.dropLast ++ ", " ++ word ++ " " ++ names.getLastD ""

def choice (word : String) : List String → String
  | [] => ""
  | [a] => a
  | names => ", ".intercalate names.dropLast ++ " " ++ word ++ " " ++ names.getLastD ""

def ofUtf8? (bytes : List UInt8) : Option String := String.fromUTF8? ⟨bytes.toArray⟩

def toUtf8 (s : String) : List UInt8 := s.toUTF8.toList

def isBlank (c : Char) : Bool :=
  let n := c.toNat
  inRange n 9 13 || n = 32 || n = 0x85 || n = 0xA0 || n = 0x1680 || inRange n 0x2000 0x200A
    || n = 0x2028 || n = 0x2029 || n = 0x202F || n = 0x205F || n = 0x3000

def trim (cs : List Char) : List Char :=
  ((cs.dropWhile isBlank).reverse.dropWhile isBlank).reverse

end RowMapping.Text
