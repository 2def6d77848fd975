import RowMapping.Text.Letters

/-! Letter case. `lower` writes a text in small letters as it is spelled, where a final capital sigma
depends on its neighbours. `fold` erases case for comparison, and may lengthen the text. -/
namespace RowMapping.Text

def lowerChar (c : Char) : List Char :=
  if c.toNat = 0x130 then ['i', Char.ofNat 0x307]
  else match LetterRun.imageOf? capitals c.toNat with
    | some n => [Char.ofNat n]
    | none => [c]

def caseFree (c : Char) : List Char :=
  if c.toNat < 0x80 then [c]
  else match longForms.lookup c.toNat, LetterRun.imageOf? caseFreeLetters c.toNat with
    | some form, _ => form.map Char.ofNat
    | none, some n => [Char.ofNat n]
    | none, none => [c]

/-- The case-free form of a character, which is that of its small letters. -/
def foldChar (c : Char) : List Char := (lowerChar c).flatMap caseFree

def isCased (c : Char) : Bool := inRanges casedRanges c.toNat

def isCaseIgnorable (c : Char) : Bool := inRanges ignorableRanges c.toNat

def startsCased : List Char → Bool
  | [] => false
  | c :: rest => if isCaseIgnorable c then startsCased rest else isCased c

/-- Small letters from here on, where `afterLetter` says whether a cased letter came last. -/
def lowerFrom (afterLetter : Bool) : List Char → List Char
  | [] => []
  | c :: rest =>
    let image :=
      if c.toNat = 0x3A3 && afterLetter && !startsCased rest then [Char.ofNat 0x3C2]
      else lowerChar c
    image ++ lowerFrom (if isCaseIgnorable c then afterLetter else isCased c) rest

/-- The text in small letters. A capital sigma that ends a word becomes the final small sigma. -/
def lower (s : String) : String := String.ofList (lowerFrom false s.toList)

def fold (s : String) : List Char := s.toList.flatMap foldChar

def squash (s : String) : List Char := (s.toList.filter (· != '_')).flatMap foldChar

end RowMapping.Text
