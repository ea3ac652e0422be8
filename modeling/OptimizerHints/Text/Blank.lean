namespace OptimizerHints.Text

def isBlank (c : Char) : Bool :=
  let n := c.toNat
  (9 ≤ n && n ≤ 13) || n == 0x20 || n == 0x85 || n == 0xA0 || n == 0x1680 || (0x2000 ≤ n && n ≤ 0x200A) ||
    n == 0x2028 || n == 0x2029 || n == 0x202F || n == 0x205F || n == 0x3000

def startWord (c : Char) (joins : Bool) : List (List Char) → List (List Char)
  | [] => [[c]]
  | w :: ws => if joins then (c :: w) :: ws else [c] :: w :: ws

def splitWords : List Char → List (List Char)
  | [] => []
  | c :: cs => if isBlank c then splitWords cs else startWord c (!(cs.head?.all isBlank)) (splitWords cs)

def words (s : String) : List String := (splitWords s.toList).map String.ofList

def trimBlank (cs : List Char) : List Char := ((cs.dropWhile isBlank).reverse.dropWhile isBlank).reverse

def trim (s : String) : String := String.ofList (trimBlank s.toList)

def lowerAscii (s : String) : String := String.ofList (s.toList.map Char.toLower)

@[simp] theorem splitWords_nil : splitWords [] = [] := rfl

theorem splitWords_blank {c : Char} (h : isBlank c = true) (cs : List Char) :
    splitWords (c :: cs) = splitWords cs := by
  simp [splitWords, h]

end OptimizerHints.Text
