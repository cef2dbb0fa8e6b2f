namespace SandboxHost

def isBlank (c : Char) : Bool :=
  let n := c.toNat
  (9 ≤ n && n ≤ 13) || n == 0x20 || n == 0x85 || n == 0xa0 || n == 0x1680 ||
    (0x2000 ≤ n && n ≤ 0x200a) || n == 0x2028 || n == 0x2029 || n == 0x202f || n == 0x205f ||
    n == 0x3000

def endWord (word : List Char) (found : List String) : List String :=
  if word.isEmpty then found else .ofList word.reverse :: found

def wordsFrom : List Char → List Char → List String → List String
  | [], word, found => (endWord word found).reverse
  | c :: rest, word, found =>
    if isBlank c then wordsFrom rest [] (endWord word found) else wordsFrom rest (c :: word) found

/-- The longest runs of characters that are not blank, in order. -/
def words (text : String) : List String := wordsFrom text.toList [] []

end SandboxHost
