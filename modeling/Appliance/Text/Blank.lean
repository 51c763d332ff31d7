/-! White space, and the words and margins of a text. The class is Unicode's property
`White_Space`: it has the no-break and the ideographic space and the line separators, and leaves
out the zero-width characters. -/
namespace Appliance.Text

def isBlank (c : Char) : Bool :=
  let n := c.toNat
  (0x09 ≤ n && n ≤ 0x0D) || n == 0x20 || n == 0x85 || n == 0xA0 || n == 0x1680 ||
    (0x2000 ≤ n && n ≤ 0x200A) || n == 0x2028 || n == 0x2029 || n == 0x202F || n == 0x205F ||
    n == 0x3000

def trimStart (s : List Char) : List Char := s.dropWhile isBlank

def trimEnd (s : List Char) : List Char := (s.reverse.dropWhile isBlank).reverse

def trim (s : List Char) : List Char := trimEnd (trimStart s)

def consWord (word : List Char) (rest : List (List Char)) : List (List Char) :=
  if word.isEmpty then rest else word :: rest

/-- The word a text starts with (empty where it starts with a blank), and the words after it. -/
def firstAndRest : List Char → List Char × List (List Char)
  | [] => ([], [])
  | c :: cs =>
    let (word, rest) := firstAndRest cs
    if isBlank c then ([], consWord word rest) else (c :: word, rest)

def words (s : List Char) : List (List Char) :=
  consWord (firstAndRest s).1 (firstAndRest s).2

theorem words_cons_blank {c : Char} (h : isBlank c = true) (s : List Char) :
    words (c :: s) = words s := by
  simp [words, firstAndRest, h, consWord]

theorem consWord_append (word : List Char) (rest more : List (List Char)) :
    consWord word (rest ++ more) = consWord word rest ++ more := by
  unfold consWord
  split <;> rfl

theorem firstAndRest_append {b : Char} (hb : isBlank b = true) (s t : List Char) :
    firstAndRest (s ++ b :: t) = ((firstAndRest s).1, (firstAndRest s).2 ++ words t) := by
  induction s with
  | nil => simp [firstAndRest, hb, words]
  | cons c s ih =>
    simp only [List.cons_append, firstAndRest, ih, consWord_append]
    split <;> rfl

theorem words_append {b : Char} (hb : isBlank b = true) (s t : List Char) :
    words (s ++ b :: t) = words s ++ words t := by
  rw [words, firstAndRest_append hb]
  exact consWord_append _ _ _

end Appliance.Text
