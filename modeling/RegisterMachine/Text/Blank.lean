/-! Blank characters, and what is cut at them. Trimming and splitting work on lists of
characters; the versions on strings only wrap them. -/
namespace RegisterMachine.Text

abbrev Chars := List Char

/-- White space is what Unicode gives the bidirectional class WS, B or S or the category Zs;
zero-width characters are not among it. -/
def isBlank (c : Char) : Bool :=
  let n := c.toNat
  (9 ≤ n && n ≤ 13) || (28 ≤ n && n ≤ 32) || n == 0x85 || n == 0xA0 || n == 0x1680 ||
    (0x2000 ≤ n && n ≤ 0x200A) || n == 0x2028 || n == 0x2029 || n == 0x202F || n == 0x205F ||
    n == 0x3000

namespace Chars

def trimStart (cs : Chars) : Chars := cs.dropWhile isBlank

def trimEnd (cs : Chars) : Chars := (cs.reverse.dropWhile isBlank).reverse

def trim (cs : Chars) : Chars := trimEnd (trimStart cs)

def words (cs : Chars) : List Chars := (cs.splitOnP isBlank).filter (!·.isEmpty)

@[simp] theorem words_nil : words [] = [] := rfl

theorem ne_nil_of_mem_words {w cs : Chars} (h : w ∈ words cs) : w ≠ [] := by
  have := (List.mem_filter.mp h).2
  simpa using this

theorem words_cons_blank {c : Char} {cs : Chars} (h : isBlank c = true) :
    words (c :: cs) = words cs := by
  simp [words, List.splitOnP_cons_eq_if_modifyHead, h]

theorem words_append_blank (cs ds : Chars) {c : Char} (h : isBlank c = true) :
    words (cs ++ c :: ds) = words cs ++ words ds := by
  simp [words, List.splitOnP_append_cons cs ds h]

end Chars

def trim (s : String) : String := String.ofList (Chars.trim s.toList)

def words (s : String) : List String := (Chars.words s.toList).map String.ofList

end RegisterMachine.Text
