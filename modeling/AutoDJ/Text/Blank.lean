/-!
This module contains the notion of blank character, and trimming and word splitting based on it.

A blank is a character with the Unicode property `White_Space`.
-/

namespace AutoDJ.Text

def isBlank (c : Char) : Bool :=
  let n := c.toNat
  (0x09 ≤ n && n ≤ 0x0D) || n == 0x20 || n == 0x85 || n == 0xA0 || n == 0x1680
    || (0x2000 ≤ n && n ≤ 0x200A) || n == 0x2028 || n == 0x2029 || n == 0x202F || n == 0x205F
    || n == 0x3000

def stripChars (p : Char → Bool) (cs : List Char) : List Char :=
  ((cs.dropWhile p).reverse.dropWhile p).reverse

def trimChars (cs : List Char) : List Char :=
  stripChars isBlank cs

def trim (s : String) : String :=
  String.ofList (trimChars s.toList)

/--
The maximal runs of characters other than blanks, in order.
-/
def wordChars (cs : List Char) : List (List Char) :=
  go cs [] []
where
  /-- `word` and `done` hold the current word and the earlier words, both reversed. -/
  go : List Char → List Char → List (List Char) → List (List Char)
  | [], word, done => (close word done).reverse
  | c :: cs, word, done =>
    if isBlank c then
      go cs [] (close word done)
    else
      go cs (c :: word) done
  close (word : List Char) (done : List (List Char)) : List (List Char) :=
    if word.isEmpty then done else word.reverse :: done

def words (s : String) : List String :=
  (wordChars s.toList).map String.ofList

end AutoDJ.Text
