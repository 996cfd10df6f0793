import FloatFlattening.Text.Category
/-!
The scripts of Chinese, Japanese and Korean: Han, Hiragana, Katakana and Hangul.
-/

namespace FloatFlattening.Text

def cjkRanges : List (Nat × Nat) :=
  [(0x1100, 0x11ff), (0x2e80, 0x2e99), (0x2e9b, 0x2ef3), (0x2f00, 0x2fd5), (0x3005, 0x3005),
   (0x3007, 0x3007), (0x3021, 0x3029), (0x302e, 0x302f), (0x3038, 0x303b), (0x3041, 0x3096),
   (0x309d, 0x309f), (0x30a1, 0x30fa), (0x30fd, 0x30ff), (0x3131, 0x318e), (0x31f0, 0x321e),
   (0x3260, 0x327e), (0x32d0, 0x32fe), (0x3300, 0x3357), (0x3400, 0x4dbf), (0x4e00, 0x9fff),
   (0xa960, 0xa97c), (0xac00, 0xd7a3), (0xd7b0, 0xd7c6), (0xd7cb, 0xd7fb), (0xf900, 0xfa6d),
   (0xfa70, 0xfad9), (0xff66, 0xff6f), (0xff71, 0xff9d), (0xffa0, 0xffbe), (0xffc2, 0xffc7),
   (0xffca, 0xffcf), (0xffd2, 0xffd7), (0xffda, 0xffdc), (0x16fe2, 0x16fe3), (0x16ff0, 0x16ff1),
   (0x1aff0, 0x1aff3), (0x1aff5, 0x1affb), (0x1affd, 0x1affe), (0x1b000, 0x1b122),
   (0x1b132, 0x1b132), (0x1b150, 0x1b152), (0x1b155, 0x1b155), (0x1b164, 0x1b167),
   (0x1f200, 0x1f200), (0x20000, 0x2a6df), (0x2a700, 0x2b739), (0x2b740, 0x2b81d),
   (0x2b820, 0x2cea1), (0x2ceb0, 0x2ebe0), (0x2ebf0, 0x2ee5d), (0x2f800, 0x2fa1d),
   (0x30000, 0x3134a), (0x31350, 0x323af)]

/-- Every range lies above ASCII, so only the other characters are looked up. -/
def isCjk (c : Char) : Bool := 0x80 ≤ c.toNat && inRanges cjkRanges c

def needsCjk (t : Text) : Bool := t.any isCjk

example : isCjk '中' ∧ isCjk 'ゝ' ∧ isCjk 'ㄱ' ∧ ¬ isCjk '。' ∧ ¬ isCjk 'ー' := by decide +kernel

end FloatFlattening.Text
