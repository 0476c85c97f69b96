import IdsRules.Text.Hexadecimal
import IdsRules.Text.Printable

/-!
# Quoted texts in messages

Messages show a path or a refused value in quotes, so that its ends and its
invisible characters can be seen. Apostrophes are used unless the text has an
apostrophe and no double quote. The quoting character and the backslash are
escaped by a backslash, line feed, carriage return and tab by a letter, and
every other character that is not printable by its code point.
-/

namespace IdsRules.Text

def quoteMark (s : Text) : Char :=
  if '\x27' ∈ s ∧ '"' ∉ s then '"' else '\x27'

def quotedChar (mark c : Char) : Text :=
  if c = mark ∨ c = '\\' then ['\\', c]
  else if c = '\n' then ['\\', 'n']
  else if c = '\r' then ['\\', 'r']
  else if c = '\t' then ['\\', 't']
  else if isPrintable c then [c]
  else if c.toNat < 0x100 then '\\' :: 'x' :: hexadecimal 2 c.toNat
  else if c.toNat < 0x10000 then '\\' :: 'u' :: hexadecimal 4 c.toNat
  else '\\' :: 'U' :: hexadecimal 8 c.toNat

/-- The text in quotes, on one line. -/
def quoted (s : Text) : Text :=
  quoteMark s :: s.flatMap (quotedChar (quoteMark s)) ++ [quoteMark s]

example : quoted ['a', '\n'] = ['\x27', 'a', '\\', 'n', '\x27'] := by decide +kernel

end IdsRules.Text
