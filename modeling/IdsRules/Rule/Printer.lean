import IdsRules.Rule.Grammar
import IdsRules.Rule.OptionBlock

/-!
# Writing rules

An option is written as its bare key if it is a flag, and else as its key, a
colon and its value in double quotes. The options of a block stand behind each
other with a semicolon and any number of spaces in between, and one more
semicolon may close the block. Quotes are always written, so a value may hold
semicolons, colons, parentheses and blanks at its ends; it may not hold a double
quote or a line feed, for which the format has no escape.
-/

namespace IdsRules

/-- An option as it is written. -/
inductive OptionItem where
  | flag (key : Text)
  | pair (key value : Text)
deriving DecidableEq, Repr

namespace OptionItem

def key : OptionItem → Text
  | .flag key => key
  | .pair key _ => key

def text : OptionItem → Text
  | .flag key => key
  | .pair key value => key ++ ':' :: '"' :: (value ++ ['"'])

/-- Whether a text can be a key: it is not empty, has no blanks around it, and
holds none of the characters that end a key, an option, a quoted value or a
line. -/
structure IsKey (key : Text) : Prop where
  ne_nil : key ≠ []
  trim_eq : Text.trim key = key
  colon_not_mem : ':' ∉ key
  semicolon_not_mem : ';' ∉ key
  quote_not_mem : '"' ∉ key
  lineFeed_not_mem : '\n' ∉ key

/-- Whether an option can be written: its key is a key, and its value fits
between quotes on a line. -/
def IsValid : OptionItem → Prop
  | .flag key => IsKey key
  | .pair key value => IsKey key ∧ '"' ∉ value ∧ '\n' ∉ value

def value : OptionItem → Except Numeral.Fault OptionValue
  | .flag _ => .ok (.flag true)
  | .pair _ value => OptionValue.read value

end OptionItem

/-- An option block: its first option, the other options with the number of
spaces in front of each, and whether a semicolon closes it. -/
structure WrittenBlock where
  first : OptionItem
  /-- The other options, each behind a number of spaces. -/
  others : List (Nat × OptionItem) := []
  closed : Bool := false
deriving DecidableEq, Repr

namespace WrittenBlock

def items (b : WrittenBlock) : List OptionItem :=
  b.first :: b.others.map Prod.snd

def othersText (others : List (Nat × OptionItem)) : Text :=
  others.flatMap fun other => ';' :: (List.replicate other.1 ' ' ++ other.2.text)

def text (b : WrittenBlock) : Text :=
  b.first.text ++ othersText b.others ++ if b.closed then [';'] else []

def ruleText (header : Header) (gaps : List Text) (b : WrittenBlock) : Text :=
  RuleText.text ⟨header, gaps, b.text⟩

end WrittenBlock

end IdsRules
