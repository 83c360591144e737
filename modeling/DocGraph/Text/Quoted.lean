import DocGraph.Text.DefaultIgnorable
import DocGraph.Text.GraphemeExtend
import DocGraph.Text.Printable

/-!
# Quoted string literals

A text is quoted so that it can be read on one line. The quote, the backslash and four control
characters have short escapes. A single quote stands as it is.

Written by their code point in hexadecimal are the characters that a reader could not tell from
their neighbours: those without a printed form of their own, those that show nothing, and those that
would attach to the character before them. The two voicing marks of halfwidth katakana count as
attaching, but have a column of their own, and stand as they are.
-/

namespace DocGraph.Text

/-- A character written by its code point. The number is in lower case and has no leading zeros. -/
def codePointEscape (c : Char) : List Char :=
  ['\\', 'u', '{'] ++ Nat.toDigits 16 c.toNat ++ ['}']

/-- The voicing marks of halfwidth katakana: letters that extend the grapheme
before them and still take a column of their own. -/
def isHalfwidthVoicingMark (c : Char) : Bool := c = 'ﾞ' || c = 'ﾟ'

/-- Whether a character inside quotes could be overlooked or taken for a part of the one before it.
It is asked after the short escapes, so control characters with one are not written by their
number. -/
def isElusive (c : Char) : Bool :=
  (extendsGrapheme c && !isHalfwidthVoicingMark c) || isDefaultIgnorable c || isUnprintable c

/-- The written form of one character inside quotes. The short escapes are tried first. -/
def quotedChar (c : Char) : List Char :=
  if c = '\x00' then ['\\', '0']
  else if c = '\t' then ['\\', 't']
  else if c = '\r' then ['\\', 'r']
  else if c = '\n' then ['\\', 'n']
  else if c = '\\' then ['\\', '\\']
  else if c = '"' then ['\\', '"']
  else if isElusive c then codePointEscape c
  else [c]

/-- A text in double quotes. The result is never read back here. -/
def quoted (text : String) : String :=
  String.ofList ('"' :: text.toList.flatMap quotedChar ++ ['"'])

end DocGraph.Text
