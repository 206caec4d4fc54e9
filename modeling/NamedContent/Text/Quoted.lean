import NamedContent.Text.Hidden

/-!
# Quoted text

A text between double quotes. The quote, the backslash and the characters
NUL, tab, line feed and carriage return have two-character escapes; all that
does not show by itself is written by its code point.
-/

set_option autoImplicit false

namespace NamedContent.Text

def codePoint (c : Char) : List Char :=
  ['\\', 'u', '\x7b'] ++ Nat.toDigits 16 c.toNat ++ ['\x7d']

def escapeChar (c : Char) : List Char :=
  if c = '\x00' then ['\\', '0']
  else if c = '\t' then ['\\', 't']
  else if c = '\n' then ['\\', 'n']
  else if c = '\r' then ['\\', 'r']
  else if c = '\\' ∨ c = '"' then ['\\', c]
  else if isHidden c then codePoint c
  else [c]

def quote (text : String) : String :=
  String.ofList ('"' :: text.toList.flatMap escapeChar ++ ['"'])

end NamedContent.Text
