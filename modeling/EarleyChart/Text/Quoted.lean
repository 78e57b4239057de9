import EarleyChart.Text.Printable

/-!
Quoted texts and characters. The quote itself, the backslash and the usual
control characters are written with a backslash; any other character that
cannot be shown as itself is written by its code point, as in `\u{7f}`.
-/

namespace EarleyChart

def hexCode (c : Char) : List Char :=
  Nat.toDigits 16 c.toNat

def escapeChar (quote c : Char) : List Char :=
  if c = '\x00' then ['\\', '0']
  else if c = '\t' then ['\\', 't']
  else if c = '\n' then ['\\', 'n']
  else if c = '\r' then ['\\', 'r']
  else if c = '\\' ∨ c = quote then ['\\', c]
  else if isPrintable c then [c]
  else ['\\', 'u', '\x7b'] ++ hexCode c ++ ['\x7d']

def quoteWith (quote : Char) (text : List Char) : List Char :=
  quote :: text.flatMap (escapeChar quote) ++ [quote]

def quoted (text : String) : String :=
  String.ofList (quoteWith '"' text.toList)

def quotedChar (c : Char) : String :=
  String.ofList (quoteWith '\x27' [c])

end EarleyChart
