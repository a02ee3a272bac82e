import CounterLang.Text.Printable

/-!
# Quoted — texts between double quotes

Inside the quotes a backslash introduces what cannot stand for itself: `\0`, `\t`, `\n`, `\r`, `\"` and
`\\` have names, and every other character that is not printable is written by its code point in
hexadecimal, `\u{…}`.

- `escape`  : how one character is written
- `quote`   : a whole text with its quotes
-/

namespace CounterLang
namespace Text

/-- The written form of one character between double quotes. -/
def escape (c : Char) : List Char :=
  match c with
  | '\x00' => ['\\', '0']
  | '\t' => ['\\', 't']
  | '\n' => ['\\', 'n']
  | '\r' => ['\\', 'r']
  | '"' => ['\\', '"']
  | '\\' => ['\\', '\\']
  | _ => if isPrintable c then [c] else '\\' :: 'u' :: '{' :: Nat.toDigits 16 c.toNat ++ ['}']

/-- A text between double quotes. -/
def quote (text : String) : String :=
  String.ofList ('"' :: text.toList.flatMap escape ++ ['"'])

end Text
end CounterLang
