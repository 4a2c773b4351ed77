import GlobalTransaction.Text.Hexadecimal
import GlobalTransaction.Text.Unseen

/-!
# Quoted texts in descriptions

The form in which a description shows a text that it reports: in double quotes, on
one line, with every character visible.

## Main definitions

* `Text.quotedChar` — one character inside the quotes
* `Text.quoted` — a whole text
-/

namespace GlobalTransaction.Text

/-- A character inside a quoted text. The quote and the backslash are escaped, common controls
have short escapes, and other characters without a glyph are spelled by their code point. -/
def quotedChar (c : Char) : List Char :=
  match c with
  | '\x00' => ['\\', '0']
  | '\t' => ['\\', 't']
  | '\r' => ['\\', 'r']
  | '\n' => ['\\', 'n']
  | '"' => ['\\', '"']
  | '\\' => ['\\', '\\']
  | c =>
    if isUnseen c then ['\\', 'u', '\x7b'] ++ shortHexadecimal c.toNat ++ ['\x7d'] else [c]

/-- A text in double quotes, with every character visible. -/
def quoted (s : String) : String :=
  String.ofList ('"' :: s.toList.flatMap quotedChar ++ ['"'])

end GlobalTransaction.Text
