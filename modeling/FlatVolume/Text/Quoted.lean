import FlatVolume.Text.Printing

/-!
# Quoted names

How a message shows a file name or a path: between double quotes, with a backslash before a quote
or a backslash, the usual short forms for the five control characters that have one, and
`\u{…}` with the code point in lower-case hexadecimal for everything that does not print or that
attaches to its neighbour. All other characters, the single quote among them, stand for
themselves.
-/

namespace FlatVolume.Text

/-- How one character is written between the quotes. -/
def escape (c : Char) : List Char :=
  match c with
  | '\x00' => ['\\', '0']
  | '\t' => ['\\', 't']
  | '\n' => ['\\', 'n']
  | '\r' => ['\\', 'r']
  | '"' => ['\\', '"']
  | '\\' => ['\\', '\\']
  | c =>
    if isPrinting c && !isExtending c then [c]
    else ['\\', 'u', '\x7b'] ++ Nat.toDigits 16 c.toNat ++ ['\x7d']

/-- A text between double quotes, escaped character by character. -/
def quoted (s : String) : String :=
  String.ofList ('"' :: s.toList.flatMap escape ++ ['"'])

/-- Between the quotes stand the characters, each escaped by itself. -/
theorem toList_quoted (s : String) :
    (quoted s).toList = '"' :: s.toList.flatMap escape ++ ['"'] := by
  simp [quoted]

end FlatVolume.Text
