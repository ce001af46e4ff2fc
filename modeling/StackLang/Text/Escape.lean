/-!
# Escaped characters

A printable ASCII character other than a quote or a backslash stands for
itself.  Tab, carriage return, line feed, both quotes and the backslash are
written with a backslash, and every other character as its code point in
lower-case hexadecimal between braces.
-/

namespace StackLang.Text

/-- The escaped form of one character. -/
def escapeChar (char : Char) : String :=
  match char with
  | '\t' => "\\t"
  | '\r' => "\\r"
  | '\n' => "\\n"
  | '\'' => "\\'"
  | '"' => "\\\""
  | '\\' => "\\\\"
  | _ =>
      if 0x20 ≤ char.toNat && char.toNat ≤ 0x7e then char.toString
      else "\\u\x7b" ++ String.ofList (Nat.toDigits 16 char.toNat) ++ "\x7d"

/-- The escaped forms of all characters, one after another. -/
def escape (chars : List Char) : String :=
  String.join (chars.map escapeChar)

end StackLang.Text
