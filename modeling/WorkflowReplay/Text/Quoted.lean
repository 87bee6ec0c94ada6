import WorkflowReplay.Text.Invisible

/-!
# Quoted text

A text between double quotes on one line, as diagnostics show it: quotes, backslashes and the
usual control characters have a short escape, other invisible characters are spelled out as
their code point in lowercase hexadecimal, and every other character stands for itself.
-/

set_option autoImplicit false

namespace WorkflowReplay.Text

def hex (n : Nat) : String := String.ofList (Nat.toDigits 16 n)

def quotedChar (c : Char) : String :=
  match c with
  | '\x00' => "\\0"
  | '\t' => "\\t"
  | '\n' => "\\n"
  | '\r' => "\\r"
  | '"' => "\\\""
  | '\\' => "\\\\"
  | c =>
    if isInvisible c then "\\u\x7b" ++ hex c.toNat ++ "\x7d" else c.toString

def quoted (s : String) : String :=
  "\"" ++ String.join (s.toList.map quotedChar) ++ "\""

end WorkflowReplay.Text
