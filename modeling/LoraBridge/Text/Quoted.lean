import LoraBridge.Text.Shown

/-! A text in quotes that shows every character: quotes, backslashes, control
characters and other characters that print nothing are escaped. -/
namespace LoraBridge.Text

def hex (n : Nat) : List Char :=
  Nat.toDigits 16 n

def escapeQuoted (c : Char) : List Char :=
  match c with
  | '"' => ['\\', '"']
  | '\\' => ['\\', '\\']
  | '\n' => ['\\', 'n']
  | '\r' => ['\\', 'r']
  | '\t' => ['\\', 't']
  | '\x00' => ['\\', '0']
  | c => if isShown c then [c] else ['\\', 'u', '\x7b'] ++ hex c.toNat ++ ['\x7d']

def quoted (s : String) : String :=
  String.ofList ('"' :: s.toList.flatMap escapeQuoted ++ ['"'])

end LoraBridge.Text
