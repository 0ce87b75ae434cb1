import SloppyGroup.Text.Unshown

/-!
Quotations: text between quotes in which the quote itself, the backslash and everything that would
not show is escaped.
-/

namespace SloppyGroup.Text

/-- The lower-case hexadecimal numeral of a number, without leading zeros. -/
def hexadecimal (n : Nat) : String :=
  String.ofList (Nat.toDigits 16 n)

/-- How a character stands in a quotation that is closed by `quote`. -/
def escapeIn (quote c : Char) : String :=
  match c with
  | '\x00' => "\\0"
  | '\t' => "\\t"
  | '\n' => "\\n"
  | '\r' => "\\r"
  | '\\' => "\\\\"
  | c =>
    if c = quote then String.ofList ['\\', c]
    else if isUnshown c then "\\u\x7b" ++ hexadecimal c.toNat ++ "\x7d"
    else String.singleton c

def quotedChar (c : Char) : String :=
  "'" ++ escapeIn '\'' c ++ "'"

def quoted (text : String) : String :=
  "\"" ++ String.join (text.toList.map (escapeIn '"')) ++ "\""

end SloppyGroup.Text
