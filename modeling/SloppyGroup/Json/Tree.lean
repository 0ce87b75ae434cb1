import SloppyGroup.Json.Numeral

/-!
JSON texts as trees. A tree keeps what it was written with: numerals are not evaluated, members stay
in order and may be repeated, and a string that is no text (because it names half a surrogate pair)
has no content.
-/

namespace SloppyGroup.Json

inductive Tree where
  | null
  | bool (value : Bool)
  | numeral (value : Numeral)
  | string (content : Option String)
  | array (items : List Tree)
  | object (members : List (Option String × Tree))
deriving Inhabited

/-- The parts that a JSON text consists of. -/
inductive Token where
  | opening (isObject : Bool)
  | closing (isObject : Bool)
  | comma
  | colon
  | atom (value : Tree)

namespace Token

def hexDigit? (c : Char) : Option Nat :=
  if c.isDigit then some (c.toNat - '0'.toNat)
  else if 'a' ≤ c ∧ c ≤ 'f' then some (c.toNat - 'a'.toNat + 10)
  else if 'A' ≤ c ∧ c ≤ 'F' then some (c.toNat - 'A'.toNat + 10)
  else none

def codeUnit? (a b c d : Char) : Option Nat := do
  return (((← hexDigit? a) * 16 + (← hexDigit? b)) * 16 + (← hexDigit? c)) * 16 + (← hexDigit? d)

def simpleEscape? : Char → Option Char
  | '"' => some '"'
  | '\\' => some '\\'
  | '/' => some '/'
  | 'b' => some '\x08'
  | 'f' => some '\x0c'
  | 'n' => some '\n'
  | 'r' => some '\r'
  | 't' => some '\t'
  | _ => none

/-- A piece of a string: a character, or an escaped half of a surrogate pair. -/
inductive Piece where
  | char (c : Char)
  | half (unit : Nat)

def Piece.ofUnit (unit : Nat) : Piece :=
  if 0xD800 ≤ unit ∧ unit ≤ 0xDFFF then .half unit else .char (Char.ofNat unit)

/-- The pieces of what stands between quotes, without control characters and unknown escapes. -/
def pieces? : List Char → Option (List Piece)
  | [] => some []
  | '\\' :: 'u' :: a :: b :: c :: d :: rest => do
    let unit ← codeUnit? a b c d
    return .ofUnit unit :: (← pieces? rest)
  | '\\' :: c :: rest => do
    let c ← simpleEscape? c
    return .char c :: (← pieces? rest)
  | c :: rest =>
    if c.toNat < 0x20 ∨ c = '\\' then none
    else (pieces? rest).map (.char c :: ·)

/-- The text of pieces whose halves come in pairs, the high one first. -/
def assemble? : List Piece → Option (List Char)
  | [] => some []
  | .char c :: rest => (assemble? rest).map (c :: ·)
  | .half high :: .half low :: rest =>
    if high < 0xDC00 ∧ 0xDC00 ≤ low then
      let c := Char.ofNat (0x10000 + (high - 0xD800) * 0x400 + (low - 0xDC00))
      (assemble? rest).map (c :: ·)
    else none
  | .half _ :: _ => none

def word? (cs : List Char) : Option Tree :=
  match String.ofList cs with
  | "null" => some .null
  | "true" => some (.bool true)
  | "false" => some (.bool false)
  | _ => none

/-- What is being read: nothing, a word, a numeral, or a string, with its characters newest first;
in a string the flag says whether the next character is escaped. -/
inductive Mode where
  | idle
  | word (newest : List Char)
  | numeral (newest : List Char)
  | string (newest : List Char) (isEscaped : Bool)

/-- A reading under way: the mode and the tokens so far, newest first. -/
structure Scan where
  mode : Mode
  newest : List Token

def isNumeral (c : Char) : Bool :=
  c.isDigit || c == '-' || c == '+' || c == '.' || c == 'e' || c == 'E'

def isSpace (c : Char) : Bool :=
  c == ' ' || c == '\n' || c == '\t' || c == '\r'

def begin (newest : List Token) (c : Char) : Option Scan :=
  if isSpace c then some ⟨.idle, newest⟩
  else if c == '"' then some ⟨.string [] false, newest⟩
  else if c.isDigit || c == '-' then some ⟨.numeral [c], newest⟩
  else if c.isAlpha then some ⟨.word [c], newest⟩
  else
    let token? : Option Token := match c with
      | '{' => some (.opening true)
      | '}' => some (.closing true)
      | '[' => some (.opening false)
      | ']' => some (.closing false)
      | ',' => some .comma
      | ':' => some .colon
      | _ => none
    token?.map fun token => ⟨.idle, token :: newest⟩

def finish (s : Scan) : Option (List Token) :=
  match s.mode with
  | .idle => some s.newest
  | .word newest => (word? newest.reverse).map fun t => .atom t :: s.newest
  | .numeral newest =>
    (Numeral.ofChars? newest.reverse).map fun n => .atom (.numeral n) :: s.newest
  | .string _ _ => none

def step (s : Scan) (c : Char) : Option Scan :=
  match s.mode with
  | .idle => begin s.newest c
  | .word newest =>
    if c.isAlpha then some ⟨.word (c :: newest), s.newest⟩
    else (finish s).bind fun newest => begin newest c
  | .numeral newest =>
    if isNumeral c then some ⟨.numeral (c :: newest), s.newest⟩
    else (finish s).bind fun newest => begin newest c
  | .string newest isEscaped =>
    if isEscaped then some ⟨.string (c :: newest) false, s.newest⟩
    else if c == '\\' then some ⟨.string (c :: newest) true, s.newest⟩
    else if c == '"' then
      (pieces? newest.reverse).map fun pieces =>
        ⟨.idle, .atom (.string ((assemble? pieces).map String.ofList)) :: s.newest⟩
    else some ⟨.string (c :: newest) false, s.newest⟩

def scan? (text : String) : Option (List Token) :=
  (text.toList.foldlM step ⟨.idle, []⟩).bind fun s => (finish s).map List.reverse

end Token

namespace Tree

/-- A container that is still open, with its parts newest first; an object waits for the value of a
key. -/
inductive Frame where
  | array (newest : List Tree)
  | object (newest : List (Option String × Tree)) (key : Option String)

/-- What may come next. The flag says whether the container may also end here. -/
inductive Expectation where
  | value
  | firstItem
  | key (newest : List (Option String × Tree)) (mayEnd : Bool)
  | colon (newest : List (Option String × Tree)) (key : Option String)
  | separator (container : Frame)
  | done (tree : Tree)

/-- A tree under construction: what may come next, inside which open containers. -/
structure Growth where
  expected : Expectation
  outer : List Frame

def place (value : Tree) : List Frame → Growth
  | [] => ⟨.done value, []⟩
  | .array newest :: outer => ⟨.separator (.array (value :: newest)), outer⟩
  | .object newest key :: outer => ⟨.separator (.object ((key, value) :: newest) none), outer⟩

def start (outer : List Frame) : Token → Option Growth
  | .opening true => some ⟨.key [] true, outer⟩
  | .opening false => some ⟨.firstItem, outer⟩
  | .atom value => some (place value outer)
  | _ => none

def step (g : Growth) (token : Token) : Option Growth :=
  match g.expected, token with
  | .value, token => start g.outer token
  | .firstItem, .closing false => some (place (.array []) g.outer)
  | .firstItem, token => start (.array [] :: g.outer) token
  | .key newest true, .closing true => some (place (.object newest.reverse) g.outer)
  | .key newest _, .atom (.string key) => some ⟨.colon newest key, g.outer⟩
  | .colon newest key, .colon => some ⟨.value, .object newest key :: g.outer⟩
  | .separator (.array newest), .comma => some ⟨.value, .array newest :: g.outer⟩
  | .separator (.array newest), .closing false => some (place (.array newest.reverse) g.outer)
  | .separator (.object newest _), .comma => some ⟨.key newest false, g.outer⟩
  | .separator (.object newest _), .closing true => some (place (.object newest.reverse) g.outer)
  | _, _ => none

def ofText? (text : String) : Option Tree := do
  let tokens ← Token.scan? text
  let growth ← tokens.foldlM step ⟨.value, []⟩
  match growth.expected with
  | .done tree => some tree
  | _ => none

end Tree

end SloppyGroup.Json
