/-!
Text that cannot steer a terminal: the controls that a terminal obeys are written by number. Line
ends and tabs stay as they are.
-/

namespace SloppyGroup.Text

/-- Whether a terminal takes a character for an order: bell, backspace, form feed, escape, delete
and the controls from `0x80` to `0x9f`. -/
def steers (c : Char) : Bool :=
  ['\x07', '\x08', '\x0c', '\x1b', '\x7f'].contains c || (0x80 ≤ c.toNat && c.toNat ≤ 0x9f)

def inertChar (c : Char) : List Char :=
  if !steers c then [c]
  else if c.toNat < 0x80 then
    ['\\', 'x', Nat.digitChar (c.toNat / 16), Nat.digitChar (c.toNat % 16)]
  else ['\\', 'u', '\x7b'] ++ Nat.toDigits 16 c.toNat ++ ['\x7d']

def inert (text : String) : String :=
  String.ofList (text.toList.flatMap inertChar)

theorem flatMap_inertChar {cs : List Char} (h : ∀ c ∈ cs, steers c = false) :
    cs.flatMap inertChar = cs := by
  induction cs with
  | nil => rfl
  | cons c cs ih =>
    have hc : inertChar c = [c] := by simp [inertChar, h c (.head _)]
    rw [List.flatMap_cons, hc, ih fun d hd => h d (.tail _ hd)]
    rfl

theorem inert_eq_self {text : String} (h : ∀ c ∈ text.toList, steers c = false) :
    inert text = text := by
  rw [inert, flatMap_inertChar h, String.ofList_toList]

end SloppyGroup.Text
