/-!
# Hexadecimal digits
-/
namespace Blueprint.Text

def hexDigits : List Char :=
  ['0', '1', '2', '3', '4', '5', '6', '7', '8', '9', 'a', 'b', 'c', 'd', 'e', 'f']

def hexDigit (n : Nat) : Char :=
  hexDigits.getD n '0'

def hexValue? (c : Char) : Option Nat :=
  hexDigits.idxOf? c.toLower

theorem hexValue?_hexDigit : ∀ n : Fin 16, hexValue? (hexDigit n) = some n.val := by
  decide

def hexNumber? (digits : List Char) : Option Nat :=
  digits.foldlM (fun n c => (hexValue? c).map (n * 16 + ·)) 0

end Blueprint.Text
