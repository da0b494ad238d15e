import Blueprint.Decimal.Numeral

/-!
# Standard numerals

A numeral is standard when its whole part is a single zero or starts with another digit, and a point
and an exponent letter have digits behind them. A standard numeral is read back from its text up to
the first character that cannot belong to it.
-/

namespace Blueprint.Numeral

structure Digits (s : List Char) : Prop where
  ne_nil : s ≠ []
  isDigit : ∀ c ∈ s, c.isDigit = true

/-- The numeral is one that the reader takes. -/
structure Standard (n : Numeral) : Prop where
  whole : Digits n.whole
  leading : ∀ rest, n.whole = '0' :: rest → rest = []
  fraction : ∀ s ∈ n.fraction, Digits s
  exponent : ∀ e ∈ n.exponent, Digits e.digits

/-- Nothing at the start of the text can belong to a numeral in front of it. -/
def Ends (rest : List Char) : Prop :=
  ∀ c ∈ rest.head?, c.isDigit = false ∧ c ≠ '.' ∧ c ≠ 'e' ∧ c ≠ 'E'

theorem ends_nil : Ends [] := by
  simp [Ends]

theorem ends_cons {c : Char} (hdigit : c.isDigit = false) (hmark : c ≠ '.' ∧ c ≠ 'e' ∧ c ≠ 'E')
    (rest : List Char) : Ends (c :: rest) := by
  intro d hd
  obtain rfl : c = d := by simpa using hd
  exact ⟨hdigit, hmark⟩

def fractionText : Option (List Char) → List Char
  | some digits => '.' :: digits
  | none => []

def exponentText : Option Exponent → List Char
  | some e => 'e' :: (if e.negative then '-' else '+') :: e.digits
  | none => []

theorem text_eq (n : Numeral) :
    n.text = (if n.negative then ['-'] else []) ++ n.whole ++ fractionText n.fraction ++
      exponentText n.exponent := by
  rw [text]
  cases n.fraction <;> cases n.exponent <;> rfl

section Reading

variable {s rest : List Char}

theorem takeDigits?_append (hs : Digits s) (hrest : ∀ c ∈ rest.head?, c.isDigit = false) :
    takeDigits? (s ++ rest) = some (s, rest) := by
  have htake : rest.takeWhile Char.isDigit = [] := by
    cases rest with
    | nil => rfl
    | cons c rest => simp [hrest c rfl]
  have hdrop : rest.dropWhile Char.isDigit = rest := by
    cases rest with
    | nil => rfl
    | cons c rest => simp [hrest c rfl]
  rw [takeDigits?, List.takeWhile_append_of_pos hs.isDigit, List.dropWhile_append_of_pos hs.isDigit,
    htake, hdrop, List.append_nil]
  cases s with
  | nil => exact absurd rfl hs.ne_nil
  | cons c s => rfl

theorem takeWhole?_append (hs : Digits s) (hleading : ∀ tail, s = '0' :: tail → tail = [])
    (hrest : ∀ c ∈ rest.head?, c.isDigit = false) : takeWhole? (s ++ rest) = some (s, rest) := by
  rw [takeWhole?, takeDigits?_append hs hrest]
  split
  · rename_i h
    simp only [Option.some.injEq, Prod.mk.injEq] at h
    simpa using hleading _ h.1
  · rfl

theorem takeFraction?_append {fraction : Option (List Char)} (hfraction : ∀ s ∈ fraction, Digits s)
    (hrest : ∀ c ∈ rest.head?, c.isDigit = false ∧ c ≠ '.') :
    takeFraction? (fractionText fraction ++ rest) = some (fraction, rest) := by
  cases fraction with
  | none =>
    cases rest with
    | nil => rfl
    | cons c rest =>
      have hpoint := (hrest c rfl).2
      simp [fractionText, takeFraction?, hpoint]
  | some digits =>
    have hdigits := takeDigits?_append (hfraction digits rfl) fun c hc => (hrest c hc).1
    simp [fractionText, takeFraction?, hdigits]

theorem takeExponent?_append {exponent : Option Exponent}
    (hexponent : ∀ e ∈ exponent, Digits e.digits) (hrest : Ends rest) :
    takeExponent? (exponentText exponent ++ rest) = some (exponent, rest) := by
  cases exponent with
  | none =>
    cases rest with
    | nil => rfl
    | cons c rest =>
      obtain ⟨-, -, hlower, hupper⟩ := hrest c rfl
      simp [exponentText, takeExponent?, hlower, hupper]
  | some e =>
    have hdigits := takeDigits?_append (hexponent e rfl) fun c hc => (hrest c hc).1
    obtain ⟨negative, digits⟩ := e
    cases negative <;> simp [exponentText, takeExponent?, hdigits]

end Reading

/-- Reads what follows the sign of a numeral. -/
def readUnsigned? (negative : Bool) (s : List Char) : Option (Numeral × List Char) := do
  let (whole, s) ← takeWhole? s
  let (fraction, s) ← takeFraction? s
  let (exponent, s) ← takeExponent? s
  return (⟨negative, whole, fraction, exponent⟩, s)

theorem read?_minus (s : List Char) : read? ('-' :: s) = readUnsigned? true s := rfl

theorem read?_digit {c : Char} (hc : c.isDigit = true) (s : List Char) :
    read? (c :: s) = readUnsigned? false (c :: s) := by
  rw [read?]
  · rfl
  · intro t h
    obtain ⟨rfl, -⟩ := List.cons.inj h
    exact absurd hc (by decide)

theorem Standard.readUnsigned?_append {n : Numeral} (h : n.Standard) {rest : List Char}
    (hrest : Ends rest) :
    readUnsigned? n.negative
      (n.whole ++ (fractionText n.fraction ++ (exponentText n.exponent ++ rest))) =
        some (n, rest) := by
  have hexponent : ∀ c ∈ (exponentText n.exponent ++ rest).head?, c.isDigit = false ∧ c ≠ '.' := by
    cases n.exponent with
    | none => exact fun c hc => ⟨(hrest c hc).1, (hrest c hc).2.1⟩
    | some e => simp [exponentText]
  have hfraction : ∀ c ∈ (fractionText n.fraction ++ (exponentText n.exponent ++ rest)).head?,
      c.isDigit = false := by
    cases n.fraction with
    | none => exact fun c hc => (hexponent c hc).1
    | some s => simp [fractionText]
  simp [readUnsigned?, takeWhole?_append h.whole h.leading hfraction,
    takeFraction?_append h.fraction hexponent, takeExponent?_append h.exponent hrest]

/-- A standard numeral is read back from its text. -/
theorem Standard.read?_append {n : Numeral} (h : n.Standard) {rest : List Char} (hrest : Ends rest) :
    read? (n.text ++ rest) = some (n, rest) := by
  have hunsigned := h.readUnsigned?_append hrest
  rw [text_eq, List.append_assoc, List.append_assoc, List.append_assoc]
  cases hnegative : n.negative with
  | true =>
    rw [hnegative] at hunsigned
    exact (read?_minus _).trans hunsigned
  | false =>
    obtain ⟨c, digits, hwhole⟩ := List.exists_cons_of_ne_nil h.whole.ne_nil
    have hdigit : c.isDigit = true := h.whole.isDigit c (by rw [hwhole]; exact List.mem_cons_self)
    rw [hnegative, hwhole] at hunsigned
    rw [hwhole]
    exact (read?_digit hdigit _).trans hunsigned

theorem Standard.exists_text_eq {n : Numeral} (h : n.Standard) :
    ∃ c rest, n.text = c :: rest ∧ (c = '-' ∨ c.isDigit = true) := by
  obtain ⟨c, rest, hwhole⟩ := List.exists_cons_of_ne_nil h.whole.ne_nil
  rw [text_eq]
  cases n.negative with
  | true => exact ⟨'-', _, rfl, .inl rfl⟩
  | false => exact ⟨c, _, by simp [hwhole]; rfl, .inr (h.whole.isDigit c (by simp [hwhole]))⟩

end Blueprint.Numeral
