import Blueprint.Json.Outline

/-!
# Reading quoted texts back

Each character is read back from the way it stands between quotes, so a quoted text is read up to its
closing quote and stands for the text that was quoted, whatever characters it has.
-/

namespace Blueprint.Json

theorem hexNumber?_control {n : Nat} (hn : n < 0x20) :
    Text.hexNumber? ['0', '0', Text.hexDigit (n / 16), Text.hexDigit (n % 16)] = some n := by
  have hhigh := Text.hexValue?_hexDigit ⟨n / 16, by omega⟩
  have hlow := Text.hexValue?_hexDigit ⟨n % 16, by omega⟩
  have hzero : Text.hexValue? '0' = some 0 := rfl
  simp only [Text.hexNumber?, List.foldlM_cons, List.foldlM_nil, hzero, hhigh, hlow]
  simp
  omega

/-- The units that are read behind a first one. -/
def putUnit (unit : Unit16) (read : Option (List Unit16 × List Char)) :
    Option (List Unit16 × List Char) :=
  read.map fun units => (unit :: units.1, units.2)

section Units

variable {c : Char} (rest : List Char)

theorem takeUnits?_plain (hquote : c ≠ '"') (hback : c ≠ '\\') (hcontrol : 0x20 ≤ c.toNat) :
    takeUnits? (c :: rest) = putUnit (.char c) (takeUnits? rest) := by
  have hbare : ¬(c = '\\' ∨ c.toNat < 0x20) := not_or.mpr ⟨hback, Nat.not_lt.mpr hcontrol⟩
  rw [takeUnits?.eq_5 c rest hquote (fun _ _ _ _ _ h => absurd h hback) fun _ _ h => absurd h hback,
    if_neg hbare]
  cases takeUnits? rest <;> rfl

theorem takeUnits?_short {e : Char} (he : shortEscape? e = some c) :
    takeUnits? ('\\' :: e :: rest) = putUnit (.char c) (takeUnits? rest) := by
  have hu : e ≠ 'u' := by
    rintro rfl
    simp [shortEscape?] at he
  rw [takeUnits?.eq_4 e rest fun _ _ _ _ _ h => absurd h hu, he]
  cases takeUnits? rest <;> rfl

theorem takeUnits?_word {n : Nat} {d₁ d₂ d₃ d₄ : Char}
    (hn : Text.hexNumber? [d₁, d₂, d₃, d₄] = some n) :
    takeUnits? ('\\' :: 'u' :: d₁ :: d₂ :: d₃ :: d₄ :: rest) =
      putUnit (Unit16.ofWord n) (takeUnits? rest) := by
  rw [takeUnits?, hn]
  cases takeUnits? rest <;> rfl

theorem takeUnits?_escape (c : Char) (rest : List Char) :
    takeUnits? (escape c ++ rest) = putUnit (.char c) (takeUnits? rest) := by
  have hcode : ∀ n, c.toNat = n → c = Char.ofNat n := fun n h => by rw [← h, Char.ofNat_toNat]
  by_cases hquote : c = '"'
  · subst hquote
    exact takeUnits?_short rest rfl
  by_cases hback : c = '\\'
  · subst hback
    exact takeUnits?_short rest rfl
  by_cases hplain : 0x20 ≤ c.toNat
  · rw [escape, if_neg hquote, if_neg hback, if_pos hplain]
    exact takeUnits?_plain rest hquote hback hplain
  rw [escape, if_neg hquote, if_neg hback, if_neg hplain]
  split
  · rename_i h
    exact takeUnits?_short rest (by rw [hcode _ h]; rfl)
  split
  · rename_i h
    exact takeUnits?_short rest (by rw [h]; rfl)
  split
  · rename_i h
    exact takeUnits?_short rest (by rw [h]; rfl)
  split
  · rename_i h
    exact takeUnits?_short rest (by rw [hcode _ h]; rfl)
  split
  · rename_i h
    exact takeUnits?_short rest (by rw [h]; rfl)
  · have hword : Unit16.ofWord c.toNat = .char c := by
      rw [Unit16.ofWord, if_neg (by omega), Char.ofNat_toNat]
    rw [← hword]
    exact takeUnits?_word rest (hexNumber?_control (Nat.lt_of_not_le hplain))

end Units

theorem takeUnits?_flatMap_escape (text rest : List Char) :
    takeUnits? (text.flatMap escape ++ '"' :: rest) = some (text.map Unit16.char, rest) := by
  induction text with
  | nil => simp [takeUnits?]
  | cons c text ih =>
    rw [List.flatMap_cons, List.append_assoc, takeUnits?_escape, ih]
    rfl

theorem textOfUnits?_map_char (text : List Char) :
    textOfUnits? (text.map Unit16.char) = some text := by
  induction text with
  | nil => rfl
  | cons c text ih => simp [textOfUnits?, ih]

theorem takeText_escape (s : String) (rest : List Char) :
    Outline.takeText (s.toList.flatMap escape ++ '"' :: rest) = (.text (some s), some rest) := by
  simp [Outline.takeText, takeUnits?_flatMap_escape, textOfUnits?_map_char]

end Blueprint.Json
