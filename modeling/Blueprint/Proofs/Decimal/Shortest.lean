import Mathlib.Data.List.DropRight
import Blueprint.Decimal.Shortest
import Blueprint.Proofs.Decimal.Standard

/-!
# Shortest texts are standard

The grid on which the search for the shortest digits starts is no coarser than the leading digit of
the number, so every grid point it can find is positive. The digits of a positive number do not start
with a zero, dropping zeros at their end leaves some, and both layouts make a standard numeral of
them.
-/

namespace Blueprint

/-- Digits that do not start with a zero. -/
structure Numeral.Significant (s : List Char) : Prop extends Digits s where
  leading : ∀ rest, s ≠ '0' :: rest

namespace Numeral

theorem Digits.of_subset {s t : List Char} (hs : Digits s) (ht : t ≠ []) (hsubset : t ⊆ s) :
    Digits t :=
  ⟨ht, fun c hc => hs.isDigit c (hsubset hc)⟩

theorem Digits.append_zeros {s : List Char} (hs : Digits s) (k : Nat) :
    Digits (s ++ List.replicate k '0') where
  ne_nil := by simp [hs.ne_nil]
  isDigit c hc := by
    rcases List.mem_append.mp hc with hc | hc
    · exact hs.isDigit c hc
    · rw [List.eq_of_mem_replicate hc]
      rfl

theorem Digits.zeros_append {s : List Char} (hs : Digits s) (k : Nat) :
    Digits (List.replicate k '0' ++ s) :=
  (hs.append_zeros k).of_subset (by simp [hs.ne_nil]) fun c hc => by
    rwa [List.mem_append, or_comm, ← List.mem_append]

theorem Significant.of_isPrefix {s t : List Char} (hs : Significant s) (ht : t ≠ [])
    (hfront : t <+: s) : Significant t where
  toDigits := hs.toDigits.of_subset ht hfront.subset
  leading rest h := by
    obtain ⟨tail, rfl⟩ := hfront
    exact hs.leading (rest ++ tail) (by rw [h, List.cons_append])

theorem Significant.append {s : List Char} (hs : Significant s) {t : List Char}
    (ht : Digits (s ++ t)) : Significant (s ++ t) where
  toDigits := ht
  leading rest h := by
    obtain ⟨c, tail, rfl⟩ := List.exists_cons_of_ne_nil hs.ne_nil
    obtain ⟨rfl, -⟩ := List.cons.inj h
    exact hs.leading tail rfl

theorem digits_zero : Digits ['0'] where
  ne_nil := List.cons_ne_nil _ _
  isDigit c hc := by
    rw [List.mem_singleton.mp hc]
    rfl

theorem digits_toDigits (n : Nat) : Digits (Nat.toDigits 10 n) where
  ne_nil := Nat.toDigits_ne_nil
  isDigit _ hc := Nat.isDigit_of_mem_toDigits (by decide) (by decide) hc

theorem significant_toDigits {n : Nat} (hn : 0 < n) : Significant (Nat.toDigits 10 n) := by
  refine ⟨digits_toDigits n, ?_⟩
  induction n using Nat.strongRecOn with
  | ind n ih =>
    intro rest h
    by_cases hsmall : n < 10
    · rw [Nat.toDigits_of_lt_base hsmall] at h
      have hcode := Nat.toNat_digitChar_of_lt_ten hsmall
      rw [(List.cons.inj h).1] at hcode
      have hzero : '0'.toNat = 48 := rfl
      omega
    · rw [Nat.toDigits_of_base_le (by decide) (by omega)] at h
      obtain ⟨c, tail, htail⟩ := List.exists_cons_of_ne_nil
        (Nat.toDigits_ne_nil (n := n / 10) (b := 10))
      rw [htail, List.cons_append] at h
      obtain ⟨rfl, -⟩ := List.cons.inj h
      exact ih (n / 10) (by omega) (by omega) tail htail

theorem Significant.rdropWhile_zeros {s : List Char} (hs : Significant s) :
    Significant (s.rdropWhile (· == '0')) := by
  refine hs.of_isPrefix (fun h => ?_) (List.rdropWhile_prefix _ s)
  obtain ⟨c, rest, rfl⟩ := List.exists_cons_of_ne_nil hs.ne_nil
  have hzero := List.rdropWhile_eq_nil_iff.mp h c List.mem_cons_self
  exact hs.leading rest (by rw [beq_iff_eq.mp hzero])

end Numeral

namespace Shortest

open Numeral (Digits Significant Standard)

section Search

theorem powerUp_of_nonpos (base : Nat) {g : Int} (hg : g ≤ 0) : powerUp base g = 1 := by
  rw [powerUp, Int.toNat_of_nonpos hg]
  rfl

theorem powerUp_le {base k : Nat} (hbase : 0 < base) {g : Int} (hg : g ≤ k) :
    powerUp base g ≤ Nat.pow base k :=
  Nat.pow_le_pow_right hbase (Int.toNat_le.mpr hg)

theorem le_powerUp {base k : Nat} (hbase : 0 < base) {g : Int} (hg : k ≤ g) :
    Nat.pow base k ≤ powerUp base g :=
  Nat.pow_le_pow_right hbase ((Int.le_toNat (by omega)).mpr hg)

theorem powerUp_pos {base : Nat} (hbase : 0 < base) (g : Int) : 0 < powerUp base g :=
  Nat.pow_pos hbase

variable {num den : Nat}

/-- A fraction is at least the power of ten of its leading exponent, and of any smaller one. -/
theorem mul_powerUp_le (hnum : 0 < num) (hden : 0 < den) {g : Int}
    (hg : g ≤ leadingExponent num den) : den * powerUp 10 g ≤ num * powerUp 10 (-g) := by
  rw [leadingExponent] at hg
  split at hg
  · -- Here the leading exponent is one less than the number of digits before the point.
    rename_i hle
    have hquotient : 1 ≤ num / den := (Nat.one_le_div_iff hden).mpr hle
    obtain ⟨k, hk⟩ := Nat.exists_eq_add_one.mpr
      (Nat.length_toDigits_pos (b := 10) (n := num / den))
    have hpower : 10 ^ k ≤ num / den := by
      by_cases hzero : k = 0
      · rwa [hzero]
      · have hlength := Nat.length_toDigits_le_iff (n := num / den) (by decide : 1 < 10)
          (Nat.pos_of_ne_zero hzero)
        exact Nat.le_of_not_lt fun hlt => absurd (hlength.mpr hlt) (by omega)
    calc den * powerUp 10 g
      _ ≤ den * 10 ^ k := Nat.mul_le_mul_left den (powerUp_le (by decide) (by omega))
      _ ≤ den * (num / den) := Nat.mul_le_mul_left den hpower
      _ ≤ num := Nat.mul_div_le num den
      _ ≤ num * powerUp 10 (-g) := Nat.le_mul_of_pos_right num (powerUp_pos (by decide) _)
  · -- A fraction below one is at least one over its rounded-up inverse.
    have hpositive := Nat.length_toDigits_pos (b := 10) (n := (den + num - 1) / num - 1)
    have hpower := (Nat.length_toDigits_le_iff (by decide) hpositive).mp le_rfl
    have hceil : den ≤ num * ((den + num - 1) / num) := by
      have hsplit := Nat.div_add_mod (den + num - 1) num
      have hmod := Nat.mod_lt (den + num - 1) hnum
      omega
    calc den * powerUp 10 g
      _ = den := by rw [powerUp_of_nonpos 10 (by omega), Nat.mul_one]
      _ ≤ num * ((den + num - 1) / num) := hceil
      _ ≤ num * 10 ^ (Nat.toDigits 10 ((den + num - 1) / num - 1)).length :=
        Nat.mul_le_mul_left num (by omega)
      _ ≤ num * powerUp 10 (-g) :=
        Nat.mul_le_mul_left num (le_powerUp (by decide) (by omega))

variable {s : Span}

def Span.leading (s : Span) : Int :=
  leadingExponent (s.grid 0).value (s.grid 0).step

theorem Span.step_le_value (hs : 0 < s.value) {g : Int} (hg : g ≤ s.leading) :
    (s.grid g).step ≤ (s.grid g).value := by
  have hvalue : ∀ g, (s.grid g).value = s.value * powerUp 2 s.unit * powerUp 10 (-g) :=
    fun g => (Nat.mul_assoc _ _ _).symm
  have hstep : ∀ g, (s.grid g).step = powerUp 2 (-s.unit) * powerUp 10 g := fun g => rfl
  have hone : powerUp 10 0 = 1 := rfl
  rw [Span.leading, hvalue, hstep, Int.neg_zero, hone, Nat.mul_one, Nat.mul_one] at hg
  rw [hvalue, hstep]
  exact mul_powerUp_le (Nat.mul_pos hs (powerUp_pos (by decide) _)) (powerUp_pos (by decide) _) hg

theorem Span.step_pos (s : Span) (g : Int) : 0 < (s.grid g).step :=
  Nat.mul_pos (powerUp_pos (by decide) _) (powerUp_pos (by decide) _)

/-- The nearest grid point is one of the two around the value. -/
theorem Grid.le_of_nearest? {grid : Grid} {tie : Tie} {closed : Bool} {n : Nat}
    (h : grid.nearest? tie closed = some n) : grid.value / grid.step ≤ n := by
  simp only [Grid.nearest?] at h
  split at h
  · split at h <;> cases h
    · exact le_rfl
    · exact Nat.le_succ _
  · cases h
    exact le_rfl
  · cases h
    exact Nat.le_succ _
  · cases h

theorem Span.search_pos (hs : 0 < s.value) (tie : Tie) (tries : Nat) {g : Int}
    (hg : g ≤ s.leading) : 0 < (s.search tie tries g).1 := by
  have hbelow : ∀ g, g ≤ s.leading → 0 < (s.grid g).value / (s.grid g).step := fun g hg =>
    Nat.div_pos (s.step_le_value hs hg) (s.step_pos g)
  induction tries generalizing g with
  | zero => exact hbelow g hg
  | succ tries ih =>
    rw [Span.search]
    split
    · rename_i n hn
      exact Nat.lt_of_lt_of_le (hbelow g hg) (Grid.le_of_nearest? hn)
    · exact ih (by omega)

theorem significant_digits (tie : Tie) {mantissa exponent : Nat}
    (h : ¬(mantissa = 0 ∧ exponent = 0)) : Significant (digits tie mantissa exponent).1 := by
  have hvalue : 0 < (Span.ofFields mantissa exponent).value := by
    have hbit : 0 < hiddenBit := by decide
    simp only [Span.ofFields]
    split <;> omega
  exact (Numeral.significant_toDigits (Span.search_pos hvalue tie 17 (Int.le_refl _))).rdropWhile_zeros

end Search

section Layout

/-- Digits and an exponent that a number can have: those of zero, or significant ones. -/
def Proper (s : List Char) (exponent : Int) : Prop :=
  Significant s ∨ s = ['0'] ∧ exponent = 0

theorem exists_layout_of_numeral? {tie : Tie} {layout : Bool → List Char → Int → Numeral} {f : Float}
    {n : Numeral} (h : numeral? tie layout f = some n) :
    ∃ negative s exponent, Proper s exponent ∧ n = layout negative s exponent := by
  simp only [numeral?] at h
  split at h
  · cases h
  split at h
  · exact ⟨_, _, _, .inr ⟨rfl, rfl⟩, (Option.some.inj h).symm⟩
  · rename_i hzero
    exact ⟨_, _, _, .inl (significant_digits tie hzero), (Option.some.inj h).symm⟩

variable {s t : List Char} {exponent : Int}

theorem Proper.digits (h : Proper s exponent) : Digits s := by
  rcases h with hs | ⟨rfl, -⟩
  · exact hs.toDigits
  · exact Numeral.digits_zero

theorem standard_layPlain (negative : Bool) (h : Proper s exponent) :
    (layPlain negative s exponent).Standard := by
  rw [layPlain]
  split
  · have hpadded := h.digits.append_zeros (exponent.toNat + 1 - s.length)
    refine ⟨hpadded.of_subset ?_ (List.take_subset _ _), ?_, ?_, by simp⟩
    · simp [h.digits.ne_nil]
    · rcases h with hs | ⟨rfl, rfl⟩
      · intro rest hrest
        have hwhole := (hs.append hpadded).of_isPrefix (by simp [hs.ne_nil])
          (List.take_prefix (exponent.toNat + 1) _)
        exact absurd hrest (hwhole.leading rest)
      · simp
    · intro t ht
      dsimp only at ht
      split at ht
      · cases ht
      · rename_i hdrop
        obtain rfl := Option.some.inj ht
        exact hpadded.of_subset hdrop (List.drop_subset _ _)
  · refine ⟨Numeral.digits_zero, by simp, ?_, by simp⟩
    intro t ht
    obtain rfl := Option.some.inj ht
    exact h.digits.zeros_append _

theorem standard_layOut (negative : Bool) (h : Proper s exponent) :
    (layOut negative s exponent).Standard := by
  rw [layOut]
  split
  · have hplain := standard_layPlain negative h
    refine ⟨hplain.whole, hplain.leading, ?_, hplain.exponent⟩
    intro t ht
    obtain rfl := Option.some.inj ht
    cases hfraction : (layPlain negative s exponent).fraction with
    | none => exact Numeral.digits_zero
    | some t => exact hplain.fraction t hfraction
  · rename_i hfar
    have hs : Significant s := h.resolve_right fun hzero => hfar (by omega)
    have hwhole : Significant (s.take 1) := hs.of_isPrefix (by simp [hs.ne_nil]) (List.take_prefix 1 s)
    refine ⟨hwhole.toDigits, fun rest hrest => absurd hrest (hwhole.leading rest), ?_, ?_⟩
    · intro t ht
      split at ht
      · cases ht
      · rename_i hlength
        obtain rfl := Option.some.inj ht
        exact hs.toDigits.of_subset (fun hnil => hlength (List.drop_eq_nil_iff.mp hnil))
          (List.drop_subset 1 s)
    · intro e he
      obtain rfl := Option.some.inj he
      exact Numeral.digits_toDigits _

end Layout

end Shortest

theorem Numeral.standard_of_ofFloat? {f : Float} {n : Numeral} (h : Numeral.ofFloat? f = some n) :
    n.Standard := by
  obtain ⟨negative, s, exponent, hproper, rfl⟩ := Shortest.exists_layout_of_numeral? h
  exact Shortest.standard_layOut negative hproper

end Blueprint
