import Blueprint.Settings.Key

/-!
# Names in dotted keys

Names are compared without regard to case, and a text that folds to a name is a name itself. Such a
text is a key of one step; two of them around a dot are a key of two.
-/

namespace Blueprint.SettingKey

open SettingTree (foldKey)

theorem isNameChar_of_toLower {c : Char} (h : isNameChar c.toLower = true) :
    isNameChar c = true := by
  by_cases hc : c.val ≥ 'A'.val ∧ c.val ≤ 'Z'.val
  · have hupper : c.isUpper = true := decide_eq_true hc
    have halphanum : c.isAlphanum = true := by
      change (c.isUpper || c.isLower || c.isDigit) = true
      rw [hupper]
      rfl
    simp [isNameChar, halphanum]
  · have hsame : c.toLower = c := dif_neg hc
    rwa [hsame] at h

theorem eq_dot_of_toLower {c : Char} (h : c.toLower = '.') : c = '.' := by
  by_cases hc : c.val ≥ 'A'.val ∧ c.val ≤ 'Z'.val
  · have hval : c.val + ('a'.val - 'A'.val) = '.'.val := by
      rw [← h]
      exact (congrArg Char.val (dif_pos hc : c.toLower = _)).symm
    -- No capital letter is that far below the dot.
    have hc' : c.val = '.'.val - ('a'.val - 'A'.val) := by rw [← hval]; simp
    rw [hc'] at hc
    exact absurd hc (by decide)
  · have hsame : c.toLower = c := dif_neg hc
    rwa [hsame] at h

def IsName (s : List Char) : Prop :=
  s ≠ [] ∧ s.all isNameChar = true

instance (s : List Char) : Decidable (IsName s) :=
  inferInstanceAs (Decidable (s ≠ [] ∧ s.all isNameChar = true))

theorem IsName.of_toLower {s : List Char} (h : IsName (s.map Char.toLower)) : IsName s := by
  refine ⟨by simpa using h.1, List.all_eq_true.mpr fun c hc => ?_⟩
  exact isNameChar_of_toLower (List.all_eq_true.mp h.2 _ (List.mem_map_of_mem hc))

theorem takeName?_append {name rest : List Char} (hname : IsName name)
    (hrest : ∀ c ∈ rest.head?, isNameChar c = false) :
    takeName? (name ++ rest) = some (.key (String.ofList name), rest) := by
  have hchars := List.all_eq_true.mp hname.2
  have htake : (name ++ rest).takeWhile isNameChar = name := by
    rw [List.takeWhile_append_of_pos hchars]
    cases rest <;> simp_all
  have hdrop : (name ++ rest).dropWhile isNameChar = rest := by
    rw [List.dropWhile_append_of_pos hchars]
    cases rest <;> simp_all
  obtain ⟨c, cs, rfl⟩ := List.exists_cons_of_ne_nil hname.1
  simp only [takeName?, htake, hdrop]

theorem takeName?_self {name : List Char} (hname : IsName name) :
    takeName? name = some (.key (String.ofList name), []) := by
  simpa using @takeName?_append name [] hname (by simp)

theorem exists_key_of_ofText? {text : String} {path : SettingKey} (h : ofText? text = some path) :
    ∃ name rest, path = .key name :: rest := by
  obtain ⟨⟨first, rest⟩, hfirst, steps, -, rfl⟩ :
      ∃ first, takeName? text.toList = some first ∧
        ∃ steps, takeSteps? first.2.length first.2 = some steps ∧ first.1 :: steps = path := by
    simpa [ofText?, Option.bind_eq_some_iff] using h
  unfold takeName? at hfirst
  split at hfirst
  · cases hfirst
  · cases hfirst
    exact ⟨_, _, rfl⟩

theorem foldKey_eq_iff {key name : String} :
    foldKey key = name ↔ key.toList.map Char.toLower = name.toList := by
  rw [foldKey, ← String.toList_inj, String.toList_ofList]

theorem ofText?_of_name {key name : String} (hname : IsName name.toList) (h : foldKey key = name) :
    ofText? key = some [.key key] := by
  rw [foldKey_eq_iff] at h
  have hkey : IsName key.toList := IsName.of_toLower (by rwa [h])
  simp [ofText?, takeName?_self hkey, takeSteps?]

theorem ofText?_of_names {key outer inner : String} (houter : IsName outer.toList)
    (hinner : IsName inner.toList) (h : foldKey key = outer ++ "." ++ inner) :
    ∃ first second, ofText? key = some [.key first, .key second] ∧
      foldKey first = outer ∧ foldKey second = inner := by
  rw [foldKey_eq_iff, String.toList_append, String.toList_append, List.append_assoc] at h
  obtain ⟨first, tail, hkey, hfirst, htail⟩ := List.map_eq_append_iff.mp h
  obtain ⟨dot, second, rfl, hdot, hsecond⟩ := List.map_eq_cons_iff.mp htail
  obtain rfl := eq_dot_of_toLower hdot
  have hfirstName : IsName first := IsName.of_toLower (by rwa [hfirst])
  have hsecondName : IsName second := IsName.of_toLower (by rw [hsecond]; exact hinner)
  refine ⟨String.ofList first, String.ofList second, ?_, ?_, ?_⟩
  · have hsteps : takeSteps? ('.' :: second).length ('.' :: second) =
        some [.key (String.ofList second)] := by
      simp [takeSteps?, takeName?_self hsecondName]
    have hdot : isNameChar '.' = false := by decide
    have hhead : takeName? key.toList = some (.key (String.ofList first), '.' :: second) := by
      rw [hkey]
      exact takeName?_append hfirstName (by simp [hdot])
    simp only [ofText?, hhead, Option.bind_eq_bind, Option.bind_some, hsteps]
    rfl
  · simpa [foldKey_eq_iff] using hfirst
  · simpa [foldKey_eq_iff] using hsecond

end Blueprint.SettingKey
