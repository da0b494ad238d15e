import Blueprint.Proofs.Decimal.Shortest
import Blueprint.Proofs.Json.Quoted

/-!
# Reading indented JSON back

The indented text of a value is read as the outline of that value, whatever stands behind it, as long
as its numbers are standard numerals and what stands behind it cannot belong to a number. Each level
and each item takes one unit of fuel and at least one character, so the length of the text is enough.
-/

namespace Blueprint.Json

inductive Standard : Json → Prop where
  | null : Standard null
  | bool (b : Bool) : Standard (bool b)
  | number {n : Numeral} (h : n.Standard) : Standard (number n)
  | text (s : String) : Standard (text s)
  | list {items : List Json} (h : ∀ v ∈ items, Standard v) : Standard (list items)
  | object {entries : List (String × Json)} (h : ∀ entry ∈ entries, Standard entry.2) :
      Standard (object entries)

theorem standard_ofFloat (f : Float) : Standard (ofFloat f) := by
  rw [ofFloat]
  cases h : Numeral.ofFloat? f with
  | none => exact .null
  | some n => exact .number (Numeral.standard_of_ofFloat? h)

theorem standard_ofTexts (texts : List String) : Standard (ofTexts texts) :=
  .list fun v hv => by
    obtain ⟨s, -, rfl⟩ := List.mem_map.mp hv
    exact .text s

namespace Outline

/-- The text is read as the outline, whatever stands behind it that cannot belong to a number. -/
def Reads (text : List Char) (v : Outline) : Prop :=
  ∀ fuel rest, text.length ≤ fuel → Numeral.Ends rest →
    takeValue fuel (text ++ rest) = (v, some rest)

section Blanks

theorem skipBlanks_newLine (depth : Nat) (s : List Char) :
    skipBlanks (newLine depth ++ s) = skipBlanks s := by
  refine List.dropWhile_append_of_pos fun c hc => ?_
  rcases List.mem_cons.mp hc with rfl | hc
  · rfl
  · rw [List.eq_of_mem_replicate hc]
    rfl

theorem skipBlanks_cons {c : Char} (hc : isBlank c = false) (s : List Char) :
    skipBlanks (c :: s) = c :: s := by
  simp [skipBlanks, hc]

theorem takeValue_congr {s t : List Char} (h : skipBlanks s = skipBlanks t) (fuel : Nat) :
    takeValue fuel s = takeValue fuel t := by
  cases fuel with
  | zero => rfl
  | succ fuel => rw [takeValue, takeValue, h]

theorem takeValue_space (fuel : Nat) (s : List Char) :
    takeValue fuel (' ' :: s) = takeValue fuel s :=
  takeValue_congr (by simp [skipBlanks, isBlank]) fuel

theorem takeItems_newLine (fuel depth : Nat) (s : List Char) :
    takeItems fuel (newLine depth ++ s) = takeItems fuel s := by
  cases fuel with
  | zero => rfl
  | succ fuel => rw [takeItems, takeItems, takeValue_congr (skipBlanks_newLine depth s)]

theorem takeEntries_newLine (fuel depth : Nat) (s : List Char) :
    takeEntries fuel (newLine depth ++ s) = takeEntries fuel s := by
  cases fuel with
  | zero => rfl
  | succ fuel => rw [takeEntries, takeEntries, takeValue_congr (skipBlanks_newLine depth s)]

theorem isBlank_eq_false_of_isDigit {c : Char} (hc : c.isDigit = true) : isBlank c = false := by
  simp only [isBlank, Bool.or_eq_false_iff, beq_eq_false_iff_ne]
  refine ⟨⟨⟨?_, ?_⟩, ?_⟩, ?_⟩ <;> rintro rfl <;> exact absurd hc (by decide)

theorem ends_newLine (depth : Nat) (s : List Char) : Numeral.Ends (newLine depth ++ s) :=
  Numeral.ends_cons rfl (by decide) _

end Blanks

section Scalars

theorem reads_null : Reads "null".toList null := by
  intro fuel rest hfuel _
  obtain ⟨fuel, rfl⟩ := Nat.exists_eq_add_one.mpr (Nat.lt_of_lt_of_le (by decide) hfuel)
  rfl

theorem reads_true : Reads "true".toList (bool true) := by
  intro fuel rest hfuel _
  obtain ⟨fuel, rfl⟩ := Nat.exists_eq_add_one.mpr (Nat.lt_of_lt_of_le (by decide) hfuel)
  rfl

theorem reads_false : Reads "false".toList (bool false) := by
  intro fuel rest hfuel _
  obtain ⟨fuel, rfl⟩ := Nat.exists_eq_add_one.mpr (Nat.lt_of_lt_of_le (by decide) hfuel)
  rfl

theorem reads_quote (s : String) : Reads (quote s.toList) (text (some s)) := by
  intro fuel rest hfuel _
  obtain ⟨fuel, rfl⟩ := Nat.exists_eq_add_one.mpr (Nat.lt_of_lt_of_le (by simp [quote]) hfuel)
  have hquote : quote s.toList ++ rest = '"' :: (s.toList.flatMap escape ++ '"' :: rest) := by
    simp [quote]
  rw [hquote, takeValue, skipBlanks_cons rfl]
  exact takeText_escape s rest

theorem takeValue_number {c : Char} (hc : c = '-' ∨ c.isDigit = true) (fuel : Nat) (s : List Char) :
    takeValue (fuel + 1) (c :: s) = takeNumber (c :: s) := by
  have hblank : isBlank c = false := by
    rcases hc with rfl | hc
    · rfl
    · exact isBlank_eq_false_of_isDigit hc
  have hmark : c ≠ 'n' ∧ c ≠ 't' ∧ c ≠ 'f' ∧ c ≠ '"' ∧ c ≠ '[' ∧ c ≠ '\x7b' := by
    rcases hc with rfl | hc
    · decide
    · refine ⟨?_, ?_, ?_, ?_, ?_, ?_⟩ <;> rintro rfl <;> exact absurd hc (by decide)
  obtain ⟨hn, ht, hf, hquote, hbracket, hbrace⟩ := hmark
  rw [takeValue, skipBlanks_cons hblank]
  split <;> simp_all

theorem reads_number {n : Numeral} (h : n.Standard) : Reads n.text (number n) := by
  intro fuel rest hfuel hrest
  obtain ⟨c, s, htext, hc⟩ := h.exists_text_eq
  obtain ⟨fuel, rfl⟩ := Nat.exists_eq_add_one.mpr (Nat.lt_of_lt_of_le (by simp [htext]) hfuel)
  have hread := h.read?_append hrest
  rw [htext, List.cons_append] at hread ⊢
  rw [takeValue_number hc, takeNumber, hread]

end Scalars

section Nesting

variable {depth : Nat}

theorem ends_prettyItems (depth outer : Nat) (tail : List Json) (rest : List Char) :
    Numeral.Ends (prettyItems depth tail ++ (newLine outer ++ ']' :: rest)) := by
  cases tail with
  | nil => exact ends_newLine outer _
  | cons v tail => exact Numeral.ends_cons rfl (by decide) _

theorem ends_prettyEntries (depth outer : Nat) (tail : List (String × Json)) (rest : List Char) :
    Numeral.Ends (prettyEntries depth tail ++ (newLine outer ++ '\x7d' :: rest)) := by
  cases tail with
  | nil => exact ends_newLine outer _
  | cons entry tail => exact Numeral.ends_cons rfl (by decide) _

theorem takeItems_pretty (fuel outer : Nat) (rest : List Char) {v : Json} {tail : List Json}
    (h : ∀ w ∈ v :: tail, Reads (w.pretty depth) w.outline)
    (hfuel : (v.pretty depth).length + (prettyItems depth tail).length < fuel) :
    takeItems fuel (v.pretty depth ++ (prettyItems depth tail ++ (newLine outer ++ ']' :: rest))) =
      (outlines (v :: tail), some rest) := by
  induction tail generalizing v fuel with
  | nil =>
    obtain ⟨fuel, rfl⟩ := Nat.exists_eq_add_one.mpr (Nat.zero_lt_of_lt hfuel)
    rw [takeItems, h v List.mem_cons_self fuel _ (by omega) (ends_prettyItems depth outer [] rest)]
    simp [prettyItems, skipBlanks_newLine, skipBlanks_cons (c := ']') rfl, outlines]
  | cons w tail ih =>
    obtain ⟨fuel, rfl⟩ := Nat.exists_eq_add_one.mpr (Nat.zero_lt_of_lt hfuel)
    rw [takeItems,
      h v List.mem_cons_self fuel _ (by omega) (ends_prettyItems depth outer (w :: tail) rest)]
    simp only [prettyItems, List.length_append, List.length_cons, List.length_nil] at hfuel
    have htail := ih fuel (fun u hu => h u (List.mem_cons_of_mem v hu)) (by omega)
    simp [prettyItems, skipBlanks_cons (c := ',') rfl, takeItems_newLine, htail, outlines]

theorem takeEntries_pretty (fuel outer : Nat) (rest : List Char) {key : String} {v : Json}
    {tail : List (String × Json)}
    (h : ∀ entry ∈ (key, v) :: tail, Reads (entry.2.pretty depth) entry.2.outline)
    (hfuel : (quote key.toList).length + (v.pretty depth).length +
      (prettyEntries depth tail).length < fuel) :
    takeEntries fuel (quote key.toList ++ ':' :: ' ' :: (v.pretty depth ++
        (prettyEntries depth tail ++ (newLine outer ++ '\x7d' :: rest)))) =
      (entryOutlines ((key, v) :: tail), some rest) := by
  induction tail generalizing key v fuel with
  | nil =>
    have hv : Reads (v.pretty depth) v.outline := h (key, v) List.mem_cons_self
    obtain ⟨fuel, rfl⟩ := Nat.exists_eq_add_one.mpr (Nat.zero_lt_of_lt hfuel)
    rw [takeEntries, reads_quote key fuel _ (by omega) (Numeral.ends_cons rfl (by decide) _)]
    simp only [skipBlanks_cons (c := ':') rfl, takeValue_space,
      hv fuel _ (by omega) (ends_prettyEntries depth outer [] rest)]
    simp [prettyEntries, skipBlanks_newLine, skipBlanks_cons (c := '\x7d') rfl, entryOutlines]
  | cons entry tail ih =>
    have hv : Reads (v.pretty depth) v.outline := h (key, v) List.mem_cons_self
    obtain ⟨fuel, rfl⟩ := Nat.exists_eq_add_one.mpr (Nat.zero_lt_of_lt hfuel)
    rw [takeEntries, reads_quote key fuel _ (by omega) (Numeral.ends_cons rfl (by decide) _)]
    simp only [skipBlanks_cons (c := ':') rfl, takeValue_space,
      hv fuel _ (by omega) (ends_prettyEntries depth outer (entry :: tail) rest)]
    simp only [prettyEntries, List.length_append, List.length_cons, List.length_nil] at hfuel
    have htail := ih fuel (fun u hu => h u (List.mem_cons_of_mem _ hu)) (by omega)
    simp [prettyEntries, skipBlanks_cons (c := ',') rfl, takeEntries_newLine, htail, entryOutlines]

end Nesting

section Values

/-- The text of a value starts with a character that is neither a blank nor a closing bracket. -/
theorem exists_pretty_eq {v : Json} (h : v.Standard) (depth : Nat) :
    ∃ c s, v.pretty depth = c :: s ∧ isBlank c = false ∧ c ≠ ']' := by
  cases h with
  | null => exact ⟨'n', _, rfl, rfl, by decide⟩
  | bool b =>
    cases b
    · exact ⟨'f', _, rfl, rfl, by decide⟩
    · exact ⟨'t', _, rfl, rfl, by decide⟩
  | number h =>
    obtain ⟨c, s, htext, hc⟩ := h.exists_text_eq
    rcases hc with rfl | hc
    · exact ⟨'-', s, htext, rfl, by decide⟩
    · refine ⟨c, s, htext, isBlank_eq_false_of_isDigit hc, ?_⟩
      rintro rfl
      exact absurd hc (by decide)
  | text s => exact ⟨'"', _, rfl, rfl, by decide⟩
  | @list items h =>
    cases items
    · exact ⟨'[', _, rfl, rfl, by decide⟩
    · exact ⟨'[', _, rfl, rfl, by decide⟩
  | @object entries h =>
    rcases entries with _ | ⟨⟨key, v⟩, tail⟩
    · exact ⟨'\x7b', _, rfl, rfl, by decide⟩
    · exact ⟨'\x7b', _, rfl, rfl, by decide⟩

theorem takeValue_list {c : Char} (hblank : isBlank c = false) (hclose : c ≠ ']')
    (fuel depth : Nat) (s : List Char) :
    takeValue (fuel + 1) ('[' :: (newLine depth ++ c :: s)) =
      (list (takeItems fuel (c :: s)).1 (takeItems fuel (c :: s)).2.isSome,
        (takeItems fuel (c :: s)).2) := by
  rw [takeValue, skipBlanks_cons rfl]
  simp only [skipBlanks_newLine, skipBlanks_cons hblank]
  split
  · rename_i h
    exact absurd (List.cons.inj h).1 hclose
  · rfl

theorem takeValue_object {c : Char} (hblank : isBlank c = false) (hclose : c ≠ '\x7d')
    (fuel depth : Nat) (s : List Char) :
    takeValue (fuel + 1) ('\x7b' :: (newLine depth ++ c :: s)) =
      (object (takeEntries fuel (c :: s)).1 (takeEntries fuel (c :: s)).2.isSome,
        (takeEntries fuel (c :: s)).2) := by
  rw [takeValue, skipBlanks_cons rfl]
  simp only [skipBlanks_newLine, skipBlanks_cons hblank]
  split
  · rename_i h
    exact absurd (List.cons.inj h).1 hclose
  · rfl

theorem reads_list {items : List Json} (hstandard : ∀ v ∈ items, v.Standard) (depth : Nat)
    (h : ∀ v ∈ items, Reads (v.pretty (depth + 1)) v.outline) :
    Reads ((Json.list items).pretty depth) (Json.list items).outline := by
  intro fuel rest hfuel _
  cases items with
  | nil =>
    obtain ⟨fuel, rfl⟩ := Nat.exists_eq_add_one.mpr (Nat.lt_of_lt_of_le Nat.zero_lt_two hfuel)
    rfl
  | cons v tail =>
    obtain ⟨c, s, hc, hblank, hclose⟩ :=
      exists_pretty_eq (hstandard v List.mem_cons_self) (depth + 1)
    simp only [pretty, List.length_append, List.length_cons, List.length_nil] at hfuel
    obtain ⟨fuel, rfl⟩ := Nat.exists_eq_add_one.mpr (show 0 < fuel by omega)
    have hitems := takeItems_pretty fuel depth rest h (by omega)
    rw [hc, List.cons_append] at hitems
    have hvalue := takeValue_list hblank hclose fuel (depth + 1)
      (s ++ (prettyItems (depth + 1) tail ++ (newLine depth ++ ']' :: rest)))
    rw [hitems] at hvalue
    simpa [pretty, hc, outline] using hvalue

theorem reads_object {entries : List (String × Json)} (depth : Nat)
    (h : ∀ entry ∈ entries, Reads (entry.2.pretty (depth + 1)) entry.2.outline) :
    Reads ((Json.object entries).pretty depth) (Json.object entries).outline := by
  intro fuel rest hfuel _
  rcases entries with _ | ⟨⟨key, v⟩, tail⟩
  · obtain ⟨fuel, rfl⟩ := Nat.exists_eq_add_one.mpr (Nat.lt_of_lt_of_le Nat.zero_lt_two hfuel)
    rfl
  · simp only [pretty, List.length_append, List.length_cons, List.length_nil] at hfuel
    obtain ⟨fuel, rfl⟩ := Nat.exists_eq_add_one.mpr (show 0 < fuel by omega)
    have hentries := takeEntries_pretty fuel depth rest h (by omega)
    have hvalue := takeValue_object (c := '"') rfl (by decide) fuel (depth + 1)
      (key.toList.flatMap escape ++ '"' :: ':' :: ' ' :: (v.pretty (depth + 1) ++
        (prettyEntries (depth + 1) tail ++ (newLine depth ++ '\x7d' :: rest))))
    simp only [quote, List.append_assoc, List.cons_append, List.nil_append] at hentries
    rw [hentries] at hvalue
    simpa [pretty, quote, outline] using hvalue

/-- The indented text of a value is read as the outline of the value. -/
theorem reads_pretty {v : Json} (h : v.Standard) (depth : Nat) :
    Reads (v.pretty depth) v.outline := by
  induction h generalizing depth with
  | null => exact reads_null
  | bool b =>
    cases b
    · exact reads_false
    · exact reads_true
  | number h => exact reads_number h
  | text s => exact reads_quote s
  | list hstandard ih => exact reads_list hstandard depth fun v hv => ih v hv (depth + 1)
  | object _ ih => exact reads_object depth fun entry hentry => ih entry hentry (depth + 1)

end Values

end Outline

/-- Reading the indented text of a value gives its outline, and nothing stands behind it. -/
theorem ofText_render {v : Json} (h : v.Standard) :
    Outline.ofText v.render.toList = (v.outline, true) := by
  have hread := Outline.reads_pretty h 0 (2 * (v.pretty 0).length + 2) [] (by omega)
    Numeral.ends_nil
  rw [List.append_nil] at hread
  rw [render, String.toList_ofList, Outline.ofText, hread]
  rfl

mutual

theorem value?_outline : ∀ v : Json, v.outline.value? = some v
  | null | bool _ | number _ | text _ => rfl
  | list items => by rw [outline, Outline.value?, values?_outlines items]; rfl
  | object entries => by rw [outline, Outline.value?, entryValues?_entryOutlines entries]; rfl

theorem values?_outlines : ∀ items : List Json, Outline.values? (outlines items) = some items
  | [] => rfl
  | v :: rest => by simp [outlines, Outline.values?, value?_outline v, values?_outlines rest]

theorem entryValues?_entryOutlines :
    ∀ entries : List (String × Json), Outline.entryValues? (entryOutlines entries) = some entries
  | [] => rfl
  | (key, v) :: rest => by
    simp [entryOutlines, Outline.entryValues?, value?_outline v, entryValues?_entryOutlines rest]

end

/-- Writing a value and reading the text gives the value back. -/
theorem parse?_render {v : Json} (h : v.Standard) : parse? v.render = some v := by
  rw [parse?, ofText_render h]
  exact value?_outline v

end Blueprint.Json
