import Blueprint.Proofs.Canonical.Cells
import Blueprint.Proofs.Section.Rows

/-!
# Quotes at the ends of columns

A quote at the end of a column that has another column behind it is not read as part of the column,
and neither is anything of a first column that starts with one. What is read instead is shorter, so
the names or the types that come from it are not those that were written.
-/

namespace Blueprint.Canonical

open Section (columnsAfterTag itemsOf cell namedRows)
open Text (Unpaired)

/-- The column neither starts nor ends with a quote. -/
structure Firm (c : List Char) : Prop where
  head : c.head? ≠ some '\''
  last : c.getLast? ≠ some '\''

section Misreading

variable {c : List Char} {others : List (List Char)}

/-- Of a column before a pair of quotes, the quote at its end is read as half of the pair. -/
theorem columns_of_last (hun : Unpaired (c ++ ['\''])) (hothers : others ≠ []) :
    (Text.columns (['\'', '\''].intercalate ((c ++ ['\'']) :: others)))[0]? = some c := by
  obtain ⟨hc, -, hjoint⟩ := List.isChain_append.mp hun
  have hlast : c.getLast? ≠ some '\'' := fun hq => hjoint '\'' hq '\'' rfl ⟨rfl, rfl⟩
  obtain ⟨next, later, rfl⟩ := List.exists_cons_of_ne_nil hothers
  rw [Text.intercalate_pair, List.append_assoc]
  change (Text.columns (c ++ '\'' :: '\'' :: '\'' :: _))[0]? = some c
  rw [Text.columns_append_pair hc hlast]
  rfl

theorem firm_or_misread (hun : Unpaired c) (hothers : others ≠ []) :
    Firm c ∨ ∃ u, (columnsAfterTag (['\'', '\''].intercalate (c :: others)))[0]? = some u ∧
      (u = [] ∨ c = u ++ ['\'']) := by
  by_cases hhead : c.head? = some '\''
  · right
    obtain ⟨tail, rfl⟩ := List.head?_eq_some_iff.mp hhead
    obtain ⟨next, later, rfl⟩ := List.exists_cons_of_ne_nil hothers
    exact ⟨[], by rw [Text.intercalate_pair, List.cons_append, Section.columnsAfterTag_quote]; rfl,
      .inl rfl⟩
  by_cases hlast : c.getLast? = some '\''
  · right
    obtain ⟨u, rfl⟩ := List.getLast?_eq_some_iff.mp hlast
    refine ⟨u, ?_, .inr rfl⟩
    have hquoted : Unpaired (('\'' :: u) ++ ['\'']) := Text.unpaired_cons_quote hun hhead
    have hcolumns := columns_of_last hquoted hothers
    have htext : '\'' :: ['\'', '\''].intercalate ((u ++ ['\'']) :: others) =
        ['\'', '\''].intercalate ((('\'' :: u) ++ ['\'']) :: others) := by
      obtain ⟨next, later, rfl⟩ := List.exists_cons_of_ne_nil hothers
      simp only [Text.intercalate_pair, List.cons_append]
    rw [columnsAfterTag, htext]
    obtain ⟨first, later, hcols⟩ := List.exists_cons_of_ne_nil (Text.columns_ne_nil
      (['\'', '\''].intercalate ((('\'' :: u) ++ ['\'']) :: others)))
    rw [hcols] at hcolumns ⊢
    obtain rfl : first = '\'' :: u := by simpa using hcolumns
    rfl
  · exact .inl ⟨hhead, hlast⟩

theorem columnsAfterTag_of_firm (hun : Unpaired c) (hne : c ≠ []) (hfirm : Firm c)
    (hothers : others ≠ []) :
    columnsAfterTag (['\'', '\''].intercalate (c :: others)) =
      c :: Text.columns (['\'', '\''].intercalate others) := by
  obtain ⟨next, later, rfl⟩ := List.exists_cons_of_ne_nil hothers
  rw [Text.intercalate_pair, Section.columnsAfterTag_append_pair hun hne hfirm.head hfirm.last]

end Misreading

theorem intercalate_concat_append {separator part tail : List Char} (parts : List (List Char)) :
    separator.intercalate (parts ++ [part ++ tail]) =
      separator.intercalate (parts ++ [part]) ++ tail := by
  induction parts with
  | nil => simp
  | cons first parts ih =>
    have hne : ∀ last : List Char, parts ++ [last] ≠ [] := by simp
    simp only [List.cons_append, List.intercalate_cons_of_ne_nil (hne _), ih, List.append_assoc]

/-- When the quote at the end of a list of entries is lost, so is that of the last entry. -/
theorem items_of_last {l : List String} {u : List Char} (h : ∀ s ∈ l, Entry s)
    (hu : (entries l).toList = u ++ ['\'']) :
    ∃ init k, l = init ++ [String.ofList (k ++ ['\''])] ∧
      Text.items u = init ++ [String.ofList (Text.trim k)] := by
  rcases List.eq_nil_or_concat l with rfl | ⟨init, s, rfl⟩
  · simp [entries] at hu
  have hs : Entry s := h s (by simp)
  rcases List.eq_nil_or_concat s.toList with hnil | ⟨k, c, hk⟩
  · exact absurd hnil (ne_empty_iff.mp hs.ne_empty)
  rw [List.concat_eq_append] at hk
  rw [List.concat_eq_append, toList_entries, List.map_append, List.map_singleton, hk,
    intercalate_concat_append] at hu
  obtain ⟨rfl, hc⟩ := List.append_inj' hu rfl
  obtain rfl : c = '\'' := by simpa using hc
  refine ⟨init, k, by rw [← hk, String.ofList_toList, List.concat_eq_append], ?_⟩
  have hcomma : ∀ part ∈ init.map String.toList ++ [k], ',' ∉ part := by
    intro part hp
    rcases List.mem_append.mp hp with hp | hp
    · obtain ⟨e, he, rfl⟩ := List.mem_map.mp hp
      exact (h e (by simp [he])).comma
    · obtain rfl := List.mem_singleton.mp hp
      exact fun hmem => hs.comma (by simp [hk, hmem])
  rw [Text.items, Text.pieces_intercalate (by simp) hcomma, List.map_append,
    map_trim_toList fun e he => (h e (by simp [he])).toColumn]
  rfl

theorem ofList_trim_ne {k tail : List Char} (h : tail ≠ []) :
    String.ofList (Text.trim k) ≠ String.ofList (k ++ tail) := by
  intro heq
  have hlength := congrArg List.length (String.ofList_injective heq)
  have hle := (Text.trim_infix k).length_le
  have hpos := List.length_pos_iff.mpr h
  rw [List.length_append] at hlength
  omega

/-- What is read of a last entry that loses the quote at its end is not that entry. Neither is a
substitute without a quote at its end. -/
theorem cell_of_last_ne {init : List String} {k : List Char} {substitute : String}
    (hsubstitute : substitute.toList.getLast? ≠ some '\'') :
    (cell (init ++ [String.ofList (Text.trim k)]) init.length).getD substitute ≠
      String.ofList (k ++ ['\'']) := by
  by_cases htrim : String.ofList (Text.trim k) = ""
  · have hnone : cell (init ++ [String.ofList (Text.trim k)]) init.length = none := by
      simp [cell, htrim]
    rw [hnone, Option.getD_none]
    rintro rfl
    simp at hsubstitute
  · have hsome : cell (init ++ [String.ofList (Text.trim k)]) init.length =
        some (String.ofList (Text.trim k)) := by
      simp [cell, htrim]
    rw [hsome, Option.getD_some]
    exact ofList_trim_ne (by simp)

theorem firm_of_names {names : List String} {others : List (List Char)} (h : ∀ n ∈ names, Entry n)
    (hne : names ≠ []) (hothers : others ≠ [])
    (hread : (itemsOf (columnsAfterTag
      (['\'', '\''].intercalate ((entries names).toList :: others))) 0).filter (· ≠ "") = names) :
    Firm (entries names).toList := by
  have hcolumn : Column (entries names) := column_entries fun n hn => (h n hn).toColumn
  rcases firm_or_misread hcolumn.unpaired hothers with hfirm | ⟨u, hu, hcase⟩
  · exact hfirm
  have hitems : (Text.items u).filter (· ≠ "") = names := by
    simpa [itemsOf, hu] using hread
  rcases hcase with rfl | hlast
  · exact absurd hitems.symm hne
  obtain ⟨init, k, hnames, hfound⟩ := items_of_last h hlast
  have hinit : init.filter (· ≠ "") = init := by
    rw [List.filter_eq_self]
    intro n hn
    simpa using (h n (by simp [hnames, hn])).ne_empty
  rw [hfound, List.filter_append, hinit, hnames, List.append_cancel_left_eq] at hitems
  by_cases htrim : String.ofList (Text.trim k) = ""
  · simp [htrim] at hitems
  · have heq : String.ofList (Text.trim k) = String.ofList (k ++ ['\'']) := by
      simpa [htrim] using hitems
    exact absurd heq (ofList_trim_ne (by simp))

theorem firm_of_name {name : String} {others : List (List Char)} (h : Phrase name)
    (hothers : others ≠ [])
    (hread : ((columnsAfterTag (['\'', '\''].intercalate (name.toList :: others)))[0]?.map
      fun c => String.ofList (Text.trim c)).getD "" = name) :
    Firm name.toList := by
  rcases firm_or_misread h.unpaired hothers with hfirm | ⟨u, hu, hcase⟩
  · exact hfirm
  have hname : String.ofList (Text.trim u) = name := by simpa [hu] using hread
  rcases hcase with rfl | hlast
  · exact absurd hname.symm h.ne_empty
  · have hne : String.ofList (Text.trim u) ≠ String.ofList (u ++ ['\'']) :=
      ofList_trim_ne (by simp)
    rw [hname, ← hlast, String.ofList_toList] at hne
    exact absurd rfl hne

/-- If the types of a table with a third column are read as they were written, their column does not
end with a quote. No substitute can stand for a type that ends with one. -/
theorem last_of_types {names types : List String} {others : List (List Char)} {substitute : String}
    (hnames : ∀ n ∈ names, Entry n) (hne : names ≠ []) (htypes : ∀ t ∈ types, Entry t)
    (hfirm : Firm (entries names).toList) (hothers : others ≠ [])
    (hsubstitute : substitute.toList.getLast? ≠ some '\'') {columns : List (List Char)}
    (hcolumns : columns = columnsAfterTag
      (['\'', '\''].intercalate ((entries names).toList :: (entries types).toList :: others)))
    (hread : namedRows (itemsOf columns 0)
      (fun i _ => (cell (itemsOf columns 1) i).getD substitute) = types) :
    (entries types).toList.getLast? ≠ some '\'' := by
  intro hlast
  obtain ⟨v, hv⟩ := List.getLast?_eq_some_iff.mp hlast
  have hcolumn : Column (entries names) := column_entries fun n hn => (hnames n hn).toColumn
  have hunpaired : Unpaired (v ++ ['\'']) := by
    rw [← hv]
    exact (column_entries fun t ht => (htypes t ht).toColumn).unpaired
  have hne' : (entries names).toList ≠ [] := entries_ne_nil hne hnames
  rw [columnsAfterTag_of_firm hcolumn.unpaired hne' hfirm (by simp), hv] at hcolumns
  have hsecond := columns_of_last hunpaired hothers
  obtain ⟨init, k, hinit, hitems⟩ := items_of_last htypes hv
  have hzero : itemsOf columns 0 = names := by
    rw [hcolumns, itemsOf]
    exact items_entries hne hnames
  have hone : itemsOf columns 1 = init ++ [String.ofList (Text.trim k)] := by
    simp only [hcolumns, itemsOf, List.getElem?_cons_succ, hsecond, Option.map_some,
      Option.getD_some, hitems]
  have hrow := congrArg (·[init.length]?) hread
  simp only [hzero, hone, Section.getElem?_namedRows fun n hn => (hnames n hn).ne_empty, hinit,
    List.getElem?_concat_length] at hrow
  have hvalue : (cell (init ++ [String.ofList (Text.trim k)]) init.length).getD substitute =
      String.ofList (k ++ ['\'']) := by
    cases hn : names[init.length]? <;> simp_all
  exact cell_of_last_ne hsubstitute hvalue

end Blueprint.Canonical
