import Blueprint.Identity
import Blueprint.Proofs.Layout.Compact
import Mathlib.Logic.Relation

/-!
# Edits of the layout

An edit puts blanks into a text or takes them out where they separate nothing, or writes other
blanks for a run of them. Two texts have the same compact form exactly if such edits lead from one
to the other, so a description can be laid out in any way without a change to what is read from it.
-/

namespace Blueprint.Layout

open Text (isBlank)

/-- Between these two stretches of a text blanks separate nothing: what is before them is absent or
ends with an edge, or what is after them is absent or starts with one. -/
def Loose (l r : List Char) : Prop :=
  (∀ c ∈ l.getLast?, isEdge c = true) ∨ ∀ c ∈ r.head?, isEdge c = true

inductive Edit : List Char → List Char → Prop
  | insert {l blanks r : List Char} (hblank : ∀ c ∈ blanks, isBlank c = true) (h : Loose l r) :
      Edit (l ++ r) (l ++ blanks ++ r)
  | delete {l blanks r : List Char} (hblank : ∀ c ∈ blanks, isBlank c = true) (h : Loose l r) :
      Edit (l ++ blanks ++ r) (l ++ r)
  | replace {l run other r : List Char} (hrun : run ≠ []) (hother : other ≠ [])
      (hblank : ∀ c ∈ run, isBlank c = true) (hblank' : ∀ c ∈ other, isBlank c = true)
      (hl : ∀ c ∈ l.getLast?, isBlank c = false) (hr : ∀ c ∈ r.head?, isBlank c = false) :
      Edit (l ++ run ++ r) (l ++ other ++ r)

def Edits : List Char → List Char → Prop :=
  Relation.ReflTransGen Edit

theorem Edits.refl (s : List Char) : Edits s s :=
  Relation.ReflTransGen.refl

theorem Edits.trans {s t u : List Char} (h : Edits s t) (h' : Edits t u) : Edits s u :=
  Relation.ReflTransGen.trans h h'

theorem Edit.edits {s t : List Char} (h : Edit s t) : Edits s t :=
  Relation.ReflTransGen.single h

section Soundness

/-- Blanks where they separate nothing do not show in the compact form. -/
theorem compact_loose {l blanks r : List Char} (hblank : ∀ c ∈ blanks, isBlank c = true)
    (h : Loose l r) : compact (l ++ blanks ++ r) = compact (l ++ r) := by
  simp only [compact_eq_squeeze, List.append_assoc]
  rcases h with h | h
  · rcases List.eq_nil_or_concat l with rfl | ⟨l, c, rfl⟩
    · exact squeeze_false_blanks hblank false r
    · have hedge : isEdge c = true := h c (by simp)
      simp only [List.concat_eq_append, List.append_assoc, List.singleton_append]
      rw [squeeze_append_edge hedge, squeeze_append_edge hedge, squeeze_false_blanks hblank]
  · refine squeeze_append_congr (fun joins gap => ?_) l false false
    cases r with
    | nil => simp [squeeze_nil_of_blanks hblank, squeeze]
    | cons c r =>
      have hedge : isEdge c = true := h c (by simp)
      rw [squeeze_append_edge hedge, squeeze_edge hedge, squeeze_nil_of_blanks hblank]
      rfl

theorem Edit.compact_eq {s t : List Char} (h : Edit s t) : compact s = compact t := by
  cases h with
  | insert hblank h => exact (compact_loose hblank h).symm
  | delete hblank h => exact compact_loose hblank h
  | @replace l run other r hrun hother hblank hblank' =>
    simp only [compact_eq_squeeze, List.append_assoc]
    refine squeeze_append_congr (fun joins gap => ?_) l false false
    rw [squeeze_blanks hblank hrun, squeeze_blanks hblank' hother]

theorem Edits.compact_eq {s t : List Char} (h : Edits s t) : compact s = compact t := by
  induction h with
  | refl => rfl
  | tail _ hstep ih => exact ih.trans hstep.compact_eq

end Soundness

section Completeness

theorem Edit.symm {s t : List Char} (h : Edit s t) : Edit t s := by
  cases h with
  | insert hblank h => exact .delete hblank h
  | delete hblank h => exact .insert hblank h
  | replace hrun hother hblank hblank' hl hr => exact .replace hother hrun hblank' hblank hl hr

theorem Edits.symm {s t : List Char} (h : Edits s t) : Edits t s := by
  induction h with
  | refl => exact .refl s
  | tail _ hstep ih => exact hstep.symm.edits.trans ih

def endJoins (s : List Char) : Bool :=
  s.getLast?.any (!isEdge ·)

@[simp] theorem endJoins_append_singleton (s : List Char) (c : Char) :
    endJoins (s ++ [c]) = !isEdge c := by
  simp [endJoins]

theorem isEdge_of_endJoins_eq_false {s : List Char} (h : endJoins s = false) :
    ∀ c ∈ s.getLast?, isEdge c = true := by
  intro c hc
  simpa [endJoins, Option.mem_def.mp hc] using h

/-- The scan is a run of edits: what it has written so far stays, and the blanks it has read since
are taken out or become one space when the next character shows what they stand between. -/
theorem edits_squeeze {written blanks : List Char} (rest : List Char)
    (hwritten : ∀ c ∈ written.getLast?, isBlank c = false)
    (hblank : ∀ c ∈ blanks, isBlank c = true) :
    Edits (written ++ blanks ++ rest)
      (written ++ squeeze (endJoins written) (!blanks.isEmpty) rest) := by
  induction rest generalizing written blanks with
  | nil => exact (Edit.delete hblank (.inr (by simp))).edits
  | cons c rest ih =>
    by_cases hc : isBlank c = true
    · have hmore : ∀ d ∈ blanks ++ [c], isBlank d = true := by
        simpa [or_imp, forall_and, hc] using hblank
      have hrest := ih hwritten hmore
      rw [show (blanks ++ [c]).isEmpty = false by simp] at hrest
      rw [squeeze_blank hc]
      simpa using hrest
    · have hc : isBlank c = false := by simpa using hc
      have hnext : ∀ w : List Char,
          Edits (w ++ c :: rest) (w ++ c :: squeeze (!isEdge c) false rest) := by
        intro w
        have hlast : ∀ d ∈ (w ++ [c]).getLast?, isBlank d = false := by simpa using hc
        have hrest := ih hlast (show ∀ d ∈ ([] : List Char), isBlank d = true by simp)
        simpa using hrest
      by_cases hkeep : endJoins written && !blanks.isEmpty && !isEdge c
      · have hstep : Edit (written ++ blanks ++ c :: rest) (written ++ [' '] ++ c :: rest) := by
          refine .replace ?_ (by simp) hblank (by simp; decide) hwritten (by simpa using hc)
          simp_all
        have hout := hstep.edits.trans (hnext (written ++ [' ']))
        simpa [squeeze, hc, hkeep] using hout
      · have hdelete : Edits (written ++ blanks ++ c :: rest) (written ++ c :: rest) := by
          by_cases hnil : blanks = []
          · subst hnil
            simpa using Edits.refl (written ++ c :: rest)
          · refine (Edit.delete hblank ?_).edits
            by_cases hjoins : endJoins written = true
            · exact .inr (by simp_all)
            · exact .inl (isEdge_of_endJoins_eq_false (by simpa using hjoins))
        have hout := hdelete.trans (hnext written)
        simpa [squeeze, hc, hkeep] using hout

theorem edits_compact (s : List Char) : Edits s (compact s) := by
  rw [compact_eq_squeeze]
  exact edits_squeeze s (show ∀ c ∈ ([] : List Char).getLast?, isBlank c = false by simp)
    (show ∀ c ∈ ([] : List Char), isBlank c = true by simp)

theorem edits_iff_compact_eq {s t : List Char} : Edits s t ↔ compact s = compact t := by
  refine ⟨Edits.compact_eq, fun h => ?_⟩
  have hcompact : Edits s (compact t) := h ▸ edits_compact s
  exact hcompact.trans (edits_compact t).symm

end Completeness

section Spread

theorem squeeze_padded (t : Token) (rest : List Char) (joins gap : Bool) :
    squeeze joins gap (padded t ++ rest) = squeeze joins gap (t.text ++ rest) := by
  have hspace : isBlank ' ' = true := by decide
  have hbreak : isBlank '\n' = true := by decide
  have hsection : isEdge ';' = true := by decide
  have hquote : isEdge '\'' = true := by decide
  cases t with
  | sectionMark =>
    change squeeze joins gap (';' :: '\n' :: rest) = squeeze joins gap (';' :: rest)
    rw [squeeze_edge hsection, squeeze_blank hbreak, squeeze_false, squeeze_edge hsection]
  | columnMark =>
    change squeeze joins gap (' ' :: '\'' :: ' ' :: ' ' :: ' ' :: '\'' :: ' ' :: rest) =
      squeeze joins gap ('\'' :: '\'' :: rest)
    simp only [squeeze_blank hspace, squeeze_edge hquote, squeeze_false true]
  | fieldMark =>
    change squeeze joins gap (' ' :: '\'' :: ' ' :: rest) = squeeze joins gap ('\'' :: rest)
    simp only [squeeze_blank hspace, squeeze_edge hquote, squeeze_false true]
  | bar | comma | gap _ | word _ => rfl

theorem squeeze_flatMap_padded (ts : List Token) (joins gap : Bool) :
    squeeze joins gap (ts.flatMap padded) = squeeze joins gap (Token.textOf ts) := by
  induction ts generalizing joins gap with
  | nil => rfl
  | cons t rest ih =>
    rw [List.flatMap_cons, squeeze_padded, Token.textOf_cons]
    exact squeeze_append_congr ih t.text joins gap

theorem compact_spread (s : List Char) : compact (spread s) = compact s := by
  rw [compact_eq_squeeze, spread, squeeze_flatMap_padded, Token.textOf_lex, ← compact_eq_squeeze]

theorem compact_trimEnd (s : List Char) : compact (Text.trimEnd s) = compact s := by
  have hsplit : Text.trimEnd s ++ (s.reverse.takeWhile isBlank).reverse = s := by
    rw [Text.trimEnd, ← List.reverse_append, List.takeWhile_append_dropWhile, List.reverse_reverse]
  have hblank : ∀ c ∈ (s.reverse.takeWhile isBlank).reverse, isBlank c = true :=
    fun c hc => List.mem_takeWhile_imp (List.mem_reverse.mp hc)
  have hend : Loose (Text.trimEnd s) [] := .inr (by simp)
  have hloose := compact_loose hblank hend
  simpa [hsplit] using hloose.symm

end Spread

end Blueprint.Layout

namespace Blueprint

theorem Description.parse_congr {s t : String}
    (h : Layout.compact s.toList = Layout.compact t.toList) (table : DefaultTable) (id : String) :
    Description.parse table id s = Description.parse table id t := by
  simp only [Description.parse, Description.parts, h]

theorem Parser.parse_congr {s t : String}
    (h : Layout.compact s.toList = Layout.compact t.toList) : Parser.parse s = Parser.parse t := by
  simp only [Parser.parse, Description.parse_congr h]

/-- Layout is not meaning. Texts that edits of the layout lead between have one compact form and
give every parser the same result, be it a record with its id and diagnostics or a fault, and the
same parser afterwards. The compact and the spread form of a text and the text without the blanks at
its end are among them. -/
theorem Parser.parse_eq_of_edits :
    (∀ s t : String, Layout.Edits s.toList t.toList →
      Layout.compact s.toList = Layout.compact t.toList ∧
        ∀ p : Parser, (Parser.parse s).run p = (Parser.parse t).run p) ∧
    ∀ s : String, ∀ t ∈ [Layout.compact s.toList, Layout.spread s.toList,
        Layout.compact (Layout.spread s.toList), Text.trimEnd s.toList],
      Layout.Edits s.toList t ∧ Layout.compact s.toList = Layout.compact t ∧
        ∀ p : Parser, (Parser.parse s).run p = (Parser.parse (String.ofList t)).run p := by
  have main : ∀ s t : String, Layout.compact s.toList = Layout.compact t.toList →
      ∀ p : Parser, (Parser.parse s).run p = (Parser.parse t).run p :=
    fun s t h p => by rw [Parser.parse_congr h]
  refine ⟨fun s t h => ⟨h.compact_eq, main s t h.compact_eq⟩, fun s t ht => ?_⟩
  have hcompact : Layout.compact s.toList = Layout.compact t := by
    simp only [List.mem_cons, List.not_mem_nil, or_false] at ht
    rcases ht with rfl | rfl | rfl | rfl
    · exact (Layout.compact_compact _).symm
    · exact (Layout.compact_spread _).symm
    · rw [Layout.compact_compact, Layout.compact_spread]
    · exact (Layout.compact_trimEnd _).symm
  exact ⟨Layout.edits_iff_compact_eq.mpr hcompact, hcompact,
    main s (String.ofList t) (by simpa using hcompact)⟩

theorem Parser.parse_eq_of_edits_spaced_quotes :
    Layout.Edits "Cl ' A ;cn ' X ' '' int ' ' 3 ".toList "Cl'A;cn'X'''int''3".toList ∧
      ∀ p : Parser, (Parser.parse "Cl ' A ;cn ' X ' '' int ' ' 3 ").run p =
        (Parser.parse "Cl'A;cn'X'''int''3").run p := by
  have h : Layout.Edits "Cl ' A ;cn ' X ' '' int ' ' 3 ".toList "Cl'A;cn'X'''int''3".toList :=
    Layout.edits_iff_compact_eq.mpr (by decide +kernel)
  exact ⟨h, (Parser.parse_eq_of_edits.1 _ _ h).2⟩

end Blueprint
