import Blueprint.Proofs.Script.Lines

/-!
# Declarations in a script text

A script text is cut into lines again. Some of its lines start with the word of a declaration, and an
enumeration or a function goes on up to the line that closes it. What lines declare is known part by
part: of lines that follow one another, and of a declaration whose inner lines neither start another
one nor close it.
-/

namespace Blueprint

def Text.OneLine (s : String) : Prop :=
  '\n' ∉ s.toList

instance : DecidablePred Text.OneLine := fun s => inferInstanceAs (Decidable ('\n' ∉ s.toList))

open Text (OneLine)

section OneLine

variable {s t : String}

@[simp] theorem Text.oneLine_append : OneLine (s ++ t) ↔ OneLine s ∧ OneLine t := by
  simp [OneLine]

end OneLine

namespace Script

def keywords : List String :=
  ["signal ", "const ", "enum ", "var ", "func "]

def isDeclaration (line : String) : Bool :=
  keywords.any fun word => line.startsWith word

/-- The lines before the first one that is `last`, if there is one. -/
def linesBefore? (last : String) : List String → Option (List String)
  | [] => none
  | line :: rest => if line = last then some [] else (linesBefore? last rest).map (line :: ·)

/-- Each line that starts with a word, with the lines between it and the next one that is `last`. -/
def blocks (word last : String) : List String → List (String × Option (List String))
  | [] => []
  | line :: rest =>
    if line.startsWith word then (line, linesBefore? last rest) :: blocks word last rest
    else blocks word last rest

/-- Cut into lines, the text has these declarations, in this order. Each of the enumerations is closed
by a brace and each of the functions by an empty line, and these are the lines before. -/
structure Declares (text : String) (declarations : List String)
    (enums functions : List (String × List String)) : Prop where
  declarations : (linesOf text).filter isDeclaration = declarations
  enums : blocks "enum " "\x7d" (linesOf text) = enums.map fun e => (e.1, some e.2)
  functions : blocks "func " "" (linesOf text) = functions.map fun f => (f.1, some f.2)

/-- An indent is one line and starts with a space or a tab. -/
structure Indents (indent : String) : Prop where
  oneLine : OneLine indent
  head : indent.toList.head? = some ' ' ∨ indent.toList.head? = some '\t'

section Keywords

def Quiet (line : String) : Prop :=
  ∀ word ∈ keywords, ¬word.toList <+: line.toList

instance : DecidablePred Quiet := fun line =>
  inferInstanceAs (Decidable (∀ word ∈ keywords, ¬word.toList <+: line.toList))

variable {word line indent : String}

theorem Quiet.startsWith (h : Quiet line) (hword : word ∈ keywords) :
    line.startsWith word = false :=
  String.startsWith_string_eq_false_iff.mpr (h word hword)

theorem Quiet.isDeclaration (h : Quiet line) : isDeclaration line = false := by
  rw [Script.isDeclaration, List.any_eq_false]
  intro word hword
  simp [h.startsWith hword]

theorem Quiet.append (h : Quiet line)
    (hlong : ∀ word ∈ keywords, word.toList.length ≤ line.toList.length) (s : String) :
    Quiet (line ++ s) := by
  intro word hword hprefix
  rw [String.toList_append] at hprefix
  exact h word hword
    (List.prefix_of_prefix_length_le hprefix (List.prefix_append _ _) (hlong word hword))

theorem startsWith_append {other : String} (hword : word ∈ keywords) (hother : other ∈ keywords)
    (s : String) : (word ++ s).startsWith other = decide (word = other) := by
  have hapart : ∀ w ∈ keywords, ∀ o ∈ keywords, w.toList <+: o.toList → w = o := by decide
  rw [Bool.eq_iff_iff, String.startsWith_string_iff, decide_eq_true_iff]
  constructor
  · intro hprefix
    have hself : word.toList <+: (word ++ s).toList := by simp
    rcases List.prefix_or_prefix_of_prefix hprefix hself with h | h
    · exact (hapart other hother word hword h).symm
    · exact hapart word hword other hother h
  · rintro rfl
    simp

theorem isDeclaration_append (hword : word ∈ keywords) (s : String) :
    isDeclaration (word ++ s) = true :=
  List.any_eq_true.mpr ⟨word, hword, by simp [startsWith_append hword hword]⟩

end Keywords

/-- A line inside a declaration: it starts no other one and closes none. -/
structure Inner (line : String) : Prop where
  oneLine : OneLine line
  quiet : Quiet line
  ne_empty : line ≠ ""
  ne_brace : line ≠ "\x7d"

section Indent

variable {indent : String} (h : Indents indent)

include h

theorem Indents.head?_append (s : String) :
    (indent ++ s).toList.head? = some ' ' ∨ (indent ++ s).toList.head? = some '\t' := by
  rcases h.head with hhead | hhead <;> obtain ⟨rest, hrest⟩ := List.head?_eq_some_iff.mp hhead
  · exact .inl (by simp [hrest])
  · exact .inr (by simp [hrest])

/-- An indented line starts no declaration. -/
theorem Indents.quiet (s : String) : Quiet (indent ++ s) := by
  have hwords : ∀ word ∈ keywords, word.toList.head? ≠ none ∧
      word.toList.head? ≠ some ' ' ∧ word.toList.head? ≠ some '\t' := by
    decide
  intro word hword hprefix
  obtain ⟨hne, hspace, htab⟩ := hwords word hword
  obtain ⟨c, hc⟩ := Option.ne_none_iff_exists'.mp hne
  have hhead : (indent ++ s).toList.head? = some c := by
    obtain ⟨rest, hrest⟩ := hprefix
    rw [← hrest, List.head?_append, hc, Option.some_or]
  rcases h.head?_append s with hindent | hindent
  · exact hspace (hc.trans (hhead.symm.trans hindent))
  · exact htab (hc.trans (hhead.symm.trans hindent))

theorem Indents.append_ne (s : String) : indent ++ s ≠ "" ∧ indent ++ s ≠ "\x7d" := by
  constructor <;> intro heq <;> have hhead := h.head?_append s <;> rw [heq] at hhead <;>
    exact absurd hhead (by decide)

theorem Indents.inner {s : String} (hs : OneLine s) : Inner (indent ++ s) where
  oneLine := Text.oneLine_append.mpr ⟨h.oneLine, hs⟩
  quiet := h.quiet s
  ne_empty := (h.append_ne s).1
  ne_brace := (h.append_ne s).2

end Indent

section Parts

/-- The lines have these declarations, enumerations and functions, whatever lines follow them. -/
structure Parts (lines declarations : List String) (enums functions : List (String × List String)) :
    Prop where
  oneLine : ∀ line ∈ lines, OneLine line
  declarations : lines.filter isDeclaration = declarations
  enums : ∀ rest, blocks "enum " "\x7d" (lines ++ rest) =
    enums.map (fun e => (e.1, some e.2)) ++ blocks "enum " "\x7d" rest
  functions : ∀ rest, blocks "func " "" (lines ++ rest) =
    functions.map (fun f => (f.1, some f.2)) ++ blocks "func " "" rest

variable {lines lines' declarations declarations' : List String}
  {enums enums' functions functions' : List (String × List String)} {word last s : String}

theorem Parts.nil : Parts [] [] [] [] := by
  constructor <;> simp

theorem Parts.append (h : Parts lines declarations enums functions)
    (h' : Parts lines' declarations' enums' functions') :
    Parts (lines ++ lines') (declarations ++ declarations') (enums ++ enums')
      (functions ++ functions') where
  oneLine line hline := (List.mem_append.mp hline).elim (h.oneLine line) (h'.oneLine line)
  declarations := by rw [List.filter_append, h.declarations, h'.declarations]
  enums rest := by rw [List.append_assoc, h.enums, h'.enums, List.map_append, List.append_assoc]
  functions rest := by
    rw [List.append_assoc, h.functions, h'.functions, List.map_append, List.append_assoc]

theorem Parts.flatMap {α : Type} {as : List α} {lines declarations : α → List String}
    {enums functions : α → List (String × List String)}
    (h : ∀ a ∈ as, Parts (lines a) (declarations a) (enums a) (functions a)) :
    Parts (as.flatMap lines) (as.flatMap declarations) (as.flatMap enums)
      (as.flatMap functions) := by
  induction as with
  | nil => exact .nil
  | cons a as ih =>
    obtain ⟨ha, has⟩ := List.forall_mem_cons.mp h
    simpa only [List.flatMap_cons] using ha.append (ih has)

theorem Parts.map {α : Type} {as : List α} {line : α → String}
    (h : ∀ a ∈ as, Parts [line a] [line a] [] []) : Parts (as.map line) (as.map line) [] [] := by
  induction as with
  | nil => exact .nil
  | cons a as ih =>
    obtain ⟨ha, has⟩ := List.forall_mem_cons.mp h
    exact ha.append (ih has)

theorem blocks_append (h : ∀ line ∈ lines, line.startsWith word = false) (rest : List String) :
    blocks word last (lines ++ rest) = blocks word last rest := by
  induction lines with
  | nil => rfl
  | cons line lines ih =>
    obtain ⟨hline, hlines⟩ := List.forall_mem_cons.mp h
    rw [List.cons_append, blocks, hline]
    exact ih hlines

theorem linesBefore?_append (h : last ∉ lines) (rest : List String) :
    linesBefore? last (lines ++ last :: rest) = some lines := by
  induction lines with
  | nil => simp [linesBefore?]
  | cons line lines ih =>
    obtain ⟨hline, hlines⟩ := not_or.mp (mt List.mem_cons.mpr h)
    simp [linesBefore?, Ne.symm hline, ih hlines]

/-- A line that starts with the word is the start of one block, which ends at the next last line. -/
theorem blocks_closed (hword : word ∈ keywords) (hlines : ∀ line ∈ lines, Quiet line)
    (hlast : Quiet last) (hopen : last ∉ lines) (rest : List String) :
    blocks word last ((word ++ s) :: (lines ++ [last]) ++ rest) =
      (word ++ s, some lines) :: blocks word last rest := by
  have hquiet : ∀ line ∈ lines ++ [last], line.startsWith word = false := by
    intro line hline
    rcases List.mem_append.mp hline with hline | hline
    · exact (hlines line hline).startsWith hword
    · rw [List.mem_singleton.mp hline]
      exact hlast.startsWith hword
  have hstart : (word ++ s).startsWith word = true := by simp [startsWith_append hword hword]
  rw [List.cons_append, blocks, if_pos hstart, blocks_append hquiet, List.append_assoc,
    List.singleton_append, linesBefore?_append hopen]

theorem blocks_other {other last' : String} (hword : word ∈ keywords) (hother : other ∈ keywords)
    (hne : other ≠ word) (hlines : ∀ line ∈ lines, Quiet line) (hlast : Quiet last')
    (rest : List String) :
    blocks word last ((other ++ s) :: (lines ++ [last']) ++ rest) = blocks word last rest := by
  refine blocks_append (fun line hline => ?_) rest
  rcases List.mem_cons.mp hline with rfl | hline
  · rw [startsWith_append hother hword, decide_eq_false hne]
  rcases List.mem_append.mp hline with hline | hline
  · exact (hlines line hline).startsWith hword
  · rw [List.mem_singleton.mp hline]
    exact hlast.startsWith hword

theorem Parts.quiet (hlines : ∀ line ∈ lines, OneLine line ∧ Quiet line) :
    Parts lines [] [] [] where
  oneLine line hline := (hlines line hline).1
  declarations := List.filter_eq_nil_iff.mpr fun line hline => by
    simp [(hlines line hline).2.isDeclaration]
  enums := blocks_append fun line hline => (hlines line hline).2.startsWith (by decide)
  functions := blocks_append fun line hline => (hlines line hline).2.startsWith (by decide)

theorem Parts.declaration (hword : word ∈ ["signal ", "const ", "var "])
    (hs : OneLine (word ++ s)) : Parts [word ++ s] [word ++ s] [] [] := by
  have hkeyword : word ∈ keywords := by
    have hsubset : ∀ word ∈ ["signal ", "const ", "var "], word ∈ keywords := by decide
    exact hsubset word hword
  have hother : ∀ other ∈ ["enum ", "func "], ∀ line ∈ [word ++ s],
      line.startsWith other = false := by
    have hapart : ∀ word ∈ ["signal ", "const ", "var "], ∀ other ∈ ["enum ", "func "],
        other ∈ keywords ∧ word ≠ other := by
      decide
    intro other hmem line hline
    obtain ⟨hkey, hne⟩ := hapart word hword other hmem
    rw [List.mem_singleton.mp hline, startsWith_append hkeyword hkey, decide_eq_false hne]
  exact
    { oneLine := by simpa using hs
      declarations := by simp [isDeclaration_append hkeyword]
      enums := blocks_append (hother "enum " (by decide))
      functions := blocks_append (hother "func " (by decide)) }

theorem filter_closed (hword : word ∈ keywords) (hlines : ∀ line ∈ lines, Quiet line)
    (hlast : Quiet last) :
    ((word ++ s) :: (lines ++ [last])).filter isDeclaration = [word ++ s] := by
  have hrest : (lines ++ [last]).filter isDeclaration = [] := by
    rw [List.filter_eq_nil_iff]
    intro line hline
    rcases List.mem_append.mp hline with hline | hline
    · simp [(hlines line hline).isDeclaration]
    · simp [List.mem_singleton.mp hline, hlast.isDeclaration]
  rw [List.filter_cons_of_pos (isDeclaration_append hword s), hrest]

theorem Parts.enumeration (hs : OneLine ("enum " ++ s)) (hlines : ∀ line ∈ lines, Inner line) :
    Parts (("enum " ++ s) :: (lines ++ ["\x7d"])) ["enum " ++ s] [("enum " ++ s, lines)] [] where
  oneLine := by
    simp only [List.forall_mem_cons, List.forall_mem_append]
    exact ⟨hs, fun line hline => (hlines line hline).oneLine, by decide, by simp⟩
  declarations := filter_closed (by decide) (fun line hline => (hlines line hline).quiet) (by decide)
  enums := blocks_closed (by decide) (fun line hline => (hlines line hline).quiet) (by decide)
    fun hmem => (hlines _ hmem).ne_brace rfl
  functions := blocks_other (by decide) (by decide) (by decide)
    (fun line hline => (hlines line hline).quiet) (by decide)

theorem Parts.function (hs : OneLine ("func " ++ s)) (hlines : ∀ line ∈ lines, Inner line) :
    Parts (("func " ++ s) :: (lines ++ [""])) ["func " ++ s] [] [("func " ++ s, lines)] where
  oneLine := by
    simp only [List.forall_mem_cons, List.forall_mem_append]
    exact ⟨hs, fun line hline => (hlines line hline).oneLine, by decide, by simp⟩
  declarations := filter_closed (by decide) (fun line hline => (hlines line hline).quiet) (by decide)
  functions := blocks_closed (by decide) (fun line hline => (hlines line hline).quiet) (by decide)
    fun hmem => (hlines _ hmem).ne_empty rfl
  enums := blocks_other (by decide) (by decide) (by decide)
    (fun line hline => (hlines line hline).quiet) (by decide)

/-- A heading and an empty line around lines add nothing to what the lines declare. -/
theorem Parts.block (h : Parts lines declarations enums functions) (heading : String)
    (hline : OneLine heading) (hquiet : Quiet heading) :
    Parts (block heading lines) declarations enums functions := by
  rw [Script.block]
  split
  · rename_i hempty
    rwa [List.isEmpty_iff.mp hempty] at h
  · have hheading : Parts [heading] [] [] [] := .quiet (by simp [hline, hquiet])
    have hend : Parts [""] [] [] [] := .quiet (by decide)
    simpa using (hheading.append h).append hend

theorem Parts.declares (h : Parts lines declarations enums functions) :
    Declares (ofLines lines) declarations enums functions := by
  have hend : Parts [""] [] [] [] := .quiet (by decide)
  have hall := h.append hend
  simp only [List.append_nil] at hall
  have hlines := linesOf_ofLines h.oneLine
  constructor
  · rw [hlines, hall.declarations]
  · have henums := hall.enums []
    rwa [List.append_nil, blocks, List.append_nil, ← hlines] at henums
  · have hfunctions := hall.functions []
    rwa [List.append_nil, blocks, List.append_nil, ← hlines] at hfunctions

end Parts

end Script

end Blueprint
