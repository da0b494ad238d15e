import Blueprint.Files.Tree
import Blueprint.Proofs.Files.Joining

/-!
# The folders that a spelling goes through

A spelling is followed text by text, and the folders around a file are spelled by the beginnings of its
spelling. What stands in front of the file's own spelling leads to the folder that the file is put into.
From there each beginning leads one name further in, whatever separators and dots stand between the
names.
-/

namespace Blueprint

namespace Path

def separated (texts : List (List Char)) : List Char :=
  texts.flatMap (· ++ ['/'])

@[simp] theorem separated_nil : separated [] = [] := rfl

@[simp] theorem separated_cons (text : List Char) (texts : List (List Char)) :
    separated (text :: texts) = text ++ '/' :: separated texts := by
  simp [separated]

@[simp] theorem separated_append (l r : List (List Char)) :
    separated (l ++ r) = separated l ++ separated r :=
  List.flatMap_append

theorem pieces_separated {texts : List (List Char)} {last : List Char}
    (h : ∀ text ∈ texts, '/' ∉ text) (hlast : '/' ∉ last) :
    Text.pieces (· == '/') (separated texts ++ last) = texts ++ [last] := by
  have hpiece : ∀ {text : List Char}, '/' ∉ text → Text.pieces (· == '/') text = [text] :=
    fun htext => Text.pieces_eq_singleton fun c hc => by
      have hne : c ≠ '/' := fun heq => htext (heq ▸ hc)
      simpa using hne
  induction texts with
  | nil => exact hpiece hlast
  | cons text texts ih =>
    have hsep : ('/' == '/') = true := rfl
    have hcut := Text.pieces_append_cons (p := (· == '/')) hsep text (separated texts ++ last)
    rw [separated_cons, List.append_assoc, List.cons_append, hcut,
      hpiece (h text List.mem_cons_self), ih fun t ht => h t (List.mem_cons_of_mem text ht)]
    rfl

theorem intercalate_separated (texts : List (List Char)) (last : List Char) :
    ['/'].intercalate (texts ++ [last]) = separated texts ++ last := by
  induction texts with
  | nil => simp
  | cons text texts ih =>
    cases texts with
    | nil => simp [List.intercalate]
    | cons next texts =>
      simp only [List.cons_append, List.intercalate_cons_cons] at ih ⊢
      rw [ih]
      simp

theorem exists_separated (spelling : String) :
    ∃ texts last, spelling = String.ofList (separated texts ++ last) ∧
      (∀ text ∈ texts, '/' ∉ text) ∧ '/' ∉ last := by
  obtain ⟨texts, last, hpieces⟩ := List.eq_nil_or_concat' (Text.pieces (· == '/') spelling.toList)
    |>.resolve_left (Text.pieces_ne_nil _ _)
  have hmem : ∀ text ∈ texts ++ [last], '/' ∉ text :=
    fun text htext => Text.not_mem_of_mem_pieces (hpieces ▸ htext)
  refine ⟨texts, last, ?_, fun text htext => hmem text (by simp [htext]), hmem last (by simp)⟩
  rw [← intercalate_separated, ← hpieces, Text.intercalate_pieces, String.ofList_toList]

theorem startsWith_separated {texts : List (List Char)} {last : List Char}
    (h : ∀ text ∈ texts, '/' ∉ text) (hlast : '/' ∉ last) :
    (String.ofList (separated texts ++ last)).startsWith "/" = true ↔ texts.head? = some [] := by
  rw [String.startsWith_string_iff, String.toList_ofList]
  cases texts with
  | nil =>
    have hbegin : ¬"/".toList <+: separated [] ++ last := fun h =>
      hlast (h.subset (List.mem_singleton_self '/'))
    simpa using hbegin
  | cons text texts =>
    cases text with
    | nil => simp
    | cons c text =>
      have hc : '/' ≠ c := fun heq => h (c :: text) (by simp) (heq ▸ List.mem_cons_self)
      simpa using hc

theorem endsWith_iff (spelling ending : String) :
    spelling.endsWith ending = true ↔ ending.toList <:+ spelling.toList := by
  rw [String.endsWith_eq_endsWith_toSlice, String.Slice.endsWith_string_iff, String.copy_toSlice]

theorem suffix_separated {texts : List (List Char)} (hne : texts ≠ []) (last : List Char) :
    '/' :: last <:+ separated texts ++ last := by
  obtain ⟨before, text, rfl⟩ := (List.eq_nil_or_concat' texts).resolve_left hne
  exact ⟨separated before ++ text, by simp⟩

theorem endsWith_separated {texts : List (List Char)} {last : List Char} (hlast : '/' ∉ last) :
    (String.ofList (separated texts ++ last)).endsWith "/" = true ↔ last = [] ∧ texts ≠ [] := by
  have hslash : "/".toList = ['/'] := rfl
  rw [endsWith_iff, hslash, String.toList_ofList]
  constructor
  · intro h
    have hempty : last = [] := by
      by_contra hne
      obtain ⟨before, c, rfl⟩ := (List.eq_nil_or_concat' last).resolve_left hne
      obtain ⟨front, hfront⟩ := h
      rw [← List.append_assoc] at hfront
      obtain rfl : '/' = c := List.singleton_inj.mp (List.append_inj' hfront rfl).2
      exact hlast (by simp)
    refine ⟨hempty, ?_⟩
    rintro rfl
    simp [hempty] at h
  · rintro ⟨rfl, hne⟩
    exact suffix_separated hne []

theorem beginningsAfter_append (first : Bool) (front : List Char) (l r : List (List Char)) :
    beginningsAfter first front (l ++ r) =
      beginningsAfter first front l ++
        beginningsAfter (first && l.isEmpty) (front ++ separated l) r := by
  induction l generalizing first front with
  | nil => simp [beginningsAfter]
  | cons text l ih => simp [beginningsAfter, ih]

theorem prefix_of_mem_beginningsAfter {first : Bool} {front last : List Char}
    {texts : List (List Char)} {beginning : String}
    (h : beginning ∈ beginningsAfter first front (texts ++ [last])) :
    beginning.toList <+: front ++ separated texts ++ last := by
  induction texts generalizing first front with
  | nil =>
    obtain ⟨-, rfl⟩ : (part? first last).isSome = true ∧
        beginning = String.ofList (front ++ last) := by
      simpa [beginningsAfter] using h
    simp
  | cons text texts ih =>
    rw [List.cons_append, beginningsAfter, List.mem_append] at h
    rcases h with h | h
    · obtain ⟨-, rfl⟩ : (part? first text).isSome = true ∧
          beginning = String.ofList (front ++ text) := by
        simpa using h
      simp
    · simpa using ih h

theorem beginnings_separated {texts : List (List Char)} {last : List Char}
    (h : ∀ text ∈ texts, '/' ∉ text) (hlast : '/' ∉ last) :
    beginnings (String.ofList (separated texts ++ last)) =
      (if texts.head? = some [] then ["/"] else []) ++
        beginningsAfter true [] (texts ++ [last]) := by
  rw [beginnings, String.toList_ofList, pieces_separated h hlast]
  cases texts with
  | nil => simp
  | cons text texts =>
    cases text with
    | nil =>
      cases texts <;> rfl
    | cons c text => simp

/-- The folders around a file are spelled by what the file's spelling starts with. -/
theorem prefix_of_mem_foldersAround {spelling around : String}
    (h : around ∈ foldersAround spelling) : around.toList <+: spelling.toList := by
  obtain ⟨texts, last, rfl, huncut, hlast⟩ := exists_separated spelling
  have hmem := List.mem_of_mem_dropLast (List.mem_reverse.mp h)
  rw [beginnings_separated huncut hlast, List.mem_append] at hmem
  rcases hmem with hmem | hmem
  · split at hmem
    next hroot =>
      obtain rfl := List.mem_singleton.mp hmem
      exact String.startsWith_string_iff.mp ((startsWith_separated huncut hlast).mpr hroot)
    next => cases hmem
  · simpa using prefix_of_mem_beginningsAfter hmem

section Name

variable {n : String} (hn : PathPart.IsName n)

include hn

theorem joinPath_here : joinPath "." n = String.ofList (separated [['.']] ++ n.toList) := by
  have hinside : ".".endsWith "/" = false := by decide +kernel
  rw [joinPath, hn.startsWith, hinside]
  exact String.toList_inj.mp (by simp)

theorem foldersAround_here : foldersAround (joinPath "." n) = ["."] := by
  rw [foldersAround, joinPath_here hn, beginnings_separated (by simp) hn.uncut]
  have hhere : part? true ['.'] = some .here := rfl
  simp [beginningsAfter, part?_name hn, hhere]

end Name

end Path

namespace FileTree

/-- The steps of texts that stand in front of a separator. -/
def frontSteps (front : List (List Char)) : List PathPart :=
  (if front.head? = some [] then [.root] else []) ++ front.filterMap step?

@[simp] theorem frontSteps_nil : frontSteps [] = [] := rfl

theorem frontSteps_append {front texts : List (List Char)}
    (hhead : front = [] → texts.head? ≠ some []) :
    frontSteps (front ++ texts) = frontSteps front ++ texts.filterMap step? := by
  have hroot : (front ++ texts).head? = some [] ↔ front.head? = some [] := by
    cases front with
    | nil => simpa using hhead rfl
    | cons => simp
  simp only [frontSteps, hroot, List.filterMap_append, List.append_assoc]

theorem stepsOf_separated {texts : List (List Char)} {last : List Char}
    (h : ∀ text ∈ texts, '/' ∉ text) (hlast : '/' ∉ last) :
    stepsOf (String.ofList (Path.separated texts ++ last)) =
      frontSteps texts ++ (step? last).toList := by
  have hroot := Path.startsWith_separated h hlast
  have hstep : [last].filterMap step? = (step? last).toList := by
    cases hstep : step? last <;> simp [hstep]
  rw [stepsOf, String.toList_ofList, Path.pieces_separated h hlast]
  simp only [hroot, frontSteps, List.filterMap_append, hstep, List.append_assoc]

theorem stepsOf_here {n : String} (hn : PathPart.IsName n) :
    stepsOf (joinPath "." n) = [.here, .name n] := by
  rw [Path.joinPath_here hn, stepsOf_separated (by simp) hn.uncut, step?, Path.part?_name hn]
  rfl

theorem step?_eq_some {text : List Char} {part : PathPart}
    (h : Path.part? false text = some part) : step? text = some part := by
  unfold step? Path.part? at *
  split at h
  · cases h
  · split at h
    · cases h
    · simp_all

theorem eq_here_of_mem_step? {text : List Char} (h : Path.part? false text = none) :
    ∀ step ∈ step? text, step = .here := by
  unfold step? Path.part? at *
  split at h
  · simp_all
  · split at h
    · simp_all
    · split at h <;> cases h

theorem filter_steps (texts : List (List Char)) :
    (texts.filterMap step?).filter (· ≠ .here) = texts.filterMap (Path.part? false) := by
  induction texts with
  | nil => rfl
  | cons text texts ih =>
    by_cases hempty : text = []
    · simpa [step?, Path.part?, hempty] using ih
    by_cases hhere : text = ['.']
    · simpa [step?, Path.part?, hhere] using ih
    by_cases hup : text = ['.', '.']
    · simpa [step?, Path.part?, hup] using ih
    · simpa [step?, Path.part?, hempty, hhere, hup] using ih

/-- The spelling goes on behind the first steps by these names, the last of which it ends with. -/
def Leads (front : List PathPart) (names : List String) (spelling : String) : Prop :=
  ∃ steps last, stepsOf spelling = front ++ steps ++ [.name last] ∧
    steps.filter (· ≠ .here) ++ [.name last] = names.map .name

/-- Spellings that lead in by each beginning of the names, from the inside out. -/
inductive Chain (front : List PathPart) : List String → List String → Prop
  | nil : Chain front [] []
  | cons {names around : List String} {n spelling : String} (h : Chain front names around)
      (hleads : Leads front (names ++ [n]) spelling) : Chain front (names ++ [n]) (spelling :: around)

section Front

variable {front texts : List (List Char)}

theorem leads_separated {last : List Char} {names : List String} {n : String}
    (hfront : ∀ text ∈ front, '/' ∉ text) (htexts : ∀ text ∈ texts, '/' ∉ text)
    (hlast : '/' ∉ last) (hhead : front = [] → texts.head? ≠ some [])
    (hnames : texts.filterMap (Path.part? false) = names.map .name)
    (hn : Path.part? false last = some (.name n)) :
    Leads (frontSteps front) (names ++ [n])
      (String.ofList (Path.separated front ++ Path.separated texts ++ last)) := by
  have huncut : ∀ text ∈ front ++ texts, '/' ∉ text := by
    intro text htext
    rcases List.mem_append.mp htext with htext | htext
    · exact hfront text htext
    · exact htexts text htext
  have hstep := step?_eq_some hn
  refine ⟨texts.filterMap step?, n, ?_, ?_⟩
  · rw [← Path.separated_append, stepsOf_separated huncut hlast, frontSteps_append hhead, hstep]
    rfl
  · rw [filter_steps, hnames]
    simp

/-- The beginnings of what stands behind the front lead in by the names, one after the other. -/
theorem chain_beginningsAfter {names : List String} (hfront : ∀ text ∈ front, '/' ∉ text)
    (htexts : ∀ text ∈ texts, '/' ∉ text) (hhead : front = [] → texts.head? ≠ some [])
    (hnames : texts.filterMap (Path.part? false) = names.map .name) :
    Chain (frontSteps front) names
      (Path.beginningsAfter false (Path.separated front) texts).reverse := by
  induction texts using List.reverseRecOn generalizing names with
  | nil =>
    obtain rfl : names = [] := by simpa using hnames.symm
    exact .nil
  | append_singleton texts last ih =>
    have hbefore : ∀ text ∈ texts, '/' ∉ text := fun text htext => htexts text (by simp [htext])
    have hstart : front = [] → texts.head? ≠ some [] := by
      intro hnil
      have := hhead hnil
      cases texts <;> simp_all
    rw [Path.beginningsAfter_append, List.reverse_append]
    rw [List.filterMap_append] at hnames
    cases hlast : Path.part? false last with
    | none =>
      have hsame : texts.filterMap (Path.part? false) = names.map .name := by
        simpa [hlast] using hnames
      simpa [Path.beginningsAfter, hlast] using ih hbefore hstart hsame
    | some part =>
      -- The part is the last of the names.
      have hparts : texts.filterMap (Path.part? false) ++ [part] = names.map .name := by
        simpa [hlast] using hnames
      obtain ⟨before, final, rfl, hsame, hfinal⟩ := List.append_eq_map_iff.mp hparts
      obtain ⟨n, rfl, rfl⟩ := List.map_eq_singleton_iff.mp hfinal
      have hleads := leads_separated hfront hbefore (htexts last (by simp)) hstart hsame.symm hlast
      simpa [Path.beginningsAfter, hlast] using (ih hbefore hstart hsame.symm).cons hleads

end Front

section Folder

/-- What is left of the steps behind the longest beginning of a folder's spelling are dots. -/
theorem exists_beginning {texts : List (List Char)} (huncut : ∀ text ∈ texts, '/' ∉ text)
    (hne : texts ≠ []) :
    ∃ beginning shorter dots,
      ((if texts.head? = some [] then ["/"] else []) ++ Path.beginningsAfter true [] texts).reverse =
        beginning :: shorter ∧
      beginning ≠ "" ∧ (∀ step ∈ dots, step = .here) ∧
      frontSteps texts = stepsOf beginning ++ dots := by
  induction texts using List.reverseRecOn with
  | nil => exact absurd rfl hne
  | append_singleton texts last ih =>
    have hbefore : ∀ text ∈ texts, '/' ∉ text := fun text htext => huncut text (by simp [htext])
    have hlast : '/' ∉ last := huncut last (by simp)
    have hsteps := stepsOf_separated hbefore hlast
    by_cases hfirst : texts = []
    · subst hfirst
      by_cases hempty : last = []
      · -- The folder is the root.
        subst hempty
        have hroot : stepsOf "/" = frontSteps [[]] ++ (step? []).toList :=
          @stepsOf_separated [[]] [] (by simp) (by simp)
        exact ⟨"/", [], [], rfl, by decide, by simp, by rw [hroot]; rfl⟩
      · have hpart : (Path.part? true last).isSome = true := by
          simp [Path.part?, hempty, apply_ite Option.isSome]
        refine ⟨String.ofList last, [], [], ?_, by simpa using hempty, by simp, ?_⟩
        · simp [Path.beginningsAfter, hpart, hempty]
        · have hhead : ([] : List (List Char)) = [] → [last].head? ≠ some [] := by simp [hempty]
          rw [frontSteps_append hhead, List.append_nil]
          refine Eq.trans ?_ hsteps.symm
          cases hstep : step? last <;> simp [hstep]
    · have hhead : (texts ++ [last]).head? = texts.head? := by
        cases texts <;> simp_all
      have hfront : frontSteps (texts ++ [last]) = frontSteps texts ++ (step? last).toList := by
        rw [frontSteps_append fun h => absurd h hfirst]
        cases hstep : step? last <;> simp [hstep]
      have hinner : (true && texts.isEmpty) = false := by simp [hfirst]
      rw [hhead, Path.beginningsAfter_append, ← List.append_assoc, List.reverse_append, hinner]
      generalize ((if texts.head? = some [] then ["/"] else []) ++
        Path.beginningsAfter true [] texts).reverse = outer at ih ⊢
      by_cases hpart : (Path.part? false last).isSome = true
      · refine ⟨String.ofList (Path.separated texts ++ last), outer, [], ?_, ?_, by simp, ?_⟩
        · simp [Path.beginningsAfter, hpart]
        · have hempty : last ≠ [] := by
            rintro rfl
            simp [Path.part?] at hpart
          simp [hempty]
        · rw [hfront, hsteps, List.append_nil]
      · -- The last text adds no part, so it is empty or a dot.
        obtain ⟨beginning, shorter, dots, hlist, hne, hdots, hsteps⟩ := ih hbefore hfirst
        have hdot : ∀ step ∈ (step? last).toList, step = .here := by
          have hnone := Option.not_isSome_iff_eq_none.mp hpart
          exact fun step hstep => eq_here_of_mem_step? hnone step (by simpa using hstep)
        refine ⟨beginning, shorter, dots ++ (step? last).toList, ?_, hne, ?_, ?_⟩
        · simpa [Path.beginningsAfter, hpart] using hlist
        · intro step hstep
          rcases List.mem_append.mp hstep with hstep | hstep
          · exact hdots step hstep
          · exact hdot step hstep
        · rw [hfront, hsteps, List.append_assoc]

end Folder

section File

variable {spelling : String} {names : List String} {n : String}

theorem part?_false {text : List Char} (h : Path.part? true text = some (.name n)) :
    Path.part? false text = some (.name n) := by
  unfold Path.part? at *
  split at h
  · cases h
  · split at h
    · cases h
    · simp_all

theorem exists_head {texts : List (List Char)} {last : List Char}
    (huncut : ∀ text ∈ texts, '/' ∉ text) (hlast : '/' ∉ last)
    (hpath : Path.ofText (String.ofList (Path.separated texts ++ last)) = names.map .name)
    (hne : names ≠ []) :
    ∃ first rest m, texts ++ [last] = first :: rest ∧ Path.part? true first = some (.name m) ∧
      (texts ++ [last]).filterMap (Path.part? false) = names.map .name := by
  rw [Path.ofText, String.toList_ofList, Path.pieces_separated huncut hlast] at hpath
  cases hcut : texts ++ [last] with
  | nil => simp at hcut
  | cons first rest =>
    rw [hcut] at hpath
    cases first with
    | nil =>
      -- A spelling that starts with a separator has the root as a part.
      cases rest with
      | nil => exact absurd (List.map_eq_nil_iff.mp hpath.symm) hne
      | cons next rest =>
        have hroot : PathPart.root ∈ names.map .name := hpath ▸ List.mem_cons_self
        simp at hroot
    | cons c first =>
      dsimp only at hpath
      cases hfirst : Path.part? true (c :: first) with
      | none =>
        simp [Path.part?, apply_ite Option.isSome, ← Option.not_isSome_iff_eq_none] at hfirst
      | some part =>
        have hpart : part ∈ names.map .name := by
          rw [← hpath, hfirst]
          simp
        obtain ⟨m, -, rfl⟩ := List.mem_map.mp hpart
        refine ⟨c :: first, rest, m, rfl, hfirst, ?_⟩
        rw [← hpath]
        simp [hfirst, part?_false hfirst]

theorem endsWith_of_part?_eq_none {texts : List (List Char)} {last : List Char}
    (hlast : '/' ∉ last) (hne : texts ≠ []) (h : Path.part? false last = none) :
    (String.ofList (Path.separated texts ++ last)).endsWith "/" = true ∨
      (String.ofList (Path.separated texts ++ last)).endsWith "/." = true := by
  have hdots : last = [] ∨ last = ['.'] := by
    by_contra hnone
    simp_all [Path.part?, apply_ite Option.isSome, ← Option.not_isSome_iff_eq_none]
  rcases hdots with rfl | rfl
  · exact .inl ((Path.endsWith_separated hlast).mpr ⟨rfl, hne⟩)
  · refine .inr ((Path.endsWith_iff _ _).mpr ?_)
    simpa using Path.suffix_separated hne ['.']

theorem exists_texts (hpath : Path.ofText spelling = (names ++ [n]).map .name)
    (hsep : spelling.endsWith "/" = false) (hdot : spelling.endsWith "/." = false) :
    ∃ texts last, spelling = String.ofList (Path.separated texts ++ last) ∧
      (∀ text ∈ texts, '/' ∉ text) ∧ '/' ∉ last ∧ texts.head? ≠ some [] ∧
      texts.filterMap (Path.part? false) = names.map .name ∧
      Path.part? false last = some (.name n) ∧
      Path.beginningsAfter true [] (texts ++ [last]) =
        Path.beginningsAfter false [] (texts ++ [last]) := by
  obtain ⟨texts, last, rfl, huncut, hlast⟩ := Path.exists_separated spelling
  obtain ⟨first, rest, m, hcut, hfirst, hparts⟩ := exists_head huncut hlast hpath (by simp)
  have hsame : Path.beginningsAfter true [] (texts ++ [last]) =
      Path.beginningsAfter false [] (texts ++ [last]) := by
    rw [hcut]
    simp [Path.beginningsAfter, hfirst, part?_false hfirst]
  have hhead : texts.head? ≠ some [] := by
    intro hempty
    obtain ⟨more, rfl⟩ := List.head?_eq_some_iff.mp hempty
    obtain ⟨rfl, -⟩ : [] = first ∧ more ++ [last] = rest := by simpa using hcut
    simp [Path.part?] at hfirst
  rw [List.filterMap_append, List.map_append] at hparts
  cases hpart : Path.part? false last with
  | none =>
    have hne : texts ≠ [] := by
      rintro rfl
      obtain ⟨rfl, -⟩ : last = first ∧ [] = rest := by simpa using hcut
      rw [part?_false hfirst] at hpart
      cases hpart
    rcases endsWith_of_part?_eq_none hlast hne hpart with h | h
    · rw [h] at hsep
      cases hsep
    · rw [h] at hdot
      cases hdot
  | some part =>
    obtain ⟨hnames, hn⟩ : texts.filterMap (Path.part? false) = names.map .name ∧
        part = .name n := by
      simpa [hpart] using hparts
    exact ⟨texts, last, rfl, huncut, hlast, hhead, hnames, hn ▸ hpart, hsame⟩

/-- What stands in front of a file that is joined to a folder are the texts of the folder. -/
theorem joinPath_separated (folder : String) {texts : List (List Char)} {last : List Char}
    (huncut : ∀ text ∈ texts, '/' ∉ text) (hlast : '/' ∉ last) (hhead : texts.head? ≠ some []) :
    ∃ front, (∀ text ∈ front, '/' ∉ text) ∧ (folder = "" ↔ front = []) ∧
      frontSteps front = stepsOf folder ∧
      joinPath folder (String.ofList (Path.separated texts ++ last)) =
        String.ofList (Path.separated front ++ Path.separated texts ++ last) := by
  have hroot : (String.ofList (Path.separated texts ++ last)).startsWith "/" = false := by
    rw [← Bool.not_eq_true, Path.startsWith_separated huncut hlast]
    exact hhead
  by_cases hfolder : folder = ""
  · subst hfolder
    refine ⟨[], by simp, by simp, ?_, ?_⟩
    · exact (@stepsOf_separated [] [] (by simp) (by simp)).symm
    · simp [joinPath]
  have hrelative : ¬((String.ofList (Path.separated texts ++ last)).startsWith "/" ||
      folder = "") = true := by
    rw [hroot]
    simpa using hfolder
  obtain ⟨front, final, hspelling, hfront, hfinal⟩ := Path.exists_separated folder
  have hsteps := stepsOf_separated hfront hfinal
  have hend := @Path.endsWith_separated front final hfinal
  rw [← hspelling] at hsteps hend
  by_cases hempty : final = []
  · -- The folder's spelling ends with a separator already.
    subst hempty
    have hne : front ≠ [] := by
      rintro rfl
      exact hfolder hspelling
    refine ⟨front, hfront, iff_of_false hfolder hne, ?_, ?_⟩
    · rw [hsteps]
      simp [step?, Path.part?]
    · rw [joinPath, if_neg hrelative, if_pos (hend.mpr ⟨rfl, hne⟩), hspelling,
        ← String.ofList_append]
      simp
  · have hinside : ¬folder.endsWith "/" = true := fun h => hempty (hend.mp h).1
    refine ⟨front ++ [final], ?_, iff_of_false hfolder (by simp), ?_, ?_⟩
    · intro text htext
      rcases List.mem_append.mp htext with htext | htext
      · exact hfront text htext
      · exact List.mem_singleton.mp htext ▸ hfinal
    · rw [hsteps, frontSteps_append fun _ => by simp [hempty]]
      cases hstep : step? final <;> simp [hstep]
    · have hslash : "/" = String.ofList ['/'] := rfl
      rw [joinPath, if_neg hrelative, if_neg hinside, hspelling, hslash, ← String.ofList_append,
        ← String.ofList_append]
      simp

theorem beginnings_front {front texts : List (List Char)} {last : List Char} {part : PathPart}
    (hfront : ∀ text ∈ front, '/' ∉ text) (huncut : ∀ text ∈ texts, '/' ∉ text)
    (hlast : '/' ∉ last) (hhead : texts.head? ≠ some [])
    (hpart : Path.part? false last = some part)
    (hfirst : Path.beginningsAfter true [] (texts ++ [last]) =
      Path.beginningsAfter false [] (texts ++ [last])) :
    Path.beginnings (String.ofList (Path.separated (front ++ texts) ++ last)) =
      (if front.head? = some [] then ["/"] else []) ++ Path.beginningsAfter true [] front ++
        Path.beginningsAfter false (Path.separated front) texts ++
          [String.ofList (Path.separated (front ++ texts) ++ last)] := by
  have hall : ∀ text ∈ front ++ texts, '/' ∉ text :=
    fun text htext => (List.mem_append.mp htext).elim (hfront text) (huncut text)
  have hinner : Path.beginningsAfter false (Path.separated front) (texts ++ [last]) =
      Path.beginningsAfter false (Path.separated front) texts ++
        [String.ofList (Path.separated (front ++ texts) ++ last)] := by
    rw [Path.beginningsAfter_append]
    simp [Path.beginningsAfter, hpart]
  rw [Path.beginnings_separated hall hlast]
  cases front with
  | nil =>
    have hnil : Path.beginningsAfter true [] [] = [] := rfl
    rw [List.nil_append, hfirst, if_neg hhead]
    simpa [hnil] using hinner
  | cons first front =>
    have hstart : (first :: front ++ texts).head? = (first :: front).head? := rfl
    rw [hstart, List.append_assoc, Path.beginningsAfter_append]
    simp only [List.isEmpty_cons, Bool.and_false, List.nil_append, hinner, List.append_assoc]

/-- Spellings of the folder that a spelling names and of those around it. The first one leads where
the spelling leads. -/
def Outer (folder : String) (outer : List String) : Prop :=
  folder = "" ∧ outer = [] ∨ ∃ beginning shorter dots, outer = beginning :: shorter ∧
    beginning ≠ "" ∧ (∀ step ∈ dots, step = .here) ∧ stepsOf folder = stepsOf beginning ++ dots

/-- The folders around a file in a folder lead in by the beginnings of the file's names, and around
them are those around the folder. -/
theorem foldersAround_joinPath (folder : String)
    (hpath : Path.ofText spelling = (names ++ [n]).map .name)
    (hsep : spelling.endsWith "/" = false) (hdot : spelling.endsWith "/." = false) :
    ∃ around outer, Path.foldersAround (joinPath folder spelling) = around ++ outer ∧
      Chain (stepsOf folder) names around ∧ Outer folder outer ∧
      Leads (stepsOf folder) (names ++ [n]) (joinPath folder spelling) ∧
      (joinPath folder spelling).endsWith "/" = false := by
  obtain ⟨texts, last, rfl, huncut, hlast, hhead, hnames, hn, hfirst⟩ :=
    exists_texts hpath hsep hdot
  obtain ⟨front, hfront, hempty, hsteps, hjoin⟩ :=
    joinPath_separated folder huncut hlast hhead
  have hnone : front = [] → texts.head? ≠ some [] := fun _ => hhead
  have hchain := chain_beginningsAfter hfront huncut hnone hnames
  have hleads := leads_separated hfront huncut hlast hnone hnames hn
  rw [hsteps] at hchain hleads
  -- The beginnings are those of the folder, those of the names before the last, and the whole.
  let outer := (if front.head? = some [] then ["/"] else []) ++ Path.beginningsAfter true [] front
  have hbeginnings : Path.beginnings (joinPath folder (String.ofList (Path.separated texts ++ last))) =
      outer ++ Path.beginningsAfter false (Path.separated front) texts ++
        [joinPath folder (String.ofList (Path.separated texts ++ last))] := by
    rw [hjoin, ← Path.separated_append]
    exact beginnings_front hfront huncut hlast hhead hn hfirst
  refine ⟨_, outer.reverse, ?_, hchain, ?_, ?_, ?_⟩
  · rw [Path.foldersAround, hbeginnings, List.dropLast_concat, List.reverse_append]
  · by_cases hnil : front = []
    · exact .inl ⟨hempty.mpr hnil, by simp [outer, hnil, Path.beginningsAfter]⟩
    · obtain ⟨beginning, shorter, dots, houter, hne, hdots, hfrontSteps⟩ :=
        exists_beginning hfront hnil
      exact .inr ⟨beginning, shorter, dots, houter, hne, hdots, hsteps ▸ hfrontSteps⟩
  · rwa [hjoin]
  · rw [hjoin, ← Path.separated_append, ← Bool.not_eq_true, Path.endsWith_separated hlast]
    rintro ⟨rfl, -⟩
    simp [Path.part?] at hn

end File

end FileTree

end Blueprint
