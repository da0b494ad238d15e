import Blueprint.Files.Path
import Blueprint.Proofs.Text.Cutting

/-!
# Paths of files in folders

The parts of a joined spelling are those of the folder and one more for the file, however the folder
is spelled: empty, with separators at its end or between its parts, with dots in it. Only a separator
that is put behind an empty folder makes a difference, since it stands for the root.
-/

namespace Blueprint

/-- A text that stands for one name wherever it is in a path. -/
structure PathPart.IsName (n : String) : Prop where
  uncut : '/' ∉ n.toList
  ne_empty : n ≠ ""
  ne_here : n ≠ "."
  ne_up : n ≠ ".."

theorem PathPart.IsName.startsWith {n : String} (h : PathPart.IsName n) : n.startsWith "/" = false := by
  rw [String.startsWith_string_eq_false_iff]
  exact fun hbegin => h.uncut (hbegin.subset (by simp))

theorem PathPart.isName_replicate {c : Char} {k : Nat} (hc : c ≠ '/') (hk : 2 < k) :
    PathPart.IsName (String.ofList (List.replicate k c)) := by
  have hne : ∀ text : String, text.toList.length ≠ k → String.ofList (List.replicate k c) ≠ text := by
    rintro text hlength rfl
    exact hlength (by simp)
  refine ⟨?_, hne "" ?_, hne "." ?_, hne ".." ?_⟩
  · simp [hc.symm]
  all_goals
    simp
    omega

namespace Path

/-- The parts that a spelling adds to a path when it stands behind a separator. -/
def behind (spelling : String) : Path :=
  (Text.pieces (· == '/') spelling.toList).filterMap (part? false)

/-- The parts of what stands in front of a separator. -/
def before (folder : String) : Path :=
  if folder = "" then [.root] else ofText folder

/-- The path without its last part; the root and the path without parts are in no folder. -/
def parent? (p : Path) : Option Path :=
  match p.getLast? with
  | none | some .root => none
  | some _ => some p.dropLast

@[simp] theorem behind_empty : behind "" = [] := rfl

@[simp] theorem before_empty : before "" = [.root] := rfl

theorem before_of_ne {folder : String} (h : folder ≠ "") : before folder = ofText folder :=
  if_neg h

theorem parent?_append_name (p : Path) (n : String) : parent? (p ++ [.name n]) = some p := by
  simp [parent?]

theorem ofText_append_separator (folder spelling : String) :
    ofText (folder ++ "/" ++ spelling) = before folder ++ behind spelling := by
  have hcut : Text.pieces (· == '/') (folder ++ "/" ++ spelling).toList =
      Text.pieces (· == '/') folder.toList ++ Text.pieces (· == '/') spelling.toList := by
    have hsep : ('/' == '/') = true := rfl
    simp [Text.pieces_append_cons (p := (· == '/')) hsep]
  by_cases hfolder : folder = ""
  · subst hfolder
    have hne := Text.pieces_ne_nil (· == '/') spelling.toList
    rw [ofText, hcut]
    simp [Text.pieces, behind, hne]
  · rw [before_of_ne hfolder, ofText, hcut, ofText, behind]
    cases hpieces : Text.pieces (· == '/') folder.toList with
    | nil => exact absurd hpieces (Text.pieces_ne_nil _ _)
    | cons first rest =>
      cases first with
      | cons c first => simp
      | nil =>
        -- A spelling that starts with a separator has a piece behind it.
        have hrest : rest ≠ [] := by
          rintro rfl
          have hempty := Text.intercalate_pieces '/' folder.toList
          rw [hpieces] at hempty
          exact hfolder (String.toList_eq_nil_iff.mp hempty.symm)
        simp [hrest]

@[simp] theorem before_append_separator (folder : String) : before (folder ++ "/") = before folder := by
  have h := ofText_append_separator folder ""
  rw [String.append_empty, behind_empty, List.append_nil] at h
  have hne : folder ++ "/" ≠ "" := by simp
  rw [before_of_ne hne, h]

section Name

variable {n : String} (hn : PathPart.IsName n)

include hn

theorem pieces_name : Text.pieces (· == '/') n.toList = [n.toList] :=
  Text.pieces_eq_singleton fun c hc => by
    have hne : c ≠ '/' := fun h => hn.uncut (h ▸ hc)
    simpa using hne

theorem part?_name (first : Bool) : part? first n.toList = some (.name n) := by
  have hempty : n.toList ≠ [] := by simpa using hn.ne_empty
  have hhere : n.toList ≠ ['.'] := fun h => hn.ne_here (String.toList_inj.mp h)
  have hup : n.toList ≠ ['.', '.'] := fun h => hn.ne_up (String.toList_inj.mp h)
  simp [part?, hempty, hhere, hup]

theorem behind_name : behind n = [.name n] := by
  simp [behind, pieces_name hn, part?_name hn]

theorem ofText_name : ofText n = [.name n] := by
  have hempty : n.toList ≠ [] := by simpa using hn.ne_empty
  rw [ofText, pieces_name hn]
  split
  · rename_i h
    simp at h
  · rename_i h
    simp_all
  · rename_i first rest _ h
    obtain ⟨rfl, rfl⟩ : n.toList = first ∧ [] = rest := by simpa using h
    simp [part?_name hn]

theorem ofText_joinPath (folder : String) :
    ofText (joinPath folder n) = ofText folder ++ [.name n] := by
  have hroot := hn.startsWith
  by_cases hempty : folder = ""
  · subst hempty
    have hjoin : joinPath "" n = n := by simp [joinPath]
    rw [hjoin, ofText_name hn]
    rfl
  rw [← before_of_ne hempty]
  by_cases hend : folder.endsWith "/" = true
  · obtain ⟨around, hfolder⟩ : ∃ around, folder = around ++ "/" := by
      obtain ⟨around, h⟩ : "/".toList <:+ folder.toList := by
        simpa using String.Slice.endsWith_string_iff.mp hend
      exact ⟨String.ofList around, String.toList_inj.mp (by simpa using h.symm)⟩
    have hjoin : joinPath folder n = around ++ "/" ++ n := by
      rw [joinPath, hroot, hend, hfolder]
      simp
    rw [hjoin, ofText_append_separator, hfolder, before_append_separator, behind_name hn]
  · have hjoin : joinPath folder n = folder ++ "/" ++ n := by
      simp [joinPath, hroot, hempty, hend]
    rw [hjoin, ofText_append_separator, behind_name hn]

end Name

end Path

end Blueprint
