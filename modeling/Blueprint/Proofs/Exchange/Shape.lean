import Mathlib.Data.List.Nodup
import Blueprint.Exchange.Shape

/-!
# Putting structures together

A structure is read field by field. How far it has come is told by the names of the fields that have
been read: each of those has its value, and each other field has the value it starts with. When every
field that an object spells is read in this way, the order of the entries and the entries with other
keys make no difference.
-/

namespace Blueprint.Exchange

open Json (Outline)

/-- A value where the field has been read, and the one it starts with where it has not. -/
def pick {α : Type} (seen : List String) (key : String) (value initial : α) : α :=
  if key ∈ seen then value else initial

section Pick

variable {α : Type} {value initial : α} {key other : String} {seen : List String}

@[simp] theorem pick_nil : pick [] key value initial = initial := by
  simp [pick]

@[simp] theorem pick_cons_self : pick (key :: seen) key value initial = value := by
  simp [pick]

@[simp] theorem pick_cons_of_ne (h : key ≠ other) :
    pick (other :: seen) key value initial = pick seen key value initial := by
  simp [pick, h]

end Pick

section Bind

variable {α β : Type}

@[simp] theorem pure_eq_ok (a : α) : (pure a : Read α) = .ok a := rfl

@[simp] theorem ok_bind (a : α) (f : α → Read β) : (Except.ok a >>= f) = f a := rfl

@[simp] theorem error_bind (fault : Fault) (f : α → Read β) :
    ((Except.error fault : Read α) >>= f) = .error fault := rfl

end Bind

namespace Shape

variable {σ : Type} {shape : Shape σ}

/-- A way to put a structure together: what it is when some of its fields have been read, and which
values spell each field. -/
structure Assembly (shape : Shape σ) where
  known : List String → σ
  Spells : String → Outline → Prop
  known_nil : known [] = shape.blank
  read_known : ∀ field ∈ shape.fields, ∀ seen v, Spells field.name v →
    field.read v (known seen) = .ok (known (field.name :: seen))

def knows (shape : Shape σ) (key : String) : Bool :=
  (shape.fields.find? (·.name == key)).isSome

def knownKeys (shape : Shape σ) (entries : List (String × Outline)) : List String :=
  (entries.map Prod.fst).filter shape.knows

/-- Entries whose keys are texts, as they stand in an object. -/
def keyed (entries : List (String × Outline)) : List (Outline × Outline) :=
  entries.map fun entry => (.text (some entry.1), entry.2)

/-- Every entry spells a field, or has another key and a value that is well formed. -/
def Assembly.Fits (assembly : shape.Assembly) (entries : List (String × Outline)) : Prop :=
  ∀ entry ∈ entries,
    if shape.knows entry.1 then assembly.Spells entry.1 entry.2 else entry.2.isWhole = true

section Entries

variable {key : String} {v : Outline} {rest : List (Outline × Outline)}
  {seen : List String} {value : σ}

theorem readEntries_known {field : Field σ}
    (hfield : shape.fields.find? (·.name == key) = some field) (hseen : key ∉ seen) :
    shape.readEntries ((.text (some key), v) :: rest) seen value =
      field.read v value >>= fun value => shape.readEntries rest (key :: seen) value := by
  rw [readEntries, hfield]
  simp [hseen]

theorem readEntries_unknown (hfield : shape.fields.find? (·.name == key) = none)
    (hwhole : v.isWhole = true) :
    shape.readEntries ((.text (some key), v) :: rest) seen value =
      shape.readEntries rest seen value := by
  rw [readEntries, hfield]
  simp [hwhole]

end Entries

theorem readEntries_append (shape : Shape σ) (front back : List (Outline × Outline))
    (seen : List String) (value : σ) :
    shape.readEntries (front ++ back) seen value =
      shape.readEntries front seen value >>= fun read => shape.readEntries back read.1 read.2 := by
  fun_induction shape.readEntries front seen value with
  | case1 => rfl
  | case2 key v rest seen value field hfield hseen => simp [readEntries, hfield, hseen]
  | case3 key v rest seen value field hfield hseen ih =>
    rw [List.cons_append, readEntries_known hfield hseen, bind_assoc]
    exact bind_congr ih
  | case4 key v rest seen value hfield hwhole ih =>
    rw [List.cons_append, readEntries_unknown hfield hwhole, ih]
  | case5 key v rest seen value hfield hwhole => simp [readEntries, hfield, hwhole]
  | case6 entry rest seen value hkey =>
    rw [List.cons_append, readEntries.eq_3 _ _ _ _ _ hkey]
    rfl

theorem Assembly.readEntries_keyed (assembly : shape.Assembly) {entries : List (String × Outline)}
    (hfits : assembly.Fits entries) (seen : List String)
    (hnodup : ((shape.knownKeys entries).reverse ++ seen).Nodup) :
    shape.readEntries (keyed entries) seen (assembly.known seen) =
      .ok ((shape.knownKeys entries).reverse ++ seen,
        assembly.known ((shape.knownKeys entries).reverse ++ seen)) := by
  -- The fields read so far grow with each entry, so the value is what is known of those read before.
  induction entries generalizing seen with
  | nil => rfl
  | cons entry entries ih =>
    obtain ⟨key, v⟩ := entry
    obtain ⟨hentry, hrest⟩ := List.forall_mem_cons.mp hfits
    rw [keyed, List.map_cons, ← keyed]
    cases hfield : shape.fields.find? (·.name == key) with
    | none =>
      have hknows : shape.knows key = false := by rw [knows, hfield]; rfl
      have hkeys : shape.knownKeys ((key, v) :: entries) = shape.knownKeys entries := by
        simp [knownKeys, hknows]
      rw [hkeys] at hnodup ⊢
      rw [readEntries_unknown hfield (by simpa [hknows] using hentry)]
      exact ih hrest seen hnodup
    | some field =>
      have hknows : shape.knows key = true := by rw [knows, hfield]; rfl
      have hkeys : (shape.knownKeys ((key, v) :: entries)).reverse ++ seen =
          (shape.knownKeys entries).reverse ++ key :: seen := by
        simp [knownKeys, hknows]
      obtain rfl : field.name = key := by simpa using List.find?_some hfield
      rw [hkeys] at hnodup ⊢
      have hseen : field.name ∉ seen :=
        (List.nodup_cons.mp (List.nodup_append.mp hnodup).2.1).1
      rw [readEntries_known hfield hseen, assembly.read_known field (List.mem_of_find?_eq_some hfield)
        seen v (by simpa [hknows] using hentry)]
      exact ih hrest (field.name :: seen) hnodup

section Objects

variable {entries : List (String × Outline)}

theorem Assembly.readEntries_blank (assembly : shape.Assembly) (hfits : assembly.Fits entries)
    (hnodup : (shape.knownKeys entries).Nodup) :
    shape.readEntries (keyed entries) [] shape.blank =
      .ok ((shape.knownKeys entries).reverse,
        assembly.known (shape.knownKeys entries).reverse) := by
  have hread := assembly.readEntries_keyed hfits [] (by simpa using hnodup)
  rwa [assembly.known_nil, List.append_nil] at hread

theorem firstMissing?_eq_none {seen : List String} (hseen : shape.knownKeys entries ⊆ seen)
    (hrequired : ∀ field ∈ shape.fields, field.required = true →
      field.name ∈ entries.map Prod.fst) : shape.firstMissing? seen = none := by
  rw [firstMissing?, List.find?_eq_none]
  intro field hfield
  by_cases hneeded : field.required = true
  · have hknows : shape.knows field.name = true :=
      List.find?_isSome.mpr ⟨field, hfield, beq_self_eq_true _⟩
    have hname : field.name ∈ seen :=
      hseen (List.mem_filter.mpr ⟨hrequired field hfield hneeded, hknows⟩)
    simp [hname]
  · simp [hneeded]

/-- An object whose entries fit is read as what is known when their fields are, if all required ones
are among them. -/
theorem Assembly.read_object (assembly : shape.Assembly) (hfits : assembly.Fits entries)
    (hnodup : (shape.knownKeys entries).Nodup)
    (hrequired : ∀ field ∈ shape.fields, field.required = true →
      field.name ∈ entries.map Prod.fst) :
    shape.read (.object (keyed entries) true) =
      .ok (assembly.known (shape.knownKeys entries).reverse) := by
  have hmissing : shape.firstMissing? (shape.knownKeys entries).reverse = none :=
    firstMissing?_eq_none (fun _ hk => List.mem_reverse.mpr hk) hrequired
  rw [read, assembly.readEntries_blank hfits hnodup]
  simp [hmissing]

/-- When only the last field of an object remains to be read, the object is read as that field is. -/
theorem Assembly.read_object_concat (assembly : shape.Assembly) {key : String} {field : Field σ}
    (v : Outline) (hfield : shape.fields.find? (·.name == key) = some field)
    (hfits : assembly.Fits entries) (hnodup : (shape.knownKeys entries).Nodup)
    (hlast : key ∉ entries.map Prod.fst)
    (hrequired : ∀ other ∈ shape.fields, other.required = true →
      other.name ∈ entries.map Prod.fst) :
    shape.read (.object (keyed (entries ++ [(key, v)])) true) =
      field.read v (assembly.known (shape.knownKeys entries).reverse) := by
  have hmissing : shape.firstMissing? (key :: (shape.knownKeys entries).reverse) = none :=
    firstMissing?_eq_none (fun _ hk => List.mem_cons_of_mem _ (List.mem_reverse.mpr hk)) hrequired
  have hseen : key ∉ (shape.knownKeys entries).reverse := fun h =>
    hlast (List.mem_of_mem_filter (List.mem_reverse.mp h))
  rw [read, keyed, List.map_append, ← keyed, readEntries_append,
    assembly.readEntries_blank hfits hnodup, ok_bind, List.map_singleton,
    readEntries_known hfield hseen]
  cases field.read v (assembly.known (shape.knownKeys entries).reverse) with
  | error fault => rfl
  | ok value => simp [readEntries, hmissing]

end Objects

end Shape
end Blueprint.Exchange
