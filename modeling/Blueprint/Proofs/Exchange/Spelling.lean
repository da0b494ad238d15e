import Mathlib.Data.List.Forall2
import Blueprint.Record.Kind
import Blueprint.Proofs.Effects
import Blueprint.Proofs.Exchange.Shape

/-!
# The spellings of a structure

A structure has many spellings. As an object it has its fields in any order, among other keys, and a
field that holds its default can be left out. As a list it has its fields in the order in which they
are declared, and those at the end that hold their defaults can be left out. A spelling that leaves
out a field without a default, or gives a field twice, stands for no structure, wherever it is nested.

The spellings are told field by field, apart from how a reader goes through them. A reader that agrees
with them field by field reads each spelling as what it stands for and refuses each faulty one.
-/

namespace Blueprint.Exchange

open Json (Outline)

structure Slot (σ : Type) where
  name : String
  /-- The field cannot be left out. -/
  required : Bool
  /-- The value spells what the structure has in the field. -/
  Spells : σ → Outline → Prop
  /-- The structure has in the field what a spelling without it stands for. -/
  Default : σ → Prop
  /-- The value has a part that stands for no structure. -/
  Faulty : Outline → Prop

/-- The field that holds a part of the structure. It is required when there is no default. -/
def Slot.of {σ τ : Type} (name : String) (part : σ → τ) (default? : Option τ)
    (Spells : τ → Outline → Prop) (Faulty : Outline → Prop) : Slot σ where
  name := name
  required := default?.isNone
  Spells a := Spells (part a)
  Default a := default? = some (part a)
  Faulty := Faulty

variable {σ : Type}

/-- The value spells a structure with these fields. -/
inductive Spelling (slots : List (Slot σ)) (a : σ) : Outline → Prop
  | object {entries : List (String × Outline)}
    (once : ((entries.map Prod.fst).filter (· ∈ slots.map Slot.name)).Nodup)
    (spells : ∀ slot ∈ slots, ∀ v, (slot.name, v) ∈ entries → slot.Spells a v)
    (other : ∀ entry ∈ entries, entry.1 ∉ slots.map Slot.name → entry.2.isWhole = true)
    (absent : ∀ slot ∈ slots, slot.name ∉ entries.map Prod.fst →
      slot.required = false ∧ slot.Default a) :
    Spelling slots a (.object (Shape.keyed entries) true)
  | list {present absent : List (Slot σ)} {items : List Outline}
    (slots_eq : slots = present ++ absent)
    (spells : List.Forall₂ (fun slot v => slot.Spells a v) present items)
    (default : ∀ slot ∈ absent, slot.required = false ∧ slot.Default a) :
    Spelling slots a (.list items true)

/-- The value lacks a required field or gives a field twice, or one of its fields is faulty. -/
inductive Refused (slots : List (Slot σ)) : Outline → Prop
  | missing {slot : Slot σ} {entries : List (Outline × Outline)} {closed : Bool}
    (mem : slot ∈ slots) (required : slot.required = true)
    (absent : ∀ v, (.text (some slot.name), v) ∉ entries) :
    Refused slots (.object entries closed)
  | repeated {slot : Slot σ} {front middle back : List (Outline × Outline)} {v w : Outline}
    {closed : Bool} (mem : slot ∈ slots) :
    Refused slots (.object
      (front ++ (.text (some slot.name), v) :: middle ++ (.text (some slot.name), w) :: back) closed)
  | entry {slot : Slot σ} {entries : List (Outline × Outline)} {v : Outline} {closed : Bool}
    (mem : slot ∈ slots) (given : (.text (some slot.name), v) ∈ entries) (faulty : slot.Faulty v) :
    Refused slots (.object entries closed)
  | short {before after : List (Slot σ)} {slot : Slot σ} {items : List Outline} {closed : Bool}
    (slots_eq : slots = before ++ slot :: after) (required : slot.required = true)
    (length_le : items.length ≤ before.length) :
    Refused slots (.list items closed)
  | item {before after : List (Slot σ)} {slot : Slot σ} {front back : List Outline} {v : Outline}
    {closed : Bool} (slots_eq : slots = before ++ slot :: after)
    (length_eq : front.length = before.length) (faulty : slot.Faulty v) :
    Refused slots (.list (front ++ v :: back) closed)

section Values

variable {τ : Type}

def IsText (s : String) (v : Outline) : Prop :=
  v = .text (some s)

def IsText? : Option String → Outline → Prop
  | some s, v => IsText s v
  | none, v => v = .null

/-- A kind is its name, or an object with the name as its only key and nothing as the value. -/
def IsKind (k : ClassKind) (v : Outline) : Prop :=
  IsText k.name v ∨ v = .object (Shape.keyed [(k.name, .null)]) true

def IsNumber (x : Float) (v : Outline) : Prop :=
  ∃ n, v = .number n ∧ n.toFloat? = some x

/-- The items of a list are spelled one by one. -/
def IsList (Spells : τ → Outline → Prop) (as : List τ) (v : Outline) : Prop :=
  ∃ items, v = .list items true ∧ List.Forall₂ Spells as items

def HasFaulty (Faulty : Outline → Prop) (v : Outline) : Prop :=
  ∃ items closed, v = .list items closed ∧ ∃ item ∈ items, Faulty item

/-- No value of this sort is faulty. -/
def Faultless (_ : Outline) : Prop :=
  False

end Values

namespace Shape

variable {shape : Shape σ}

section Entries

variable {entries front back : List (Outline × Outline)} {seen found : List String} {a b : σ}
  {key : String}

/-- Reading entries keeps the names that were seen and adds only keys of the entries. -/
theorem found_of_readEntries (h : shape.readEntries entries seen a = .ok (found, b)) :
    seen ⊆ found ∧ ∀ key ∈ found, key ∈ seen ∨ ∃ v, (.text (some key), v) ∈ entries := by
  fun_induction shape.readEntries entries seen a with
  | case1 seen a =>
    obtain ⟨rfl, rfl⟩ : seen = found ∧ a = b := by simpa using h
    exact ⟨List.Subset.refl _, fun key hkey => .inl hkey⟩
  | case2 => simp at h
  | case3 key v rest seen a field hfield hseen ih =>
    obtain ⟨c, -, hrest⟩ := bind_eq_ok_iff.mp h
    obtain ⟨hsubset, hfound⟩ := ih c hrest
    refine ⟨fun k hk => hsubset (List.mem_cons_of_mem _ hk), fun k hk => ?_⟩
    rcases hfound k hk with hk | ⟨w, hw⟩
    · rcases List.mem_cons.mp hk with rfl | hk
      · exact .inr ⟨v, List.mem_cons_self⟩
      · exact .inl hk
    · exact .inr ⟨w, List.mem_cons_of_mem _ hw⟩
  | case4 key v rest seen a hfield hwhole ih =>
    obtain ⟨hsubset, hfound⟩ := ih h
    refine ⟨hsubset, fun k hk => (hfound k hk).imp_right ?_⟩
    exact Exists.imp fun w hw => List.mem_cons_of_mem _ hw
  | case5 => simp at h
  | case6 => simp at h

/-- An entry with the name of a field is read once all entries before it are, if none of them has the
same name. -/
theorem read_of_readEntries {field : Field σ} {v : Outline}
    (hfield : shape.fields.find? (·.name == key) = some field)
    (h : shape.readEntries (front ++ (.text (some key), v) :: back) seen a = .ok (found, b)) :
    ∃ before c d, shape.readEntries front seen a = .ok (before, c) ∧ key ∉ before ∧
      field.read v c = .ok d ∧ shape.readEntries back (key :: before) d = .ok (found, b) := by
  rw [readEntries_append] at h
  obtain ⟨⟨before, c⟩, hfront, hback⟩ := bind_eq_ok_iff.mp h
  by_cases hkey : key ∈ before
  · simp [readEntries, hfield, hkey] at hback
  · rw [readEntries_known hfield hkey] at hback
    obtain ⟨d, hd, hback⟩ := bind_eq_ok_iff.mp hback
    exact ⟨before, c, d, hfront, hkey, hd, hback⟩

/-- An object that is read has been read to its end, and no required field is missing in it. -/
theorem read_object_eq_ok {closed : Bool} (h : shape.read (.object entries closed) = .ok b) :
    ∃ found, shape.readEntries entries [] shape.blank = .ok (found, b) ∧
      shape.firstMissing? found = none := by
  rw [read] at h
  obtain ⟨⟨found, c⟩, hread, h⟩ := bind_eq_ok_iff.mp h
  cases closed with
  | false => simp at h
  | true =>
    cases hmissing : shape.firstMissing? found with
    | some field => simp [hmissing] at h
    | none =>
      obtain rfl : c = b := by simpa [hmissing] using h
      exact ⟨found, hread, hmissing⟩

end Entries

section Items

variable {closed : Bool} {fields before after : List (Field σ)} {field : Field σ} {index : Nat}
  {a b : σ}

theorem read_of_readItems {front back : List Outline} {v : Outline}
    (hlength : front.length = before.length)
    (h : shape.readItems closed (before ++ field :: after) index (front ++ v :: back) a = .ok b) :
    ∃ c d, field.read v c = .ok d := by
  induction before generalizing front index a with
  | nil =>
    obtain rfl := List.length_eq_zero_iff.mp hlength
    rw [List.nil_append, List.nil_append, readItems] at h
    obtain ⟨d, hd, -⟩ := bind_eq_ok_iff.mp h
    exact ⟨a, d, hd⟩
  | cons other before ih =>
    obtain ⟨w, front, rfl⟩ := List.exists_cons_of_length_eq_add_one hlength
    rw [List.cons_append, List.cons_append, readItems] at h
    obtain ⟨c, -, hrest⟩ := bind_eq_ok_iff.mp h
    exact ih (by simpa using hlength) hrest

theorem length_lt_of_readItems {items : List Outline} (hrequired : field.required = true)
    (h : shape.readItems closed (before ++ field :: after) index items a = .ok b) :
    before.length < items.length := by
  induction before generalizing items index a with
  | nil =>
    cases items with
    | nil => cases closed <;> simp [readItems, hrequired] at h
    | cons v items => simp
  | cons other before ih =>
    cases items with
    | nil =>
      have hnone : ∀ index, shape.readItems closed (before ++ field :: after) index [] a ≠ .ok b :=
        fun index hrest => absurd (ih hrest) (by simp)
      cases closed with
      | false => simp [readItems] at h
      | true =>
        rw [List.cons_append, readItems] at h
        cases hother : other.required with
        | true => simp [hother] at h
        | false => exact absurd (by simpa [hother] using h) (hnone (index + 1))
    | cons v items =>
      rw [List.cons_append, readItems] at h
      obtain ⟨c, -, hrest⟩ := bind_eq_ok_iff.mp h
      simpa using ih hrest

/-- Items that spell the fields at the front are read one by one, and the other fields keep the
values they have when they need not be given. -/
theorem Assembly.readItems_spelled (assembly : shape.Assembly) {present absent : List (Field σ)}
    {items : List Outline} (hmem : present ⊆ shape.fields)
    (hspells : List.Forall₂ (fun field v => assembly.Spells field.name v) present items)
    (habsent : ∀ field ∈ absent, field.required = false) (index : Nat) (seen : List String) :
    shape.readItems true (present ++ absent) index items (assembly.known seen) =
      .ok (assembly.known ((present.map (·.name)).reverse ++ seen)) := by
  induction hspells generalizing index seen with
  | nil =>
    induction absent generalizing index with
    | nil => simp [readItems]
    | cons field absent ih =>
      obtain ⟨hfield, hrest⟩ := List.forall_mem_cons.mp habsent
      simpa [readItems, hfield] using ih hrest (index + 1)
  | @cons field v present items hv hspells ih =>
    obtain ⟨hfield, hrest⟩ := List.cons_subset.mp hmem
    rw [List.cons_append, readItems, assembly.read_known field hfield seen v hv, ok_bind,
      ih hrest (index + 1) (field.name :: seen)]
    simp

end Items

end Shape

/-- The field of a shape is the slot of a spelling: it has the name of the slot, can be left out when
the slot can, and is read from no value that is faulty there. -/
structure Field.Serves (field : Field σ) (slot : Slot σ) : Prop where
  name_eq : field.name = slot.name
  required_eq : field.required = slot.required
  read_ne : ∀ v, slot.Faulty v → ∀ a b, field.read v a ≠ .ok b

/-- The fields of the shape are the slots, and what spells the slots puts the structure together. -/
structure Shape.Serves (shape : Shape σ) (slots : List (Slot σ)) : Prop where
  fields : List.Forall₂ Field.Serves shape.fields slots
  nodup : (slots.map Slot.name).Nodup
  exists_assembly : ∀ a, ∃ assembly : shape.Assembly,
    (∀ slot ∈ slots, ∀ v, slot.Spells a v → assembly.Spells slot.name v) ∧
      ∀ seen, (∀ slot ∈ slots, slot.name ∉ seen → slot.Default a) → assembly.known seen = a

namespace Field

variable {fields : List (Field σ)} {slots : List (Slot σ)}

theorem map_name (h : List.Forall₂ Serves fields slots) :
    fields.map (·.name) = slots.map Slot.name := by
  rw [← List.forall₂_eq_eq_eq, List.forall₂_map_left_iff, List.forall₂_map_right_iff]
  exact h.imp fun _ _ hserves => hserves.name_eq

theorem exists_slot (h : List.Forall₂ Serves fields slots) :
    ∀ field ∈ fields, ∃ slot ∈ slots, field.Serves slot := by
  induction h with
  | nil => simp
  | cons hhead _ ih =>
    refine List.forall_mem_cons.mpr ⟨⟨_, List.mem_cons_self, hhead⟩, fun field hfield => ?_⟩
    obtain ⟨slot, hslot, hserves⟩ := ih field hfield
    exact ⟨slot, List.mem_cons_of_mem _ hslot, hserves⟩

theorem exists_find? (h : List.Forall₂ Serves fields slots) (hnodup : (slots.map Slot.name).Nodup)
    {slot : Slot σ} (hslot : slot ∈ slots) :
    ∃ field ∈ fields, fields.find? (·.name == slot.name) = some field ∧ field.Serves slot := by
  induction h with
  | nil => simp at hslot
  | @cons field head fields slots hhead hrest ih =>
    obtain ⟨hname, hnodup⟩ := List.nodup_cons.mp hnodup
    rcases List.mem_cons.mp hslot with rfl | hslot
    · exact ⟨field, List.mem_cons_self, by simp [hhead.name_eq], hhead⟩
    · obtain ⟨other, hother, hfind, hserves⟩ := ih hnodup hslot
      have hne : field.name ≠ slot.name := by
        rw [hhead.name_eq]
        exact fun heq => hname (heq ▸ List.mem_map_of_mem hslot)
      exact ⟨other, List.mem_cons_of_mem _ hother, by simp [hne, hfind], hserves⟩

theorem exists_append {present absent : List (Slot σ)}
    (h : List.Forall₂ Serves fields (present ++ absent)) :
    ∃ front back, fields = front ++ back ∧ List.Forall₂ Serves front present ∧
      List.Forall₂ Serves back absent :=
  ⟨_, _, (List.take_append_drop present.length fields).symm, List.forall₂_take_append _ _ _ h,
    List.forall₂_drop_append _ _ _ h⟩

end Field

namespace Shape.Serves

variable {shape : Shape σ} {slots : List (Slot σ)} {a : σ} {v : Outline}

theorem knows_iff (h : shape.Serves slots) {key : String} :
    shape.knows key = true ↔ key ∈ slots.map Slot.name := by
  rw [← Field.map_name h.fields]
  simp [knows]

theorem knownKeys_eq (h : shape.Serves slots) (entries : List (String × Outline)) :
    shape.knownKeys entries =
      (entries.map Prod.fst).filter (· ∈ slots.map Slot.name) := by
  refine List.filter_congr fun key _ => ?_
  rw [Bool.eq_iff_iff, h.knows_iff, decide_eq_true_iff]

theorem read_object_of_spelling (h : shape.Serves slots) {entries : List (String × Outline)}
    (once : ((entries.map Prod.fst).filter (· ∈ slots.map Slot.name)).Nodup)
    (spells : ∀ slot ∈ slots, ∀ v, (slot.name, v) ∈ entries → slot.Spells a v)
    (other : ∀ entry ∈ entries, entry.1 ∉ slots.map Slot.name → entry.2.isWhole = true)
    (absent : ∀ slot ∈ slots, slot.name ∉ entries.map Prod.fst →
      slot.required = false ∧ slot.Default a) :
    shape.read (.object (keyed entries) true) = .ok a := by
  obtain ⟨assembly, hspells, hknown⟩ := h.exists_assembly a
  have hfits : assembly.Fits entries := by
    intro entry hentry
    split
    · obtain ⟨slot, hslot, hname⟩ := List.mem_map.mp (h.knows_iff.mp ‹_›)
      rw [← hname]
      exact hspells slot hslot entry.2 (spells slot hslot entry.2 (hname ▸ hentry))
    · exact other entry hentry fun hkey => ‹¬_› (h.knows_iff.mpr hkey)
  have hrequired : ∀ field ∈ shape.fields, field.required = true →
      field.name ∈ entries.map Prod.fst := by
    intro field hfield hneeded
    obtain ⟨slot, hslot, hserves⟩ := Field.exists_slot h.fields field hfield
    by_contra hname
    have hoptional := (absent slot hslot (hserves.name_eq ▸ hname)).1
    rw [← hserves.required_eq, hneeded] at hoptional
    exact absurd hoptional (by decide)
  rw [assembly.read_object hfits (by rwa [h.knownKeys_eq]) hrequired, hknown]
  intro slot hslot hseen
  refine (absent slot hslot fun hkey => hseen ?_).2
  rw [List.mem_reverse, h.knownKeys_eq, List.mem_filter]
  exact ⟨hkey, by simpa using ⟨slot, hslot, rfl⟩⟩

theorem read_list_of_spelling (h : shape.Serves slots) {present absent : List (Slot σ)}
    {items : List Outline} (slots_eq : slots = present ++ absent)
    (spells : List.Forall₂ (fun slot v => slot.Spells a v) present items)
    (default : ∀ slot ∈ absent, slot.required = false ∧ slot.Default a) :
    shape.read (.list items true) = .ok a := by
  obtain ⟨assembly, hspells, hknown⟩ := h.exists_assembly a
  subst slots_eq
  obtain ⟨front, back, hfields, hfront, hback⟩ := Field.exists_append h.fields
  have hitems : List.Forall₂ (fun field v => assembly.Spells field.name v) front items := by
    have hpresent := ((List.forall₂_and_left present items).mpr ⟨fun slot hslot =>
      List.mem_append_left absent hslot, spells⟩).imp fun slot v hv => hspells slot hv.1 v hv.2
    rw [← List.forall₂_map_left_iff (R := assembly.Spells)] at hpresent ⊢
    rwa [Field.map_name hfront]
  have hoptional : ∀ field ∈ back, field.required = false := by
    intro field hfield
    obtain ⟨slot, hslot, hserves⟩ := Field.exists_slot hback field hfield
    rw [hserves.required_eq]
    exact (default slot hslot).1
  rw [read, ← assembly.known_nil, hfields, assembly.readItems_spelled (by simp [hfields]) hitems
    hoptional, Field.map_name hfront, hknown]
  intro slot hslot hseen
  rcases List.mem_append.mp hslot with hslot | hslot
  · exact absurd (by simpa using ⟨slot, hslot, rfl⟩) hseen
  · exact (default slot hslot).2

theorem read_of_spelling (h : shape.Serves slots) (hv : Spelling slots a v) :
    shape.read v = .ok a := by
  cases hv with
  | object once spells other absent => exact h.read_object_of_spelling once spells other absent
  | list slots_eq spells default => exact h.read_list_of_spelling slots_eq spells default

theorem read_ne_ok (h : shape.Serves slots) (hv : Refused slots v) : shape.read v ≠ .ok a := by
  intro hread
  cases hv with
  | @missing slot entries closed hslot hrequired habsent =>
    obtain ⟨found, hentries, hmissing⟩ := read_object_eq_ok hread
    obtain ⟨field, hfield, -, hserves⟩ := Field.exists_find? h.fields h.nodup hslot
    have hseen : slot.name ∈ found := by
      have hneeded := List.find?_eq_none.mp hmissing field hfield
      simpa [hserves.required_eq, hrequired, hserves.name_eq] using hneeded
    rcases (found_of_readEntries hentries).2 slot.name hseen with hnil | ⟨v, hv⟩
    · simp at hnil
    · exact habsent v hv
  | @repeated slot front middle back v w closed hslot =>
    obtain ⟨found, hentries, -⟩ := read_object_eq_ok hread
    obtain ⟨field, -, hfield, -⟩ := Field.exists_find? h.fields h.nodup hslot
    rw [List.append_assoc, List.cons_append] at hentries
    obtain ⟨before, -, d, -, -, -, hrest⟩ := read_of_readEntries hfield hentries
    obtain ⟨between, _, _, hmiddle, hkey, -⟩ := read_of_readEntries hfield hrest
    exact hkey ((found_of_readEntries hmiddle).1 List.mem_cons_self)
  | @entry slot entries v closed hslot hgiven hfaulty =>
    obtain ⟨found, hentries, -⟩ := read_object_eq_ok hread
    obtain ⟨field, -, hfield, hserves⟩ := Field.exists_find? h.fields h.nodup hslot
    obtain ⟨front, back, rfl⟩ := List.append_of_mem hgiven
    obtain ⟨-, c, d, -, -, hd, -⟩ := read_of_readEntries hfield hentries
    exact hserves.read_ne v hfaulty c d hd
  | @short before after slot items closed slots_eq hrequired hlength =>
    subst slots_eq
    obtain ⟨front, back, hfields, hfront, hback⟩ := Field.exists_append h.fields
    obtain ⟨field, rest, hserves, -, rfl⟩ := List.forall₂_cons_right_iff.mp hback
    rw [read, hfields] at hread
    have hlt := length_lt_of_readItems (hserves.required_eq.trans hrequired) hread
    rw [hfront.length_eq] at hlt
    omega
  | @item before after slot front back v closed slots_eq hlength hfaulty =>
    subst slots_eq
    obtain ⟨fields, rest, hfields, hbefore, hafter⟩ := Field.exists_append h.fields
    obtain ⟨field, rest, hserves, -, rfl⟩ := List.forall₂_cons_right_iff.mp hafter
    rw [read, hfields] at hread
    obtain ⟨c, d, hd⟩ := read_of_readItems (hlength.trans hbefore.length_eq.symm) hread
    exact hserves.read_ne v hfaulty c d hd

end Shape.Serves

end Blueprint.Exchange
