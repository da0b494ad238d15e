import Blueprint.Exchange.Record
import Blueprint.Proofs.Exchange.Shape

/-!
# Reading members back

Every member is put together from its fields as they are written, so reading what is written for a
member gives the member. A text that is absent is not written, and a field that is not written keeps
the value it starts with.
-/

namespace Blueprint.Exchange

open Json (Outline)

theorem outlines_eq_map (items : List Json) : Json.outlines items = items.map Json.outline := by
  induction items with
  | nil => rfl
  | cons v items ih => rw [Json.outlines, ih, List.map_cons]

theorem entryOutlines_eq_keyed (entries : List (String × Json)) :
    Json.entryOutlines entries = Shape.keyed (entries.map (Prod.map id Json.outline)) := by
  induction entries with
  | nil => rfl
  | cons entry entries ih => rw [Json.entryOutlines, ih]; rfl

theorem listOf_outline {α : Type} {item : Outline → Read α} {write : α → Json}
    (h : ∀ a, item (write a).outline = .ok a) (as : List α) :
    listOf item (Json.list (as.map write)).outline = .ok as := by
  have hitems : ((as.map write).map Json.outline).mapM item = .ok as := by
    induction as with
    | nil => rfl
    | cons a as ih =>
      rw [List.map_cons, List.map_cons, List.mapM_cons, h, ih]
      rfl
  rw [Json.outline, outlines_eq_map, listOf, hitems]
  rfl

theorem text_outline (s : String) : text (Json.text s).outline = .ok s := rfl

theorem text?_outline (s : String) : text? (Json.text s).outline = .ok (some s) := rfl

theorem listOf_ofTexts (texts : List String) : listOf text (Json.ofTexts texts).outline = .ok texts :=
  listOf_outline (fun _ => rfl) texts

def signalAssembly (s : Signal) : signal.Assembly where
  known seen := ⟨pick seen "name" s.name "", pick seen "params" s.params []⟩
  Spells
    | "name", v => text v = .ok s.name
    | "params", v => listOf text v = .ok s.params
    | _, _ => False
  known_nil := by simp [signal]
  read_known := by
    simp only [signal, List.forall_mem_cons]
    refine ⟨?_, ?_, by simp⟩ <;> intro seen v h <;> simp [h]

def constantAssembly (c : Constant) : constant.Assembly where
  known seen := ⟨pick seen "name" c.name "", pick seen "type" c.type "", pick seen "value" c.value ""⟩
  Spells
    | "name", v => text v = .ok c.name
    | "type", v => text v = .ok c.type
    | "value", v => text v = .ok c.value
    | _, _ => False
  known_nil := by simp [constant]
  read_known := by
    simp only [constant, List.forall_mem_cons]
    refine ⟨?_, ?_, ?_, by simp⟩ <;> intro seen v h <;> simp [h]

def enumerationAssembly (e : Enumeration) : enumeration.Assembly where
  known seen := ⟨pick seen "name" e.name "", pick seen "values" e.values []⟩
  Spells
    | "name", v => text v = .ok e.name
    | "values", v => listOf text v = .ok e.values
    | _, _ => False
  known_nil := by simp [enumeration]
  read_known := by
    simp only [enumeration, List.forall_mem_cons]
    refine ⟨?_, ?_, by simp⟩ <;> intro seen v h <;> simp [h]

def propertyAssembly (p : Property) : property.Assembly where
  known seen :=
    ⟨pick seen "name" p.name "", pick seen "type" p.type "", pick seen "default" p.default none⟩
  Spells
    | "name", v => text v = .ok p.name
    | "type", v => text v = .ok p.type
    | "default", v => text? v = .ok p.default
    | _, _ => False
  known_nil := by simp [property]
  read_known := by
    simp only [property, List.forall_mem_cons]
    refine ⟨?_, ?_, ?_, by simp⟩ <;> intro seen v h <;> simp [h]

def functionAssembly (f : Function) : function.Assembly where
  known seen :=
    { name := pick seen "name" f.name ""
      params := pick seen "params" f.params []
      returnType := pick seen "returnType" f.returnType ""
      body := pick seen "code" f.body none }
  Spells
    | "name", v => text v = .ok f.name
    | "params", v => listOf text v = .ok f.params
    | "returnType", v => text v = .ok f.returnType
    | "code", v => text? v = .ok f.body
    | _, _ => False
  known_nil := by simp [function]
  read_known := by
    simp only [function, List.forall_mem_cons]
    refine ⟨?_, ?_, ?_, ?_, by simp⟩ <;> intro seen v h <;> simp [h]

def componentAssembly (c : Component) : component.Assembly where
  known seen := ⟨pick seen "name" c.name "", pick seen "type" c.type ""⟩
  Spells
    | "name", v => text v = .ok c.name
    | "type", v => text v = .ok c.type
    | _, _ => False
  known_nil := by simp [component]
  read_known := by
    simp only [component, List.forall_mem_cons]
    refine ⟨?_, ?_, by simp⟩ <;> intro seen v h <;> simp [h]

namespace Shape.Assembly

variable {σ : Type} {shape : Shape σ}

/-- Every entry is written for a field and spells it. -/
def Writes (assembly : shape.Assembly) (entries : List (String × Json)) : Prop :=
  ∀ entry ∈ entries, shape.knows entry.1 = true ∧ assembly.Spells entry.1 entry.2.outline

variable {assembly : shape.Assembly} {entries : List (String × Json)}

theorem Writes.fits (h : assembly.Writes entries) :
    assembly.Fits (entries.map (Prod.map id Json.outline)) := by
  intro entry hentry
  obtain ⟨written, hwritten, rfl⟩ := List.mem_map.mp hentry
  obtain ⟨hknows, hspells⟩ := h written hwritten
  simpa [hknows] using hspells

theorem Writes.knownKeys_eq (h : assembly.Writes entries) :
    shape.knownKeys (entries.map (Prod.map id Json.outline)) = entries.map Prod.fst := by
  have hkeys : (entries.map (Prod.map id Json.outline)).map Prod.fst = entries.map Prod.fst := by
    simp
  rw [knownKeys, hkeys, List.filter_eq_self]
  · intro key hkey
    obtain ⟨entry, hentry, rfl⟩ := List.mem_map.mp hkey
    exact (h entry hentry).1

/-- An object that is written field by field is read as what is known when those fields are. -/
theorem read_outline (assembly : shape.Assembly) (h : assembly.Writes entries)
    (hnodup : (entries.map Prod.fst).Nodup)
    (hrequired : ∀ field ∈ shape.fields, field.required = true → field.name ∈ entries.map Prod.fst) :
    shape.read (Json.object entries).outline =
      .ok (assembly.known (entries.map Prod.fst).reverse) := by
  rw [Json.outline, entryOutlines_eq_keyed, assembly.read_object h.fits, h.knownKeys_eq]
  · rwa [h.knownKeys_eq]
  · simpa using hrequired

/-- When only the last field that is written remains to be read, the object is read as that is. -/
theorem read_outline_concat (assembly : shape.Assembly) (h : assembly.Writes entries)
    {key : String} {field : Field σ} (v : Json)
    (hfield : shape.fields.find? (·.name == key) = some field)
    (hnodup : (entries.map Prod.fst).Nodup) (hlast : key ∉ entries.map Prod.fst)
    (hrequired : ∀ other ∈ shape.fields, other.required = true → other.name ∈ entries.map Prod.fst) :
    shape.read (Json.object (entries ++ [(key, v)])).outline =
      field.read v.outline (assembly.known (entries.map Prod.fst).reverse) := by
  rw [Json.outline, entryOutlines_eq_keyed, List.map_append, List.map_singleton]
  have hread := assembly.read_object_concat v.outline hfield h.fits
    (by rwa [h.knownKeys_eq]) (by simpa using hlast) (by simpa using hrequired)
  rwa [h.knownKeys_eq] at hread

end Shape.Assembly

section Members

open Shape (knows)
open Shape.Assembly (Writes)

theorem read_ofSignal (s : Signal) : signal.read (ofSignal s).outline = .ok s := by
  rw [ofSignal, (signalAssembly s).read_outline]
  · simp [signalAssembly]
  · simp [Writes, knows, signalAssembly, signal, text_outline, listOf_ofTexts]
  · simp
  · simp [signal]

theorem read_ofConstant (c : Constant) : constant.read (ofConstant c).outline = .ok c := by
  rw [ofConstant, (constantAssembly c).read_outline]
  · simp [constantAssembly]
  · simp [Writes, knows, constantAssembly, constant, text_outline]
  · simp
  · simp [constant]

theorem read_ofEnumeration (e : Enumeration) :
    enumeration.read (ofEnumeration e).outline = .ok e := by
  rw [ofEnumeration, (enumerationAssembly e).read_outline]
  · simp [enumerationAssembly]
  · simp [Writes, knows, enumerationAssembly, enumeration, text_outline, listOf_ofTexts]
  · simp
  · simp [enumeration]

theorem read_ofProperty (p : Property) : property.read (ofProperty p).outline = .ok p := by
  obtain ⟨name, type, default⟩ := p
  rw [ofProperty, (propertyAssembly ⟨name, type, default⟩).read_outline]
  · cases default <;> simp [propertyAssembly, optional]
  · cases default <;>
      simp [Writes, knows, propertyAssembly, property, text_outline, text?_outline, optional]
  · cases default <;> simp [optional]
  · simp [property]

theorem read_ofFunction (f : Function) : function.read (ofFunction f).outline = .ok f := by
  obtain ⟨name, params, returnType, body⟩ := f
  rw [ofFunction, (functionAssembly ⟨name, params, returnType, body⟩).read_outline]
  · cases body <;> simp [functionAssembly, optional]
  · cases body <;>
      simp [Writes, knows, functionAssembly, function, text_outline, text?_outline, listOf_ofTexts,
        optional]
  · cases body <;> simp [optional]
  · simp [function]

theorem read_ofComponent (c : Component) : component.read (ofComponent c).outline = .ok c := by
  rw [ofComponent, (componentAssembly c).read_outline]
  · simp [componentAssembly]
  · simp [Writes, knows, componentAssembly, component, text_outline]
  · simp
  · simp [component]

end Members

end Blueprint.Exchange
