import Blueprint.Format.Registry
import Mathlib.Data.List.Induction

/-!
# What a registry holds

A registry is given formats one after the other. Under each name it has the format that it was given
last under that name, whatever came under other names, and its list of names, its look-up and its way
of writing a record all tell of the same formats.
-/

namespace Blueprint

namespace Registry

def registerAll (registry : Registry) (formats : List Format) : Registry :=
  formats.foldl register registry

inductive Start where
  | empty
  | builtin (indent : String)

namespace Start

def registry : Start → Registry
  | empty => {}
  | builtin indent => Registry.builtin indent

def formats : Start → List Format
  | empty => []
  | builtin indent => [.canonical .engine, .script indent, .autoload indent, .json]

theorem registry_eq (start : Start) : start.registry = registerAll {} start.formats := by
  cases start <;> rfl

theorem write_ne_notFound {start : Start} {format : Format} (h : format ∈ start.formats)
    (r : ClassRecord) (name : String) : format.write r ≠ .error (.notFound name) := by
  cases start with
  | empty => cases h
  | builtin indent =>
    simp only [formats, List.mem_cons, List.not_mem_nil, or_false] at h
    rcases h with rfl | rfl | rfl | rfl <;> exact nofun

end Start

variable {registry : Registry} {name : String}

section Observers

theorem mem_names_iff : name ∈ registry.names ↔ name ∈ registry.formats := by
  unfold names
  exact Std.TreeMap.mem_keys

theorem contains_iff : registry.contains name = true ↔ name ∈ registry.names := by
  rw [mem_names_iff]
  exact Std.TreeMap.contains_iff_mem

theorem isSome_get?_iff : (registry.get? name).isSome = true ↔ name ∈ registry.names := by
  rw [mem_names_iff, Std.TreeMap.mem_iff_isSome_getElem?]
  rfl

theorem names_ascending (registry : Registry) : registry.names.Pairwise (· < ·) := by
  have h : registry.formats.keys.Pairwise fun a b => compare a b = .lt :=
    Std.TreeMap.ordered_keys
  exact h.imp fun hlt => compareOfLessAndEq_eq_lt.mp hlt

theorem write_of_get? {format : Format} (h : registry.get? name = some format) (r : ClassRecord) :
    registry.write name r = format.write r := by
  rw [write, h]

theorem write_of_get?_eq_none (h : registry.get? name = none) (r : ClassRecord) :
    registry.write name r = .error (.notFound name) := by
  rw [write, h]

end Observers

section Run

variable {formats : List Format} {format : Format}

theorem get?_register (registry : Registry) (format : Format) (name : String) :
    (registry.register format).get? name =
      if format.name = name then some format else registry.get? name := by
  rw [get?, register, Std.TreeMap.getElem?_insert]
  simp only [Std.compare_eq_iff_eq]
  rfl

theorem registerAll_cons (registry : Registry) (format : Format) (formats : List Format) :
    registry.registerAll (format :: formats) = (registry.register format).registerAll formats := rfl

theorem registerAll_concat (registry : Registry) (formats : List Format) (format : Format) :
    registry.registerAll (formats ++ [format]) = (registry.registerAll formats).register format := by
  simp [registerAll]

theorem registerAll_append (registry : Registry) (formats more : List Format) :
    registry.registerAll (formats ++ more) = (registry.registerAll formats).registerAll more := by
  simp [registerAll]

theorem get?_registerAll_of_ne (h : ∀ format ∈ formats, format.name ≠ name) :
    (registry.registerAll formats).get? name = registry.get? name := by
  induction formats generalizing registry with
  | nil => rfl
  | cons format formats ih =>
    have hfirst : format.name ≠ name := h format List.mem_cons_self
    have hrest : ∀ other ∈ formats, other.name ≠ name :=
      fun other hother => h other (List.mem_cons_of_mem _ hother)
    rw [registerAll_cons, ih hrest, get?_register, if_neg hfirst]

/-- A name stands for the format that came last under it. -/
theorem get?_registerAll_eq_some_iff :
    (registerAll {} formats).get? name = some format ↔ format.name = name ∧
      ∃ before after, formats = before ++ format :: after ∧ ∀ later ∈ after, later.name ≠ name := by
  constructor
  · intro h
    -- Induction from the end: the last format is the one, or it has another name.
    induction formats using List.reverseRecOn with
    | nil => simp [registerAll, get?] at h
    | append_singleton formats last ih =>
      rw [registerAll_concat, get?_register] at h
      split at h
      · obtain rfl : last = format := Option.some.inj h
        exact ⟨‹_›, formats, [], rfl, by simp⟩
      · obtain ⟨hname, before, after, rfl, hafter⟩ := ih h
        refine ⟨hname, before, after ++ [last], by simp, ?_⟩
        intro later hlater
        rcases List.mem_append.mp hlater with hlater | hlater
        · exact hafter later hlater
        · rwa [List.mem_singleton.mp hlater]
  · rintro ⟨hname, before, after, rfl, hafter⟩
    have hcons : before ++ format :: after = (before ++ [format]) ++ after := by simp
    rw [hcons, registerAll_append, get?_registerAll_of_ne hafter, registerAll_concat, get?_register,
      if_pos hname]

theorem get?_registerAll_eq_none_iff :
    (registerAll {} formats).get? name = none ↔ ∀ format ∈ formats, format.name ≠ name := by
  constructor
  · intro h format hmem hname
    induction formats using List.reverseRecOn with
    | nil => cases hmem
    | append_singleton formats last ih =>
      rw [registerAll_concat, get?_register] at h
      split at h
      · cases h
      · rename_i hlast
        rcases List.mem_append.mp hmem with hmem | hmem
        · exact ih h hmem
        · exact hlast (List.mem_singleton.mp hmem ▸ hname)
  · intro h
    rw [get?_registerAll_of_ne h]
    rfl

/-- What a name stands for after a run depends on the start only through what it stood for there. -/
theorem get?_registerAll_congr {other : Registry} (h : registry.get? name = other.get? name)
    (formats : List Format) :
    (registry.registerAll formats).get? name = (other.registerAll formats).get? name := by
  induction formats generalizing registry other with
  | nil => exact h
  | cons format formats ih =>
    apply ih
    rw [get?_register, get?_register, h]

theorem get?_registerAll_cons_of_ne (h : format.name ≠ name) (before after : List Format) :
    (registry.registerAll (before ++ format :: after)).get? name =
      (registry.registerAll (before ++ after)).get? name := by
  rw [registerAll_append, registerAll_append, registerAll_cons]
  apply get?_registerAll_congr
  rw [get?_register, if_neg h]

end Run

section Results

/-- Whatever formats a registry is given, its names are listed in strictly ascending order and are
those under which it has ever been given a format, those that it started with included. Asking for a
name, looking it up and listing the names agree. A name stands for the format that came last under it,
which writes the records, and formats under other names make no difference. A name is reported as not
found if nothing ever came under it, and else only where its format gives this report itself, which
no built-in format does. -/
theorem store_law (start : Start) (added : List Format) :
    let registered := start.formats ++ added
    let registry := start.registry.registerAll added
    registry.names.Pairwise (· < ·) ∧
      (∀ name, name ∈ registry.names ↔ ∃ format ∈ registered, format.name = name) ∧
      (∀ name, (registry.contains name = true ↔ name ∈ registry.names) ∧
        ((registry.get? name).isSome = true ↔ name ∈ registry.names)) ∧
      (∀ name format, registry.get? name = some format ↔ format.name = name ∧
        ∃ before after, registered = before ++ format :: after ∧
          ∀ later ∈ after, later.name ≠ name) ∧
      (∀ name format r, registry.get? name = some format →
        registry.write name r = format.write r) ∧
      (∀ before other after name, added = before ++ other :: after → other.name ≠ name →
        registry.get? name = (start.registry.registerAll (before ++ after)).get? name ∧
        ∀ r, registry.write name r = (start.registry.registerAll (before ++ after)).write name r) ∧
      ∀ name r, registry.write name r = .error (.notFound name) ↔
        (∀ format ∈ registered, format.name ≠ name) ∨
          ∃ format, registry.get? name = some format ∧ format ∉ start.formats ∧
            format.write r = .error (.notFound name) := by
  intro registered registry
  have hregistry : registry = registerAll {} registered := by
    rw [registerAll_append, ← start.registry_eq]
  have hnone : ∀ name, registry.get? name = none ↔ ∀ format ∈ registered, format.name ≠ name := by
    intro name
    rw [hregistry]
    exact get?_registerAll_eq_none_iff
  refine ⟨names_ascending registry, ?_, fun name => ⟨contains_iff, isSome_get?_iff⟩, ?_,
    fun name format r h => write_of_get? h r, ?_, ?_⟩
  · intro name
    rw [← isSome_get?_iff, ← not_iff_not, Bool.not_eq_true, Option.isSome_eq_false_iff,
      Option.isNone_iff_eq_none, hnone]
    simp
  · intro name format
    rw [hregistry]
    exact get?_registerAll_eq_some_iff
  · intro before other after name hadded hother
    have hget : registry.get? name =
        (start.registry.registerAll (before ++ after)).get? name := by
      rw [← get?_registerAll_cons_of_ne hother, ← hadded]
    refine ⟨hget, fun r => ?_⟩
    rw [write, write, hget]
  · intro name r
    rw [← hnone]
    cases hget : registry.get? name with
    | none => simp [write_of_get?_eq_none hget]
    | some format =>
      have hadded : format.write r = .error (.notFound name) → format ∉ start.formats :=
        fun hwrite hmem => Start.write_ne_notFound hmem r name hwrite
      simpa [write_of_get? hget] using hadded

/-- A format that passes on what another registry says reports its own name as not found, although it
is registered. And a registry that starts with the built-in formats lists names that no later
registration has brought. -/
theorem write_relay :
    let relay : Format := ⟨"relay", "", fun _ => .error (.notFound "relay")⟩
    let registry := Start.empty.registry.registerAll [relay]
    "relay" ∈ registry.names ∧
      (∀ r, registry.write "relay" r = .error (.notFound "relay")) ∧
      ((Start.builtin "\t").registry.registerAll []).names =
        ["autoload", "dsl", "gdscript", "json"] := by
  intro relay registry
  have hget : registry.get? "relay" = some relay :=
    get?_registerAll_eq_some_iff.mpr ⟨rfl, [], [], rfl, nofun⟩
  refine ⟨isSome_get?_iff.mp (by rw [hget]; rfl), fun r => write_of_get? hget r, ?_⟩
  decide +kernel

/-- Two formats without a name and a second one under the name of a built-in format. -/
theorem store_law_replaced :
    let first : Format := ⟨"", "first", fun r => .ok r.name⟩
    let second : Format := ⟨"", "second", fun r => .ok r.id⟩
    let broken : Format := ⟨"json", "", fun _ => .error (.failed "full")⟩
    let registry := (Start.builtin "\t").registry.registerAll [first, broken, second]
    registry.get? "" = some second ∧
      ∀ r, registry.write "json" r = .error (.failed "full") ∧
        registry.write "xml" r = .error (.notFound "xml") := by
  intro first second broken registry
  obtain ⟨-, -, -, hget, hwrite, -, hnotFound⟩ :=
    store_law (.builtin "\t") [first, broken, second]
  refine ⟨?_, fun r => ⟨?_, ?_⟩⟩
  · exact (hget "" second).mpr
      ⟨rfl, (Start.builtin "\t").formats ++ [first, broken], [], by simp, by simp⟩
  · refine hwrite "json" broken r ?_
    refine (hget "json" broken).mpr
      ⟨rfl, (Start.builtin "\t").formats ++ [first], [second], by simp, ?_⟩
    intro later hlater
    rw [List.mem_singleton.mp hlater]
    decide
  · refine (hnotFound "xml" r).mpr (.inl fun format hformat => ?_)
    simp only [Start.formats, List.mem_append, List.mem_cons, List.not_mem_nil, or_false] at hformat
    rcases hformat with (rfl | rfl | rfl | rfl) | rfl | rfl | rfl <;> decide

end Results

end Registry

end Blueprint
