import Blueprint.Record.Edit

/-!
# Members, list by list

The members of a record are known when each of their lists is known by itself. Joining members joins
list to list, so what a whole row of members has in one list depends only on those in the row that
have something in it.
-/

namespace Blueprint.Members

/-- The members of one list, without those of the others. -/
def only (m : Members) : MemberList → Members
  | .signals => { signals := m.signals }
  | .constants => { constants := m.constants }
  | .enums => { enums := m.enums }
  | .properties group => ({} : Members).withProperties group (m.properties group)
  | .functions => { functions := m.functions }
  | .components => { components := m.components }

@[simp] theorem only_empty (list : MemberList) : ({} : Members).only list = {} := by
  cases list with
  | properties group => cases group <;> rfl
  | _ => rfl

theorem only_append (l r : Members) (list : MemberList) :
    (l ++ r).only list = l.only list ++ r.only list := by
  cases list with
  | properties group => cases group <;> rfl
  | _ => rfl

theorem ext_only {l r : Members} (h : ∀ list, l.only list = r.only list) : l = r := by
  have hsignals := congrArg signals (h .signals)
  have hconstants := congrArg constants (h .constants)
  have henums := congrArg enums (h .enums)
  have hflags := congrArg flags (h (.properties .flags))
  have hcurrent := congrArg currentProps (h (.properties .current))
  have hinterface := congrArg interfaceProps (h (.properties .interface))
  have hunique := congrArg uniqueProps (h (.properties .unique))
  have hfunctions := congrArg functions (h .functions)
  have hcomponents := congrArg components (h .components)
  cases l
  cases r
  simp_all only [only, withProperties, properties]

def concat (ms : List Members) : Members :=
  ms.foldr (· ++ ·) {}

@[simp] theorem concat_nil : concat [] = {} := rfl

@[simp] theorem concat_cons (m : Members) (ms : List Members) :
    concat (m :: ms) = m ++ concat ms := rfl

theorem only_concat (ms : List Members) (list : MemberList) :
    (concat ms).only list = concat (ms.map (·.only list)) := by
  induction ms with
  | nil => simp
  | cons m ms ih => simp [only_append, ih]

theorem concat_append (ls rs : List Members) : concat (ls ++ rs) = concat ls ++ concat rs := by
  induction ls with
  | nil => simp
  | cons m ls ih => simp [ih, append_assoc]

theorem concat_flatMap {α : Type} (f : α → List Members) (l : List α) :
    concat (l.flatMap f) = concat (l.map fun a => concat (f a)) := by
  induction l with
  | nil => rfl
  | cons a l ih => simp [concat_append, ih]

theorem concat_eq_empty {ms : List Members} (h : ∀ m ∈ ms, m = {}) : concat ms = {} := by
  induction ms with
  | nil => rfl
  | cons m ms ih => simp [h m, ih fun n hn => h n (by simp [hn])]

theorem concat_map_filter {α : Type} {f : α → Members} {keep : α → Bool} {l : List α}
    (h : ∀ a ∈ l, keep a = false → f a = {}) :
    concat ((l.filter keep).map f) = concat (l.map f) := by
  induction l with
  | nil => rfl
  | cons a l ih =>
    have hl := ih fun b hb => h b (by simp [hb])
    cases ha : keep a with
    | false => simp [ha, hl, h a (by simp) ha]
    | true => simp [ha, hl]

end Blueprint.Members
