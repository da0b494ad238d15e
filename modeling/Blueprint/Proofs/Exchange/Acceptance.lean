import Blueprint.Proofs.Exchange.RoundTrip
import Blueprint.Proofs.Exchange.Spelling

/-!
# Every spelling of a record

The fields of a record and of its members are told here once more, with the values that spell each of
them. The reader reads every spelling of a record as the record, whichever spelling is chosen at each
level, and refuses what is incomplete or says something twice.
-/

namespace Blueprint.Exchange

open Json (Outline)

section Values

variable {τ : Type} {v : Outline}

theorem text_of_isText {s : String} (h : IsText s v) : text v = .ok s := by
  rw [h, text]

theorem text?_of_isText? {s : Option String} (h : IsText? s v) : text? v = .ok s := by
  cases s with
  | none => rw [h, text?]
  | some s => rw [h]; rfl

theorem kind_of_isKind {k : ClassKind} (h : IsKind k v) : kind v = .ok k := by
  rcases h with rfl | rfl <;> simp [kind, kindNamed, Shape.keyed, ClassKind.ofName?_name]

theorem float_of_isNumber {x : Float} (h : IsNumber x v) : float v = .ok x := by
  obtain ⟨n, rfl, hn⟩ := h
  simp [float, hn]

variable {item : Outline → Read τ}

theorem listOf_of_isList {Spells : τ → Outline → Prop} (hitem : ∀ a v, Spells a v → item v = .ok a)
    {as : List τ} (h : IsList Spells as v) : listOf item v = .ok as := by
  obtain ⟨items, rfl, hitems⟩ := h
  have hread : items.mapM item = .ok as := by
    induction hitems with
    | nil => rfl
    | @cons a v as items hv _ ih => rw [List.mapM_cons, hitem a v hv, ih]; rfl
  rw [listOf, hread]
  rfl

theorem texts_of_isList {texts : List String} (h : IsList IsText texts v) :
    listOf text v = .ok texts := by
  refine listOf_of_isList ?_ h
  exact fun _ _ => text_of_isText

theorem listOf_ne_ok {Faulty : Outline → Prop} (hitem : ∀ v, Faulty v → ∀ a, item v ≠ .ok a)
    (h : HasFaulty Faulty v) (as : List τ) : listOf item v ≠ .ok as := by
  obtain ⟨items, closed, rfl, w, hw, hfaulty⟩ := h
  have hread : ∀ as, items.mapM item ≠ .ok as := by
    induction items with
    | nil => simp at hw
    | cons v items ih =>
      intro as
      rw [List.mapM_cons]
      rcases List.mem_cons.mp hw with rfl | hw
      · exact bind_ne_ok (hitem w hfaulty)
      · intro hbind
        obtain ⟨a, -, hrest⟩ := bind_eq_ok_iff.mp hbind
        exact bind_ne_ok (ih hw) hrest
  exact bind_ne_ok hread

end Values

def signalSlots : List (Slot Signal) :=
  [.of "name" (·.name) none IsText Faultless,
    .of "params" (·.params) (some []) (IsList IsText) Faultless]

def constantSlots : List (Slot Constant) :=
  [.of "name" (·.name) none IsText Faultless,
    .of "type" (·.type) none IsText Faultless,
    .of "value" (·.value) none IsText Faultless]

def enumerationSlots : List (Slot Enumeration) :=
  [.of "name" (·.name) none IsText Faultless,
    .of "values" (·.values) none (IsList IsText) Faultless]

def propertySlots : List (Slot Property) :=
  [.of "name" (·.name) none IsText Faultless,
    .of "type" (·.type) none IsText Faultless,
    .of "default" (·.default) (some none) IsText? Faultless]

def functionSlots : List (Slot Function) :=
  [.of "name" (·.name) none IsText Faultless,
    .of "params" (·.params) (some []) (IsList IsText) Faultless,
    .of "returnType" (·.returnType) none IsText Faultless,
    .of "code" (·.body) (some none) IsText? Faultless]

def componentSlots : List (Slot Component) :=
  [.of "name" (·.name) none IsText Faultless,
    .of "type" (·.type) none IsText Faultless]

def positionSlots : List (Slot Position) :=
  [.of "x" (·.x) none IsNumber Faultless,
    .of "y" (·.y) none IsNumber Faultless]

/-- A field with a list of members, each of which is spelled in its own way. -/
def Slot.members {σ τ : Type} (name : String) (part : σ → List τ) (slots : List (Slot τ)) : Slot σ :=
  .of name part (some []) (IsList (Spelling slots)) (HasFaulty (Refused slots))

def recordSlots : List (Slot ClassRecord) :=
  [.of "id" (·.id) none IsText Faultless,
    .of "name" (·.name) none IsText Faultless,
    .of "parent" (·.parent) (some none) IsText? Faultless,
    .of "interfaces" (·.interfaces) (some []) (IsList IsText) Faultless,
    .of "kind" (·.kind) (some .normal) IsKind Faultless,
    .members "signals" (·.signals) signalSlots,
    .members "constants" (·.constants) constantSlots,
    .members "enums" (·.enums) enumerationSlots,
    .members "flags" (·.flags) propertySlots,
    .members "currentProps" (·.currentProps) propertySlots,
    .members "interfaceProps" (·.interfaceProps) propertySlots,
    .members "uniqueProps" (·.uniqueProps) propertySlots,
    .members "functions" (·.functions) functionSlots,
    .members "components" (·.components) componentSlots,
    .of "position" (·.position) (some ⟨0, 0⟩) (Spelling positionSlots) (Refused positionSlots)]

def positionAssembly (p : Position) : position.Assembly where
  known seen := ⟨pick seen "x" p.x 0, pick seen "y" p.y 0⟩
  Spells
    | "x", v => float v = .ok p.x
    | "y", v => float v = .ok p.y
    | _, _ => False
  known_nil := by simp [position]
  read_known := by
    simp only [position, List.forall_mem_cons]
    refine ⟨?_, ?_, by simp⟩ <;> intro seen v h <;> simp [h]

section Pick

variable {α : Type} {seen : List String} {key : String} {value initial : α}

theorem pick_required (h : key ∉ seen → none = some value) :
    pick seen key value initial = value := by
  have hkey : key ∈ seen := by simpa using h
  rw [pick, if_pos hkey]

theorem pick_default (h : key ∉ seen → some initial = some value) :
    pick seen key value initial = value := by
  rw [pick]
  split
  · rfl
  · exact Option.some_inj.mp (h ‹_›)

end Pick

section Serving

variable {σ τ : Type} {field : Field σ} {name : String} {part : σ → τ} {default? : Option τ}
  {Spells : τ → Outline → Prop}

theorem Field.serves_of (hname : field.name = name) (hrequired : field.required = default?.isNone) :
    field.Serves (.of name part default? Spells Faultless) where
  name_eq := hname
  required_eq := hrequired
  read_ne _ h := h.elim

theorem serves_signal : signal.Serves signalSlots where
  fields := .cons (Field.serves_of rfl rfl) (.cons (Field.serves_of rfl rfl) .nil)
  nodup := by decide
  exists_assembly s := by
    refine ⟨signalAssembly s, ?_, fun seen h => ?_⟩
    · simp only [signalSlots, Slot.of, List.forall_mem_cons]
      exact ⟨fun _ => text_of_isText, fun _ => texts_of_isList, by simp⟩
    · simp only [signalSlots, Slot.of, List.forall_mem_cons] at h
      obtain ⟨hname, hparams, -⟩ := h
      simp only [signalAssembly, pick_required hname, pick_default hparams]

theorem serves_constant : constant.Serves constantSlots where
  fields := .cons (Field.serves_of rfl rfl) (.cons (Field.serves_of rfl rfl)
    (.cons (Field.serves_of rfl rfl) .nil))
  nodup := by decide
  exists_assembly c := by
    refine ⟨constantAssembly c, ?_, fun seen h => ?_⟩
    · simp only [constantSlots, Slot.of, List.forall_mem_cons]
      exact ⟨fun _ => text_of_isText, fun _ => text_of_isText, fun _ => text_of_isText, by simp⟩
    · simp only [constantSlots, Slot.of, List.forall_mem_cons] at h
      obtain ⟨hname, htype, hvalue, -⟩ := h
      simp only [constantAssembly, pick_required hname, pick_required htype, pick_required hvalue]

theorem serves_enumeration : enumeration.Serves enumerationSlots where
  fields := .cons (Field.serves_of rfl rfl) (.cons (Field.serves_of rfl rfl) .nil)
  nodup := by decide
  exists_assembly e := by
    refine ⟨enumerationAssembly e, ?_, fun seen h => ?_⟩
    · simp only [enumerationSlots, Slot.of, List.forall_mem_cons]
      exact ⟨fun _ => text_of_isText, fun _ => texts_of_isList, by simp⟩
    · simp only [enumerationSlots, Slot.of, List.forall_mem_cons] at h
      obtain ⟨hname, hvalues, -⟩ := h
      simp only [enumerationAssembly, pick_required hname, pick_required hvalues]

theorem serves_property : property.Serves propertySlots where
  fields := .cons (Field.serves_of rfl rfl) (.cons (Field.serves_of rfl rfl)
    (.cons (Field.serves_of rfl rfl) .nil))
  nodup := by decide
  exists_assembly p := by
    refine ⟨propertyAssembly p, ?_, fun seen h => ?_⟩
    · simp only [propertySlots, Slot.of, List.forall_mem_cons]
      exact ⟨fun _ => text_of_isText, fun _ => text_of_isText, fun _ => text?_of_isText?, by simp⟩
    · simp only [propertySlots, Slot.of, List.forall_mem_cons] at h
      obtain ⟨hname, htype, hdefault, -⟩ := h
      simp only [propertyAssembly, pick_required hname, pick_required htype, pick_default hdefault]

theorem serves_function : function.Serves functionSlots where
  fields := .cons (Field.serves_of rfl rfl) (.cons (Field.serves_of rfl rfl)
    (.cons (Field.serves_of rfl rfl) (.cons (Field.serves_of rfl rfl) .nil)))
  nodup := by decide
  exists_assembly f := by
    refine ⟨functionAssembly f, ?_, fun seen h => ?_⟩
    · simp only [functionSlots, Slot.of, List.forall_mem_cons]
      exact ⟨fun _ => text_of_isText, fun _ => texts_of_isList, fun _ => text_of_isText,
        fun _ => text?_of_isText?, by simp⟩
    · simp only [functionSlots, Slot.of, List.forall_mem_cons] at h
      obtain ⟨hname, hparams, hreturn, hcode, -⟩ := h
      simp only [functionAssembly, pick_required hname, pick_default hparams,
        pick_required hreturn, pick_default hcode]

theorem serves_component : component.Serves componentSlots where
  fields := .cons (Field.serves_of rfl rfl) (.cons (Field.serves_of rfl rfl) .nil)
  nodup := by decide
  exists_assembly c := by
    refine ⟨componentAssembly c, ?_, fun seen h => ?_⟩
    · simp only [componentSlots, Slot.of, List.forall_mem_cons]
      exact ⟨fun _ => text_of_isText, fun _ => text_of_isText, by simp⟩
    · simp only [componentSlots, Slot.of, List.forall_mem_cons] at h
      obtain ⟨hname, htype, -⟩ := h
      simp only [componentAssembly, pick_required hname, pick_required htype]

theorem serves_position : position.Serves positionSlots where
  fields := .cons (Field.serves_of rfl rfl) (.cons (Field.serves_of rfl rfl) .nil)
  nodup := by decide
  exists_assembly p := by
    refine ⟨positionAssembly p, ?_, fun seen h => ?_⟩
    · simp only [positionSlots, Slot.of, List.forall_mem_cons]
      exact ⟨fun _ => float_of_isNumber, fun _ => float_of_isNumber, by simp⟩
    · simp only [positionSlots, Slot.of, List.forall_mem_cons] at h
      obtain ⟨hx, hy, -⟩ := h
      simp only [positionAssembly, pick_required hx, pick_required hy]

theorem members_of_isList {shape : Shape τ} {slots : List (Slot τ)} (h : shape.Serves slots)
    {as : List τ} {v : Outline} (hv : IsList (Spelling slots) as v) :
    listOf shape.read v = .ok as := by
  refine listOf_of_isList ?_ hv
  exact fun _ _ => h.read_of_spelling

/-- A field with a list of members is read from no list with a member that is refused. -/
theorem Field.serves_members {shape : Shape τ} {slots : List (Slot τ)} {parts : σ → List τ}
    {put : σ → List τ → σ} (h : shape.Serves slots) :
    Field.Serves ⟨name, false, fun v a => return put a (← listOf shape.read v)⟩
      (.members name parts slots) where
  name_eq := rfl
  required_eq := rfl
  read_ne _ hv _ _ := bind_ne_ok (listOf_ne_ok (fun _ hw _ => h.read_ne_ok hw) hv)

end Serving

theorem serves_record : record.Serves recordSlots where
  fields := by
    refine .cons (Field.serves_of rfl rfl) (.cons (Field.serves_of rfl rfl)
      (.cons (Field.serves_of rfl rfl) (.cons (Field.serves_of rfl rfl)
      (.cons (Field.serves_of rfl rfl) (.cons (Field.serves_members serves_signal)
      (.cons (Field.serves_members serves_constant) (.cons (Field.serves_members serves_enumeration)
      (.cons (Field.serves_members serves_property) (.cons (Field.serves_members serves_property)
      (.cons (Field.serves_members serves_property) (.cons (Field.serves_members serves_property)
      (.cons (Field.serves_members serves_function) (.cons (Field.serves_members serves_component)
      (.cons ⟨rfl, rfl, ?_⟩ .nil))))))))))))))
    exact fun v hv r s => bind_ne_ok fun p => serves_position.read_ne_ok hv
  nodup := by decide
  exists_assembly r := by
    refine ⟨recordAssembly r, ?_, fun seen h => ?_⟩
    · simp only [recordSlots, Slot.of, Slot.members, List.forall_mem_cons]
      exact ⟨fun _ => text_of_isText, fun _ => text_of_isText, fun _ => text?_of_isText?,
        fun _ => texts_of_isList, fun _ => kind_of_isKind, fun _ => members_of_isList serves_signal,
        fun _ => members_of_isList serves_constant, fun _ => members_of_isList serves_enumeration,
        fun _ => members_of_isList serves_property, fun _ => members_of_isList serves_property,
        fun _ => members_of_isList serves_property, fun _ => members_of_isList serves_property,
        fun _ => members_of_isList serves_function, fun _ => members_of_isList serves_component,
        fun _ => serves_position.read_of_spelling, by simp⟩
    · simp only [recordSlots, Slot.of, Slot.members, List.forall_mem_cons] at h
      obtain ⟨hid, hname, hparent, hinterfaces, hkind, hsignals, hconstants, henums, hflags, hcurrent,
        hinterface, hunique, hfunctions, hcomponents, hposition, -⟩ := h
      simp only [recordAssembly, pick_required hid, pick_required hname, pick_default hparent,
        pick_default hinterfaces, pick_default hkind, pick_default hsignals, pick_default hconstants,
        pick_default henums, pick_default hflags, pick_default hcurrent, pick_default hinterface,
        pick_default hunique, pick_default hfunctions, pick_default hcomponents,
        pick_default hposition]

/-- A text that spells a record is read as the record. A text that spells an object or a list in which
something required is missing, or in which a key is given twice, is read as no record. -/
theorem readRecord_spelling {source : String} {v : Outline} {ended : Bool}
    (hsource : Outline.ofText source.toList = (v, ended)) :
    (ended = true → ∀ r, Spelling recordSlots r v → readRecord source = .ok r) ∧
      (Refused recordSlots v → ∃ fault, readRecord source = .error fault) := by
  have hread : readRecord source =
      record.read v >>= fun r => if ended then .ok r else .error .malformed := by
    rw [readRecord, hsource]
  constructor
  · rintro rfl r hv
    rw [hread, serves_record.read_of_spelling hv]
    rfl
  · intro hv
    rw [hread]
    cases hrecord : record.read v with
    | error fault => exact ⟨fault, rfl⟩
    | ok r => exact absurd hrecord (serves_record.read_ne_ok hv)

/-- A record whose position is a list, whose functions are a list that ends early and an object with
its keys in another order, and whose keys stand among others. -/
def scattered : Json :=
  .object [("note", .object [("id", .null)]),
    ("position", .list [.number { whole := ['1'] }, .number { whole := ['2'] }]),
    ("functions", .list [.list [.text "f", .list [], .text "int"],
      .object [("returnType", .text "void"), ("name", .text "g"), ("code", .null)]]),
    ("parent", .null),
    ("name", .text "A"),
    ("note", .bool true),
    ("id", .text "7")]

/-- A list of fields with a signal that has two names. -/
def doubled : Json :=
  .list [.text "7", .text "A", .null, .list [], .text "normal",
    .list [.object [("name", .text "s"), ("params", .list []), ("name", .text "s")]]]

/-- The record that is spelled there. -/
def gathered : ClassRecord where
  id := "7"
  name := "A"
  functions := [⟨"f", [], "int", none⟩, ⟨"g", [], "void", none⟩]
  position := ⟨1, 2⟩

theorem spelling_scattered : Spelling recordSlots gathered scattered.outline := by
  have hlist : Spelling functionSlots ⟨"f", [], "int", none⟩
      (.list [.text (some "f"), .list [] true, .text (some "int")] true) := by
    refine @Spelling.list _ _ _ (functionSlots.take 3) (functionSlots.drop 3) _ rfl ?_ ?_ <;>
      simp [functionSlots, Slot.of, IsText, IsList]
  have hobject : Spelling functionSlots ⟨"g", [], "void", none⟩ (.object (Shape.keyed
      [("returnType", .text (some "void")), ("name", .text (some "g")), ("code", .null)]) true) := by
    refine .object (by decide) ?_ ?_ ?_ <;>
      simp [functionSlots, Slot.of, IsText, IsText?]
  have hposition : Spelling positionSlots ⟨1, 2⟩
      (.list [.number { whole := ['1'] }, .number { whole := ['2'] }] true) := by
    refine @Spelling.list _ _ _ positionSlots [] _ rfl
      (.cons ⟨_, rfl, ?_⟩ (.cons ⟨_, rfl, ?_⟩ .nil)) (by simp)
    · decide +kernel
    · decide +kernel
  simp only [scattered, Json.outline, entryOutlines_eq_keyed, outlines_eq_map, List.map_cons,
    List.map_nil, Prod.map, id]
  refine .object (by decide) ?_ ?_ ?_
  · simpa [recordSlots, Slot.of, Slot.members, gathered, IsText, IsText?, IsList] using
      ⟨⟨hlist, hobject⟩, hposition⟩
  · simp [recordSlots, Slot.of, Slot.members, Outline.isWhole, Outline.entriesAreWhole, Shape.keyed]
  · simp [recordSlots, Slot.of, Slot.members, gathered]

theorem readRecord_spelling_scattered :
    readRecord scattered.render = .ok gathered ∧
      ∃ fault, readRecord doubled.render = .error fault := by
  have hdigit : ∀ c : Char, c.isDigit = true → Numeral.Standard { whole := [c] } := fun c hc =>
    ⟨⟨by simp, by simpa using hc⟩, by simp, by simp, by simp⟩
  have hscattered : scattered.Standard := by
    refine .object ?_
    simp only [List.forall_mem_cons]
    refine ⟨.object ?_, .list ?_, .list ?_, .null, .text _, .bool _, .text _, by simp⟩
    · simp [Json.Standard.null]
    · simp [Json.Standard.number, hdigit]
    · simp [Json.Standard.list, Json.Standard.object, Json.Standard.text, Json.Standard.null]
  have hdoubled : doubled.Standard := by
    refine .list ?_
    simp [Json.Standard.list, Json.Standard.object, Json.Standard.text, Json.Standard.null]
  refine ⟨(readRecord_spelling (Json.ofText_render hscattered)).1 rfl _ spelling_scattered,
    (readRecord_spelling (Json.ofText_render hdoubled)).2 ?_⟩
  have hsignal : Refused signalSlots (.object
      ([] ++ (.text (some "name"), .text (some "s")) :: [(.text (some "params"), .list [] true)] ++
        (.text (some "name"), .text (some "s")) :: []) true) :=
    @Refused.repeated _ _ (.of "name" (·.name) none IsText Faultless) [] _ [] _ _ true
      (by simp [signalSlots])
  simp only [doubled, Json.outline, entryOutlines_eq_keyed, outlines_eq_map, List.map_cons,
    List.map_nil, Prod.map, id]
  exact @Refused.item _ _ (recordSlots.take 5) (recordSlots.drop 6) _ [_, _, _, _, _] [] _ true
    rfl rfl ⟨_, _, rfl, _, List.mem_singleton_self _, hsignal⟩

end Blueprint.Exchange
