import Blueprint.Exchange.Shape
import Blueprint.Record.Basic

/-!
# Records as JSON

Every member and the record itself is an object whose keys stand in a fixed order. What is absent is
not written, apart from empty lists. Reading accepts more than writing produces: any order, unknown
keys, omitted fields that have a default, and lists in place of objects.
-/
namespace Blueprint.Exchange

open Json (Outline)

/-- An entry for a text that is present, and none for one that is absent. -/
def optional (key : String) (value : Option String) : List (String × Json) :=
  (value.map fun s => (key, Json.text s)).toList

def ofSignal (s : Signal) : Json :=
  .object [("name", .text s.name), ("params", .ofTexts s.params)]

def ofConstant (c : Constant) : Json :=
  .object [("name", .text c.name), ("type", .text c.type), ("value", .text c.value)]

def ofEnumeration (e : Enumeration) : Json :=
  .object [("name", .text e.name), ("values", .ofTexts e.values)]

def ofProperty (p : Property) : Json :=
  .object ([("name", .text p.name), ("type", .text p.type)] ++ optional "default" p.default)

def ofFunction (f : Function) : Json :=
  .object ([("name", .text f.name), ("params", .ofTexts f.params),
    ("returnType", .text f.returnType)] ++ optional "code" f.body)

def ofComponent (c : Component) : Json :=
  .object [("name", .text c.name), ("type", .text c.type)]

def ofPosition (p : Position) : Json :=
  .object [("x", .ofFloat p.x), ("y", .ofFloat p.y)]

def entries (r : ClassRecord) : List (String × Json) :=
  [("id", .text r.id), ("name", .text r.name)] ++ optional "parent" r.parent ++
    [("interfaces", .ofTexts r.interfaces),
      ("kind", .text r.kind.name),
      ("signals", .list (r.signals.map ofSignal)),
      ("constants", .list (r.constants.map ofConstant)),
      ("enums", .list (r.enums.map ofEnumeration)),
      ("flags", .list (r.flags.map ofProperty)),
      ("currentProps", .list (r.currentProps.map ofProperty)),
      ("interfaceProps", .list (r.interfaceProps.map ofProperty)),
      ("uniqueProps", .list (r.uniqueProps.map ofProperty)),
      ("functions", .list (r.functions.map ofFunction)),
      ("components", .list (r.components.map ofComponent)),
      ("position", ofPosition r.position)]

/-- The record as a JSON value. -/
def ofRecord (r : ClassRecord) : Json :=
  .object (entries r)

/-- The record as indented JSON text. -/
def write (r : ClassRecord) : String :=
  (ofRecord r).render

def signal : Shape Signal where
  title := "Signal"
  blank := { name := "" }
  fields :=
    [⟨"name", true, fun v s => return { s with name := ← text v }⟩,
      ⟨"params", false, fun v s => return { s with params := ← listOf text v }⟩]

def constant : Shape Constant where
  title := "Constant"
  blank := ⟨"", "", ""⟩
  fields :=
    [⟨"name", true, fun v c => return { c with name := ← text v }⟩,
      ⟨"type", true, fun v c => return { c with type := ← text v }⟩,
      ⟨"value", true, fun v c => return { c with value := ← text v }⟩]

def enumeration : Shape Enumeration where
  title := "EnumDef"
  blank := ⟨"", []⟩
  fields :=
    [⟨"name", true, fun v e => return { e with name := ← text v }⟩,
      ⟨"values", true, fun v e => return { e with values := ← listOf text v }⟩]

def property : Shape Property where
  title := "Property"
  blank := { name := "", type := "" }
  fields :=
    [⟨"name", true, fun v p => return { p with name := ← text v }⟩,
      ⟨"type", true, fun v p => return { p with type := ← text v }⟩,
      ⟨"default", false, fun v p => return { p with default := ← text? v }⟩]

def function : Shape Function where
  title := "Function"
  blank := { name := "", returnType := "" }
  fields :=
    [⟨"name", true, fun v f => return { f with name := ← text v }⟩,
      ⟨"params", false, fun v f => return { f with params := ← listOf text v }⟩,
      ⟨"returnType", true, fun v f => return { f with returnType := ← text v }⟩,
      ⟨"code", false, fun v f => return { f with body := ← text? v }⟩]

def component : Shape Component where
  title := "Component"
  blank := ⟨"", ""⟩
  fields :=
    [⟨"name", true, fun v c => return { c with name := ← text v }⟩,
      ⟨"type", true, fun v c => return { c with type := ← text v }⟩]

def position : Shape Position where
  title := "Position"
  blank := {}
  fields :=
    [⟨"x", true, fun v p => return { p with x := ← float v }⟩,
      ⟨"y", true, fun v p => return { p with y := ← float v }⟩]

def kindNamed (name : String) : Read ClassKind :=
  match ClassKind.ofName? name with
  | some kind => .ok kind
  | none => .error (.misfit (.unknownVariant name (ClassKind.all.map (·.name))))

/-- A kind is its name, or an object with the name as its only key and nothing as the value. -/
def kind : Outline → Read ClassKind
  | .text (some name) => kindNamed name
  | .object ((key, v) :: rest) closed => do
    let kind ← match key with
      | .text (some name) => kindNamed name
      | _ => .error .malformed
    match v with
    | .null => if rest.isEmpty && closed then .ok kind else .error .malformed
    | _ => mismatch "unit" v
  | _ => .error .malformed

def record : Shape ClassRecord where
  title := "ClassRecord"
  blank := { id := "", name := "" }
  fields :=
    [⟨"id", true, fun v r => return { r with id := ← text v }⟩,
      ⟨"name", true, fun v r => return { r with name := ← text v }⟩,
      ⟨"parent", false, fun v r => return { r with parent := ← text? v }⟩,
      ⟨"interfaces", false, fun v r => return { r with interfaces := ← listOf text v }⟩,
      ⟨"kind", false, fun v r => return { r with kind := ← kind v }⟩,
      ⟨"signals", false, fun v r => return { r with signals := ← listOf signal.read v }⟩,
      ⟨"constants", false, fun v r => return { r with constants := ← listOf constant.read v }⟩,
      ⟨"enums", false, fun v r => return { r with enums := ← listOf enumeration.read v }⟩,
      ⟨"flags", false, fun v r => return { r with flags := ← listOf property.read v }⟩,
      ⟨"currentProps", false, fun v r =>
        return { r with currentProps := ← listOf property.read v }⟩,
      ⟨"interfaceProps", false, fun v r =>
        return { r with interfaceProps := ← listOf property.read v }⟩,
      ⟨"uniqueProps", false, fun v r => return { r with uniqueProps := ← listOf property.read v }⟩,
      ⟨"functions", false, fun v r => return { r with functions := ← listOf function.read v }⟩,
      ⟨"components", false, fun v r => return { r with components := ← listOf component.read v }⟩,
      ⟨"position", false, fun v r => return { r with position := ← position.read v }⟩]

def readRecord (source : String) : Read ClassRecord := do
  let (v, ended) := Outline.ofText source.toList
  let r ← record.read v
  if ended then .ok r else .error .malformed

end Blueprint.Exchange
