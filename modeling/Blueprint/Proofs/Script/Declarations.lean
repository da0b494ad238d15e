import Blueprint.Proofs.Description.Invariant
import Blueprint.Proofs.Script.Blocks

/-!
# What a script declares

As long as no text but the bodies of functions has a line feed, the lines of a script that start with
the word of a declaration are those of the record's members, in order. The lines between an
enumeration and its closing brace are its values, and those between a function and the next empty line
are its body: whatever stands in a body is behind the indent, so it is neither an empty line nor a
declaration.
-/

namespace Blueprint

open Text (OneLine)

theorem Text.oneLine_intercalate {parts : List String} (separator : String)
    (hseparator : OneLine separator) (h : ∀ part ∈ parts, OneLine part) :
    OneLine (separator.intercalate parts) := by
  rw [OneLine, String.toList_intercalate]
  exact Canonical.not_mem_intercalate hseparator (by simpa [OneLine] using h)

theorem Text.Clean.oneLine {s : String} (h : Text.Clean s) : OneLine s := by
  intro hfeed
  obtain ⟨l, r, hs⟩ := List.append_of_mem hfeed
  exact absurd (h.space l '\n' r hs (by decide)).1 (by decide)

/-- No text that a script shows has a line feed, apart from the bodies of functions. -/
structure ClassRecord.Unbroken (r : ClassRecord) : Prop where
  name : OneLine r.name
  parent : ∀ p ∈ r.parent, OneLine p
  signals : ∀ s ∈ r.signals, OneLine s.name ∧ ∀ p ∈ s.params, OneLine p
  constants : ∀ c ∈ r.constants, OneLine c.name ∧ OneLine c.type ∧ OneLine c.value
  enums : ∀ e ∈ r.enums, OneLine e.name ∧ ∀ v ∈ e.values, OneLine v
  properties : ∀ group, ∀ p ∈ r.properties group,
    OneLine p.name ∧ OneLine p.type ∧ ∀ d ∈ p.default, OneLine d
  functions : ∀ f ∈ r.functions,
    OneLine f.name ∧ OneLine f.returnType ∧ ∀ p ∈ f.params, OneLine p

theorem ClassRecord.Spelled.unbroken {r : ClassRecord} (h : r.Spelled) : r.Unbroken where
  name := h.name.clean.oneLine
  parent p hp := (h.parent p hp).clean.oneLine
  signals s hs := by
    obtain ⟨hname, hparams⟩ := h.members.signals s hs
    exact ⟨hname.clean.oneLine, fun p hp => (hparams p hp).clean.oneLine⟩
  constants c hc := by
    obtain ⟨hname, htype, hvalue⟩ := h.members.constants c hc
    exact ⟨hname.clean.oneLine, htype.clean.oneLine, hvalue.clean.oneLine⟩
  enums e he := by
    obtain ⟨hname, -, hvalues⟩ := h.members.enums e he
    exact ⟨hname.clean.oneLine, fun v hv => (hvalues v hv).clean.oneLine⟩
  properties group p hp := by
    obtain ⟨hname, htype, hdefault⟩ := h.members.properties group p hp
    exact ⟨hname.clean.oneLine, htype.clean.oneLine, fun d hd => (hdefault d hd).clean.oneLine⟩
  functions f hf := by
    obtain ⟨hname, hresult, hparams⟩ := h.members.functions f hf
    exact ⟨hname.clean.oneLine, hresult.clean.oneLine, fun p hp => (hparams p hp).clean.oneLine⟩

/-- No description puts a line feed into a text of the record that is parsed from it. -/
theorem Description.unbroken_of_parse {id s : String} {p : Parsed}
    (h : parse .engine id s = .ok p) : p.record.Unbroken := by
  have hliteral : ∀ type, Canonical.Entry (DefaultTable.engine.literal type) :=
    fun type => (Canonical.cell_engine type).entry
  exact (canonical_of_parse hliteral h).1.unbroken

/-! ### The lines that declare members -/

/-- Parentheses stand behind the name of a signal only if it has parameters. -/
def Signal.declaration (s : Signal) : String :=
  match s.params with
  | [] => "signal " ++ s.name
  | first :: others => "signal " ++ s.name ++ "(" ++ ", ".intercalate (first :: others) ++ ")"

def Constant.declaration (c : Constant) : String :=
  "const " ++ c.name ++ ": " ++ c.type ++ " = " ++ c.value

/-- An autoload script has a variable in place of a constant. -/
def Constant.variableDeclaration (c : Constant) : String :=
  "var " ++ c.name ++ ": " ++ c.type ++ " = " ++ c.value

def Property.declaration (p : Property) : String :=
  match p.default with
  | none => "var " ++ p.name ++ ": " ++ p.type
  | some value => "var " ++ p.name ++ ": " ++ p.type ++ " = " ++ value

def Enumeration.declaration (e : Enumeration) : String :=
  "enum " ++ e.name ++ " \x7b"

def Function.declaration (f : Function) : String :=
  if f.returnType ∈ ["", "void"] then "func " ++ f.name ++ "(" ++ ", ".intercalate f.params ++ "):"
  else "func " ++ f.name ++ "(" ++ ", ".intercalate f.params ++ ") -> " ++ f.returnType ++ ":"

namespace Script

section Spelling

theorem signalLine_eq : signalLine = Signal.declaration := by
  funext ⟨name, params⟩
  cases params <;> simp [signalLine, Signal.declaration, Signal.display, ← String.append_assoc]

theorem constantLine_eq : constantLine = Constant.declaration := rfl

theorem variableLine_constant (c : Constant) :
    variableLine c.name c.type (some c.value) = c.variableDeclaration := by
  simp [variableLine, Constant.variableDeclaration, ← String.append_assoc]

theorem propertyLine_eq : propertyLine = Property.declaration := by
  funext ⟨name, type, value⟩
  cases value <;>
    simp [propertyLine, variableLine, Property.declaration, ← String.append_assoc]

theorem functionLine_eq : functionLine = Function.declaration := by
  funext f
  by_cases hvoid : f.returnType = "" ∨ f.returnType = "void"
  · simp [functionLine, Function.declaration, hvoid, String.append_assoc]
  · have harrow : ") -> " = ")" ++ " -> " := by decide
    have hresult : functionLine f = "func " ++ f.name ++ "(" ++ ", ".intercalate f.params ++ ")" ++
        (" -> " ++ f.returnType) ++ ":" := by
      simp [functionLine, hvoid]
    rw [hresult, Function.declaration, if_neg (by simpa using hvoid), harrow]
    simp only [String.append_assoc]

end Spelling

section Members

variable {indent : String}

theorem parts_signal {s : Signal} (hname : OneLine s.name) (hparams : ∀ p ∈ s.params, OneLine p) :
    Parts [s.declaration] [s.declaration] [] [] := by
  have hlist := Text.oneLine_intercalate ", " (by decide) hparams
  unfold Signal.declaration
  split
  · exact .declaration (by decide) (Text.oneLine_append.mpr ⟨by decide, hname⟩)
  · next h =>
    rw [h] at hlist
    simp only [String.append_assoc]
    refine .declaration (by decide) ?_
    simp only [Text.oneLine_append]
    exact ⟨by decide, hname, by decide, hlist, by decide⟩

theorem parts_constant {c : Constant} (hname : OneLine c.name) (htype : OneLine c.type)
    (hvalue : OneLine c.value) :
    Parts [c.declaration] [c.declaration] [] [] ∧
      Parts [c.variableDeclaration] [c.variableDeclaration] [] [] := by
  simp only [Constant.declaration, Constant.variableDeclaration, String.append_assoc]
  constructor <;> refine .declaration (by decide) ?_ <;> simp only [Text.oneLine_append] <;>
    exact ⟨by decide, hname, by decide, htype, by decide, hvalue⟩

theorem parts_property {p : Property} (hname : OneLine p.name) (htype : OneLine p.type)
    (hdefault : ∀ d ∈ p.default, OneLine d) : Parts [p.declaration] [p.declaration] [] [] := by
  unfold Property.declaration
  split
  · simp only [String.append_assoc]
    refine .declaration (by decide) ?_
    simp only [Text.oneLine_append]
    exact ⟨by decide, hname, by decide, htype⟩
  · next value h =>
    simp only [String.append_assoc]
    refine .declaration (by decide) ?_
    simp only [Text.oneLine_append]
    exact ⟨by decide, hname, by decide, htype, by decide, hdefault value h⟩

/-- The values of an enumeration, each indented and all but the last with a comma behind it. -/
def indentedValues (indent : String) (e : Enumeration) : List String :=
  e.values.dropLast.map (indent ++ · ++ ",") ++ e.values.getLast?.toList.map (indent ++ ·)

theorem valueLines_eq (indent : String) (e : Enumeration) :
    valueLines indent e.values = indentedValues indent e := by
  rw [indentedValues]
  induction e.values with
  | nil => rfl
  | cons value rest ih =>
    cases rest with
    | nil => rfl
    | cons next rest => simp [valueLines, ih]

theorem parts_enumerationLines (hindent : Indents indent) {e : Enumeration} (hname : OneLine e.name)
    (hvalues : ∀ v ∈ e.values, OneLine v) :
    Parts (enumerationLines indent e) [e.declaration] [(e.declaration, indentedValues indent e)]
      [] := by
  have hlines : enumerationLines indent e =
      ("enum " ++ (e.name ++ " \x7b")) :: (indentedValues indent e ++ ["\x7d"]) := by
    simp [enumerationLines, valueLines_eq, String.append_assoc]
  rw [hlines, Enumeration.declaration, String.append_assoc]
  refine .enumeration ?_ fun line hline => ?_
  · simp only [Text.oneLine_append]
    exact ⟨by decide, hname, by decide⟩
  rcases List.mem_append.mp hline with hline | hline
  · obtain ⟨v, hv, rfl⟩ := List.mem_map.mp hline
    rw [String.append_assoc]
    exact hindent.inner
      (Text.oneLine_append.mpr ⟨hvalues v (List.mem_of_mem_dropLast hv), by decide⟩)
  · obtain ⟨v, hv, rfl⟩ := List.mem_map.mp hline
    exact hindent.inner (hvalues v (List.mem_of_getLast? (Option.mem_toList.mp hv)))

/-- The lines of the body of a function, or the one that stands for no body, each indented. -/
def indentedBody (indent : String) (f : Function) : List String :=
  ((f.body.map linesOf).getD ["pass"]).map (indent ++ ·)

theorem bodyLines_eq (indent : String) (f : Function) :
    bodyLines indent f = indentedBody indent f := by
  rw [bodyLines, indentedBody]
  cases f.body <;> rfl

theorem oneLine_of_mem_linesOf (text : String) {line : String} (h : line ∈ linesOf text) :
    OneLine line := by
  obtain ⟨part, hpart, rfl⟩ := List.mem_map.mp h
  rw [OneLine, String.toList_ofList]
  exact Text.not_mem_of_mem_pieces hpart

/-- Whatever a body holds, its lines neither start a declaration nor end the function. -/
theorem inner_of_mem_indentedBody (hindent : Indents indent) {f : Function} {line : String}
    (h : line ∈ indentedBody indent f) : Inner line := by
  obtain ⟨s, hs, rfl⟩ := List.mem_map.mp h
  refine hindent.inner ?_
  cases hbody : f.body with
  | none =>
    obtain rfl : s = "pass" := by simpa [hbody] using hs
    decide
  | some body => exact oneLine_of_mem_linesOf body (by simpa [hbody] using hs)

theorem parts_functionLines (hindent : Indents indent) {f : Function} (hname : OneLine f.name)
    (hresult : OneLine f.returnType) (hparams : ∀ p ∈ f.params, OneLine p) :
    Parts (functionLines indent f) [f.declaration] [] [(f.declaration, indentedBody indent f)] := by
  have hlist := Text.oneLine_intercalate ", " (by decide) hparams
  obtain ⟨s, hs⟩ : ∃ s, f.declaration = "func " ++ s := by
    unfold Function.declaration
    split <;> simp only [String.append_assoc] <;> exact ⟨_, rfl⟩
  have hline : OneLine f.declaration := by
    unfold Function.declaration
    split <;> simp only [Text.oneLine_append]
    · exact ⟨⟨⟨⟨by decide, hname⟩, by decide⟩, hlist⟩, by decide⟩
    · exact ⟨⟨⟨⟨⟨⟨by decide, hname⟩, by decide⟩, hlist⟩, by decide⟩, hresult⟩, by decide⟩
  have hlines : functionLines indent f = f.declaration :: (indentedBody indent f ++ [""]) := by
    simp [functionLines, functionLine_eq, bodyLines_eq]
  rw [hlines]
  rw [hs] at hline ⊢
  exact .function hline fun line hmem => inner_of_mem_indentedBody hindent hmem

end Members

section Scripts

variable {indent : String} {r : ClassRecord}

theorem parts_signals (h : r.Unbroken) :
    Parts (r.signals.map Signal.declaration) (r.signals.map Signal.declaration) [] [] :=
  .map fun s hs => parts_signal (h.signals s hs).1 (h.signals s hs).2

theorem parts_constants (h : r.Unbroken) :
    Parts (r.constants.map Constant.declaration) (r.constants.map Constant.declaration) [] [] :=
  .map fun c hc =>
    (parts_constant (h.constants c hc).1 (h.constants c hc).2.1 (h.constants c hc).2.2).1

theorem parts_constantVariables (h : r.Unbroken) :
    Parts (r.constants.map Constant.variableDeclaration)
      (r.constants.map Constant.variableDeclaration) [] [] :=
  .map fun c hc =>
    (parts_constant (h.constants c hc).1 (h.constants c hc).2.1 (h.constants c hc).2.2).2

theorem parts_properties (h : r.Unbroken) (group : PropertyGroup) :
    Parts ((r.properties group).map Property.declaration)
      ((r.properties group).map Property.declaration) [] [] :=
  .map fun p hp => parts_property
    (h.properties group p hp).1 (h.properties group p hp).2.1 (h.properties group p hp).2.2

theorem parts_enums (h : r.Unbroken) (hindent : Indents indent) :
    Parts (r.enums.flatMap (enumerationLines indent)) (r.enums.map Enumeration.declaration)
      (r.enums.map fun e => (e.declaration, indentedValues indent e)) [] := by
  have hnone : (r.enums.flatMap fun _ => ([] : List (String × List String))) = [] :=
    List.flatMap_eq_nil_iff.mpr fun _ _ => rfl
  have hparts := Parts.flatMap fun e he =>
    parts_enumerationLines hindent (h.enums e he).1 (h.enums e he).2
  simpa only [← List.map_eq_flatMap, hnone] using hparts

theorem parts_functions (h : r.Unbroken) (hindent : Indents indent) :
    Parts (r.functions.flatMap (functionLines indent)) (r.functions.map Function.declaration) []
      (r.functions.map fun f => (f.declaration, indentedBody indent f)) := by
  have hnone : (r.functions.flatMap fun _ => ([] : List (String × List String))) = [] :=
    List.flatMap_eq_nil_iff.mpr fun _ _ => rfl
  have hparts := Parts.flatMap fun f hf => parts_functionLines hindent
    (h.functions f hf).1 (h.functions f hf).2.1 (h.functions f hf).2.2
  simpa only [← List.map_eq_flatMap, hnone] using hparts

theorem parts_opening (h : r.Unbroken) : Parts (opening r) [] [] [] := by
  have hlead : ∀ lead ∈ ["# Interface ", "class_name ", "extends "], ∀ s, OneLine s →
      OneLine (lead ++ s) ∧ Quiet (lead ++ s) := by
    have hwords : ∀ lead ∈ ["# Interface ", "class_name ", "extends "], OneLine lead ∧ Quiet lead ∧
        ∀ word ∈ keywords, word.toList.length ≤ lead.toList.length := by
      decide
    intro lead hmem s hs
    obtain ⟨hline, hquiet, hlong⟩ := hwords lead hmem
    exact ⟨Text.oneLine_append.mpr ⟨hline, hs⟩, hquiet.append hlong s⟩
  refine .quiet fun line hline => ?_
  rw [opening] at hline
  split at hline
  · rcases List.mem_cons.mp hline with rfl | hline
    · exact hlead _ (by simp) r.name h.name
    · have hrest : ∀ line ∈ ["# This is an interface definition - implement in concrete classes", ""],
          OneLine line ∧ Quiet line := by
        decide
      exact hrest line hline
  · simp only [List.mem_append, List.mem_singleton, Option.mem_toList, Option.map_eq_some_iff]
      at hline
    rcases hline with (rfl | ⟨p, hp, rfl⟩) | rfl
    · exact hlead _ (by simp) r.name h.name
    · exact hlead _ (by simp) p (h.parent p hp)
    · decide

def classDeclarations (r : ClassRecord) : List String :=
  r.signals.map Signal.declaration ++ r.constants.map Constant.declaration ++
    r.enums.map Enumeration.declaration ++
    (r.flags ++ r.currentProps ++ r.interfaceProps ++ r.uniqueProps).map Property.declaration ++
    r.functions.map Function.declaration

def autoloadDeclarations (r : ClassRecord) : List String :=
  r.signals.map Signal.declaration ++ r.constants.map Constant.variableDeclaration ++
    (r.flags ++ r.currentProps ++ r.uniqueProps).map Property.declaration ++
    ["func _ready():"] ++ r.functions.map Function.declaration

theorem parts_classLines (h : r.Unbroken) (hindent : Indents indent) :
    Parts (classLines indent r) (classDeclarations r)
      (r.enums.map fun e => (e.declaration, indentedValues indent e))
      (r.functions.map fun f => (f.declaration, indentedBody indent f)) := by
  have hvariables : Parts (r.allProperties.map Property.declaration)
      ((r.flags ++ r.currentProps ++ r.interfaceProps ++ r.uniqueProps).map Property.declaration)
      [] [] := by
    have hparts := (((parts_properties h .flags).append (parts_properties h .current)).append
      (parts_properties h .interface)).append (parts_properties h .unique)
    simpa [Members.allProperties, PropertyGroup.all, Members.properties] using hparts
  have hfunctions : Parts (if r.functions.isEmpty then []
      else ["# Functions"] ++ r.functions.flatMap (functionLines indent))
      (r.functions.map Function.declaration) []
      (r.functions.map fun f => (f.declaration, indentedBody indent f)) := by
    split
    · rename_i hempty
      simpa [List.isEmpty_iff.mp hempty] using Parts.nil
    · have hheading : Parts ["# Functions"] [] [] [] := .quiet (by decide)
      simpa using hheading.append (parts_functions h hindent)
  have hparts := (((((parts_opening h).append
    ((parts_signals h).block "# Signals" (by decide) (by decide))).append
    ((parts_constants h).block "# Constants" (by decide) (by decide))).append
    ((parts_enums h hindent).block "# Enums" (by decide) (by decide))).append
    (hvariables.block "# Variables" (by decide) (by decide))).append hfunctions
  simpa [classLines, classDeclarations, signalLine_eq, constantLine_eq, propertyLine_eq] using hparts

def readyBody (indent name : String) : List String :=
  [indent ++ ("print(\"" ++ (name ++ " autoload ready\")")), indent ++ "# Autoload initialization"]

theorem parts_readyLines (hindent : Indents indent) {name : String} (hname : OneLine name) :
    Parts (readyLines indent name) ["func _ready():"] []
      [("func _ready():", readyBody indent name)] := by
  have hlines : readyLines indent name =
      ("func " ++ "_ready():") :: (readyBody indent name ++ [""]) := by
    simp [readyLines, readyBody, String.append_assoc]
  rw [hlines]
  refine Parts.function (s := "_ready():") (by decide) ?_
  simp only [readyBody, List.forall_mem_cons]
  refine ⟨hindent.inner ?_, hindent.inner (by decide), by simp⟩
  simp only [Text.oneLine_append]
  exact ⟨by decide, hname, by decide⟩

theorem parts_autoloadLines (h : r.Unbroken) (hindent : Indents indent) :
    Parts (autoloadLines indent r) (autoloadDeclarations r) []
      (("func _ready():", readyBody indent r.name) ::
        r.functions.map fun f => (f.declaration, indentedBody indent f)) := by
  have hopening : Parts
      ["# Autoload: " ++ r.name, "# Generated by weave", "", "extends Node", ""] [] [] [] := by
    have hlead : Quiet "# Autoload: " := by decide
    have hrest : ∀ line ∈ ["# Generated by weave", "", "extends Node", ""],
        OneLine line ∧ Quiet line := by
      decide
    refine .quiet (List.forall_mem_cons.mpr ⟨⟨?_, hlead.append (by decide) r.name⟩, hrest⟩)
    exact Text.oneLine_append.mpr ⟨by decide, h.name⟩
  have hvariables := ((parts_constantVariables h).append (parts_properties h .flags)).append
    ((parts_properties h .current).append (parts_properties h .unique))
  have hparts := (((hopening.append
    ((parts_signals h).block "# Global signals" (by decide) (by decide))).append
    (hvariables.block "# Global variables" (by decide) (by decide))).append
    (parts_readyLines hindent h.name)).append (parts_functions h hindent)
  simpa [autoloadLines, autoloadDeclarations, globalVariables, Members.properties, signalLine_eq,
    variableLine_constant, propertyLine_eq] using hparts

/-- A script declares the members of its record, group by group and each group in order, and nothing
else. An enumeration has its values and a function its body, line by line and indented. No record that
was parsed has a text with a line feed in it. -/
theorem declares_of_unbroken :
    (∀ id source parsed, Description.parse .engine id source = .ok parsed →
        parsed.record.Unbroken) ∧
      ∀ (r : ClassRecord) (indent : String), r.Unbroken → Indents indent →
        Declares (ofClass indent r) (classDeclarations r)
            (r.enums.map fun e => (e.declaration, indentedValues indent e))
            (r.functions.map fun f => (f.declaration, indentedBody indent f)) ∧
          Declares (ofAutoload indent r) (autoloadDeclarations r) []
            (("func _ready():", readyBody indent r.name) ::
              r.functions.map fun f => (f.declaration, indentedBody indent f)) := by
  refine ⟨fun id source parsed hparse => Description.unbroken_of_parse hparse,
    fun r indent h hindent => ⟨?_, ?_⟩⟩
  · exact (parts_classLines h hindent).declares
  · exact (parts_autoloadLines h hindent).declares

/-- A class with a member of each kind and a body that holds an empty line and lines that look like
declarations. -/
def disguised : ClassRecord where
  id := "dsl_1"
  name := "A"
  signals := [⟨"died", []⟩, ⟨"hit", ["by", "points"]⟩]
  constants := [⟨"MAX", "int", "9"⟩]
  enums := [⟨"E", ["a", "\x7d"]⟩]
  flags := [⟨"alive", "bool", some "true"⟩]
  interfaceProps := [⟨"target", "Node", none⟩]
  functions := [⟨"f", [], "int", some "var x\n\nfunc g():"⟩, ⟨"g", ["x"], "void", none⟩]

theorem declares_of_unbroken_disguised :
    (linesOf (ofClass "\t" disguised)).filter isDeclaration =
        ["signal died", "signal hit(by, points)", "const MAX: int = 9", "enum E \x7b",
          "var alive: bool = true", "var target: Node", "func f() -> int:", "func g(x):"] ∧
      blocks "enum " "\x7d" (linesOf (ofClass "\t" disguised)) =
        [("enum E \x7b", some ["\ta,", "\t\x7d"])] ∧
      blocks "func " "" (linesOf (ofClass "\t" disguised)) =
        [("func f() -> int:", some ["\tvar x", "\t", "\tfunc g():"]),
          ("func g(x):", some ["\tpass"])] ∧
      (linesOf (ofAutoload "\t" disguised)).filter isDeclaration =
        ["signal died", "signal hit(by, points)", "var MAX: int = 9", "var alive: bool = true",
          "func _ready():", "func f() -> int:", "func g(x):"] := by
  have hunbroken : disguised.Unbroken :=
    { name := by decide
      parent := by decide
      signals := by decide
      constants := by decide
      enums := by decide
      properties := fun group => by cases group <;> decide
      functions := by decide }
  obtain ⟨hclass, hautoload⟩ := declares_of_unbroken.2 disguised "\t" hunbroken ⟨by decide, .inr rfl⟩
  exact ⟨hclass.declarations.trans (by decide +kernel), hclass.enums.trans (by decide +kernel),
    hclass.functions.trans (by decide +kernel), hautoload.declarations.trans (by decide +kernel)⟩

end Scripts

end Script

end Blueprint
