import Blueprint.Proofs.Canonical.Image

/-!
# What every parsed record has in common

Whatever a description looks like, the texts of its record have no layout of their own and hold none
of the marks that cut them out, the kind is that of the name, each property that must have a default
has one, and each function has the body that stands for a missing one.
-/

namespace Blueprint

open Text (isBlank)

/-- The text is not empty and neither starts nor ends with a blank. It holds no mark of sections and
no pair of quotes, and each blank in it is a single space that no quote stands beside. -/
structure Text.Clean (s : String) : Prop where
  ne_empty : s ≠ ""
  head : ∀ c ∈ s.toList.head?, isBlank c = false
  last : ∀ c ∈ s.toList.getLast?, isBlank c = false
  uncut : ';' ∉ s.toList
  unpaired : ¬['\'', '\''] <:+: s.toList
  space : ∀ l c r, s.toList = l ++ c :: r → isBlank c = true →
    c = ' ' ∧ (∀ d ∈ l.getLast?, isBlank d = false ∧ d ≠ '\'') ∧
      ∀ d ∈ r.head?, isBlank d = false ∧ d ≠ '\''

theorem Canonical.Phrase.clean {s : String} (h : Phrase s) : Text.Clean s where
  ne_empty := h.ne_empty
  head := h.tight.head?
  last := h.tight.getLast?
  uncut := h.uncut
  unpaired := by
    intro hpair
    have hquotes : Text.Unpaired ['\'', '\''] := h.unpaired.stretch hpair
    simp [Text.Unpaired] at hquotes
  space := by
    intro l c r hs hc
    have htight : Layout.Tight (l ++ c :: r) := hs ▸ h.tight
    have hquote : ∀ d, Layout.isEdge d = false → d ≠ '\'' := by
      rintro d hd rfl
      exact absurd hd (by decide)
    obtain ⟨hspace, hbefore, hafter⟩ := htight.blank hc
    exact ⟨hspace, fun d hd => ⟨(hbefore d hd).1, hquote d (hbefore d hd).2⟩,
      fun d hd => ⟨(hafter d hd).1, hquote d (hafter d hd).2⟩⟩

/-- The record is as parsing makes it: its texts are clean and hold no mark that cuts them out, its
kind is that of its name, and what a description does not say has its substitute. -/
structure ClassRecord.Tidy (r : ClassRecord) : Prop where
  name : Text.Clean r.name ∧ '\'' ∉ r.name.toList
  kind : r.kind = ClassKind.infer r.name
  parent : ∀ p ∈ r.parent, Text.Clean p ∧ '\'' ∉ p.toList
  interfaces : ∀ i ∈ r.interfaces, Text.Clean i ∧ '\'' ∉ i.toList ∧ ',' ∉ i.toList
  members : r.toMembers.Spelled (fun s => Text.Clean s ∧ ',' ∉ s.toList) Text.Clean
    fun s => Text.Clean s ∧ ',' ∉ s.toList ∧ '|' ∉ s.toList
  default : ∀ group ≠ PropertyGroup.interface, ∀ p ∈ r.properties group, p.default.isSome = true
  body : ∀ f ∈ r.functions, f.body = some ("# Implement " ++ f.name)
  position : r.position = ⟨0, 0⟩

namespace Members

variable {literals : DefaultTable} {m : Members}

/-- Members that are written as they are have all the defaults that a description must give. -/
theorem isSome_default_of_written (h : m.written literals = m) {group : PropertyGroup}
    (hgroup : group ≠ .interface) : ∀ p ∈ m.properties group, p.default.isSome = true := by
  have hfilled : (m.properties group).map (·.filled literals) = m.properties group := by
    conv_rhs => rw [← h]
    cases group with
    | interface => exact absurd rfl hgroup
    | _ => rfl
  intro p hp
  rw [← hfilled] at hp
  obtain ⟨q, -, rfl⟩ := List.mem_map.mp hp
  rfl

theorem body_of_written (h : m.written literals = m) :
    ∀ f ∈ m.functions, f.body = some ("# Implement " ++ f.name) := by
  have hbodiless : m.functions.map Function.bodiless = m.functions := congrArg functions h
  intro f hf
  rw [← hbodiless] at hf
  obtain ⟨g, -, rfl⟩ := List.mem_map.mp hf
  rfl

end Members

namespace Description

/-- Every record that is parsed with the engine's literals is tidy. -/
theorem tidy_of_parse (id s : String) (p : Parsed) (h : parse .engine id s = .ok p) :
    p.record.Tidy := by
  have hliteral : ∀ type, Canonical.Entry (DefaultTable.engine.literal type) :=
    fun type => (Canonical.cell_engine type).entry
  obtain ⟨hspelled, hwritten, hkind, hposition⟩ := canonical_of_parse hliteral h
  exact
    { name := ⟨hspelled.name.clean, hspelled.name.quote⟩
      kind := hkind
      parent := fun p hp => ⟨(hspelled.parent p hp).clean, (hspelled.parent p hp).quote⟩
      interfaces := fun i hi =>
        have hentry := (hspelled.interfaces i hi).1
        ⟨hentry.clean, (hspelled.interfaces i hi).2, hentry.comma⟩
      members := hspelled.members.imp (fun _ h => ⟨h.clean, h.comma⟩) (fun _ h => h.clean)
        fun _ h => ⟨h.clean, h.comma, h.bar⟩
      default := fun _ hgroup => Members.isSome_default_of_written hwritten hgroup
      body := Members.body_of_written hwritten
      position := hposition }

theorem tidy_of_parse_ragged :
    ∃ p, parse .engine "dsl_1"
        " fn ' a , b , ,c '' ' '' |x  y,; ;Cl '  IA ,B ''  I , J '; cp'v''int''" = .ok p ∧
      p.record.Tidy ∧ p.record.name = "IA ,B" ∧ p.record.kind = .interface ∧
      p.record.parent = none ∧ p.record.interfaces = ["I", "J"] ∧
      p.record.currentProps = [⟨"v", "int", some "0"⟩] ∧
      p.record.functions =
        [⟨"a", ["'"], "void", some "# Implement a"⟩, ⟨"b", ["x y"], "void", some "# Implement b"⟩,
          ⟨"c", [], "void", some "# Implement c"⟩] := by
  have hread : (parse .engine "dsl_1"
      " fn ' a , b , ,c '' ' '' |x  y,; ;Cl '  IA ,B ''  I , J '; cp'v''int''").toOption.map
        (fun p => ((p.record.name, p.record.parent, p.record.interfaces), p.record.currentProps,
          p.record.functions)) =
      some (("IA ,B", none, ["I", "J"]), [⟨"v", "int", some "0"⟩],
        [⟨"a", ["'"], "void", some "# Implement a"⟩, ⟨"b", ["x y"], "void", some "# Implement b"⟩,
          ⟨"c", [], "void", some "# Implement c"⟩]) := by
    decide +kernel
  obtain ⟨p, hp, hvalues⟩ := exists_parse_of_map hread
  simp only [Prod.mk.injEq] at hvalues
  obtain ⟨⟨hname, hparent, hinterfaces⟩, hprops, hfunctions⟩ := hvalues
  have htidy := tidy_of_parse "dsl_1" _ p hp
  refine ⟨p, hp, htidy, hname, ?_, hparent, hinterfaces, hprops, hfunctions⟩
  rw [htidy.kind, hname]
  decide

end Description

end Blueprint
