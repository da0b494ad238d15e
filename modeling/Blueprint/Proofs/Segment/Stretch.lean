import Blueprint.Proofs.Effects
import Blueprint.Proofs.Segment.Ranges
import Mathlib.Data.String.Basic

/-!
# Segments as byte ranges

A stretch is a segment that holds no text. It knows the bytes between which it stands in its source,
and for each of its tokens the kind and the bytes of the token. Its text is had by slicing the source
and its parts by slicing its token list, and a slice that does not fit is an error. What is cut from a
source in this way is at each step the stretch of the segment that is cut from it, and no slice is ever
out of bounds.
-/

namespace Blueprint

inductive OutOfBounds where
  /-- The bytes are not in order, not in the text, or not between characters. -/
  | bytes (start stop : Nat)
  /-- The positions are not in order or not in the list. -/
  | positions (first last : Nat)
  | column (index : Nat)

def slice (source : String) (start stop : Nat) : Except OutOfBounds String :=
  if start ≤ stop ∧ String.Pos.Raw.isValid source ⟨start⟩ ∧ String.Pos.Raw.isValid source ⟨stop⟩ then
    .ok (String.Pos.Raw.extract source ⟨start⟩ ⟨stop⟩)
  else .error (.bytes start stop)

def slicePositions {α : Type} (l : List α) (first last : Nat) : Except OutOfBounds (List α) :=
  if first ≤ last ∧ last ≤ l.length then .ok ((l.take last).drop first)
  else .error (.positions first last)

/-- A token without its text. -/
structure TokenRange where
  kind : Token.Kind
  start : Nat
  stop : Nat
  deriving DecidableEq

/-- A segment without its text. -/
structure Stretch where
  source : String
  start : Nat
  stop : Nat
  tokens : List TokenRange
  deriving DecidableEq

/-- The tokens without their texts, where the first one starts at the given byte. -/
def Token.ranges (start : Nat) (ts : List Token) : List TokenRange :=
  (spans start ts).map fun (t, start, stop) => ⟨t.kind, start, stop⟩

namespace Stretch

def ofText (source : String) : Stretch :=
  ⟨source, 0, source.utf8ByteSize, Token.ranges 0 (Token.lex source.toList)⟩

def text (s : Stretch) : Except OutOfBounds String :=
  slice s.source s.start s.stop

def trimmed (s : Stretch) : Except OutOfBounds String :=
  return String.ofList (Text.trim (← s.text).toList)

def isBlank (s : Stretch) : Bool :=
  s.tokens.all (·.kind = .gap)

def piece (s : Stretch) (start stop first last : Nat) : Except OutOfBounds Stretch :=
  return ⟨s.source, start, stop, ← slicePositions s.tokens first last⟩

/-- Cuts what is left of a stretch, where `index` is the position of the next token and the part that
is not yet ended starts at the given byte and with the token at position `first`. -/
def cutFrom (s : Stretch) (kind : Token.Kind) (start first index : Nat) :
    List TokenRange → Except OutOfBounds (List Stretch)
  | [] => return [← s.piece start s.stop first s.tokens.length]
  | t :: rest =>
    if t.kind = kind then do
      let part ← s.piece start t.start first index
      return part :: (← s.cutFrom kind t.stop (index + 1) (index + 1) rest)
    else s.cutFrom kind start first (index + 1) rest

def cut (kind : Token.Kind) (s : Stretch) : Except OutOfBounds (List Stretch) :=
  s.cutFrom kind s.start 0 0 s.tokens

def columns (s : Stretch) : Except OutOfBounds (List Stretch) :=
  s.cut .columnMark

def label? (s : Stretch) : Except OutOfBounds (Option String) :=
  match s.tokens with
  | ⟨.word, start, stop⟩ :: next :: _ =>
    if next.kind = .columnMark ∨ next.kind = .fieldMark then some <$> slice s.source start stop
    else return none
  | _ => return none

def tag? (s : Stretch) : Except OutOfBounds (Option Tag) :=
  return (← s.label?).bind Tag.ofCode?

/-- The texts between quotes in what is left of a stretch, the first of which starts at the byte. -/
def fieldsFrom (s : Stretch) (start : Nat) : List TokenRange → Except OutOfBounds (List String)
  | [] => return [← slice s.source start s.stop]
  | ⟨.fieldMark, first, last⟩ :: rest => do
    let field ← slice s.source start first
    return field :: (← s.fieldsFrom last rest)
  | ⟨.columnMark, first, last⟩ :: rest => do
    let field ← slice s.source start first
    return field :: "" :: (← s.fieldsFrom last rest)
  | _ :: rest => s.fieldsFrom start rest

def fields (s : Stretch) : Except OutOfBounds (List String) :=
  s.fieldsFrom s.start s.tokens

def withoutTag (s : Stretch) : Except OutOfBounds Stretch :=
  match s.tokens with
  | ⟨.word, _, _⟩ :: ⟨.fieldMark, _, quote⟩ :: _ => s.piece quote s.stop 2 s.tokens.length
  | [⟨.word, _, _⟩] => s.piece s.stop s.stop 1 1
  | _ => return s

def items (s : Stretch) : Except OutOfBounds (List String) := do
  (← s.cut .comma).mapM trimmed

/-- The items between commas that are not blank. -/
def group (s : Stretch) : Except OutOfBounds (List String) :=
  return (← s.items).filter (· ≠ "")

def groups (s : Stretch) : Except OutOfBounds (List (List String)) := do
  (← s.cut .bar).mapM group

end Stretch

/-- The bytes of a segment and of its tokens in a source. -/
def Segment.stretch (source : String) (s : Segment) : Stretch :=
  ⟨source, s.start, s.stop, Token.ranges s.start s.tokens⟩

theorem Text.byteSize_pos {text : List Char} (h : text ≠ []) : 0 < byteSize text := by
  obtain ⟨c, rest, rfl⟩ := List.exists_cons_of_ne_nil h
  have hpos := c.utf8Size_pos
  rw [byteSize_cons]
  omega

section Slices

theorem utf8Len_eq_byteSize (text : List Char) : String.utf8Len text = Text.byteSize text := by
  induction text with
  | nil => rfl
  | cons c text ih => rw [String.utf8Len_cons, ih, Text.byteSize_cons, Nat.add_comm]

theorem utf8ByteSize_eq_byteSize (text : String) :
    text.utf8ByteSize = Text.byteSize text.toList := by
  rw [← utf8Len_eq_byteSize, String.utf8Len_toList]

theorem isValid_byteSize {source : String} {before after : List Char}
    (h : source.toList = before ++ after) :
    String.Pos.Raw.IsValid source ⟨Text.byteSize before⟩ := by
  rw [String.Pos.Raw.isValid_iff_exists_append]
  refine ⟨String.ofList before, String.ofList after, ?_, ?_⟩
  · rw [← String.ofList_append, ← h, String.ofList_toList]
  · rw [← String.toList_ofList (l := before), ← utf8ByteSize_eq_byteSize, String.toList_ofList]
    rfl

theorem slice_eq_ok {source : String} {before text : List Char} (after : List Char)
    (h : source.toList = before ++ text ++ after) :
    slice source (Text.byteSize before) (Text.byteSize before + Text.byteSize text) =
      .ok (String.ofList text) := by
  have hstart := isValid_byteSize (h.trans (List.append_assoc before text after))
  have hstop := isValid_byteSize h
  rw [Text.byteSize_append] at hstop
  have hsource : source = String.ofList (before ++ text ++ after) := by
    rw [← h, String.ofList_toList]
  unfold slice
  rw [if_pos ⟨by omega, String.Pos.Raw.isValid_eq_true_iff.mpr hstart,
    String.Pos.Raw.isValid_eq_true_iff.mpr hstop⟩, ← utf8Len_eq_byteSize, ← utf8Len_eq_byteSize,
    hsource, String.extract_of_valid]

theorem slicePositions_append {α : Type} (before middle after : List α) :
    slicePositions (before ++ middle ++ after) before.length (before.length + middle.length) =
      .ok middle := by
  unfold slicePositions
  rw [if_pos (by simp), List.take_left' (by simp), List.drop_left]

end Slices

section Ranges

@[simp] theorem Token.ranges_nil (start : Nat) : ranges start [] = [] := rfl

@[simp] theorem Token.ranges_cons (start : Nat) (t : Token) (rest : List Token) :
    ranges start (t :: rest) =
      ⟨t.kind, start, start + t.byteSize⟩ :: ranges (start + t.byteSize) rest := rfl

theorem Token.ranges_append (start : Nat) (l r : List Token) :
    ranges start (l ++ r) = ranges start l ++ ranges (start + Text.byteSize (textOf l)) r := by
  induction l generalizing start with
  | nil => simp
  | cons t l ih => simp [ih, Token.byteSize, Nat.add_assoc]

@[simp] theorem Token.length_ranges (start : Nat) (ts : List Token) :
    (ranges start ts).length = ts.length := by
  induction ts generalizing start with
  | nil => rfl
  | cons t ts ih => simp [ih]

end Ranges

namespace Segment

variable {source : String} {s : Segment}

theorem stretch_ofText (source : String) :
    (ofText source.toList).stretch source = Stretch.ofText source := by
  rw [stretch, stop, text_ofText, Stretch.ofText, utf8ByteSize_eq_byteSize]
  simp [ofText]

theorem isBlank_stretch (source : String) (s : Segment) :
    (s.stretch source).isBlank = s.isBlank := by
  obtain ⟨start, tokens⟩ := s
  simp only [Stretch.isBlank, stretch, isBlank]
  induction tokens generalizing start with
  | nil => rfl
  | cons t rest ih =>
    rw [Token.ranges_cons, List.all_cons, List.all_cons, ih]
    cases t <;> rfl

theorem mk_cutTokens (kind : Token.Kind) (start : Nat) (ts : List Token) :
    (⟨start, (cutTokens kind start ts).1.tokens⟩ : Segment) = (cutTokens kind start ts).1 := by
  have hstart := (first_cutTokens kind start ts).1
  cases hcut : (cutTokens kind start ts).1
  simp_all

section Pieces

variable (source : String) {ts after : List Token} {start first last i j : Nat}
  (before middle : List Token)

theorem piece_stretch (after : List Token) (hts : ts = before ++ middle ++ after)
    (hfirst : first = start + Text.byteSize (Token.textOf before))
    (hlast : last = first + Text.byteSize (Token.textOf middle)) (hi : i = before.length)
    (hj : j = i + middle.length) :
    (stretch source ⟨start, ts⟩).piece first last i j = .ok (stretch source ⟨first, middle⟩) := by
  have hslice := slicePositions_append (Token.ranges start before) (Token.ranges first middle)
    (Token.ranges (start + Text.byteSize (Token.textOf (before ++ middle))) after)
  rw [hfirst, Token.length_ranges, Token.length_ranges, ← Token.ranges_append,
    ← Token.ranges_append, ← hts, ← hfirst, ← hi, ← hj] at hslice
  rw [Stretch.piece, stretch, hslice, hlast]
  rfl

/-- What is left to cut of a segment, when the part that is not yet ended has the tokens in the
middle. -/
theorem cutFrom_stretch (kind : Token.Kind) (hts : ts = before ++ middle ++ after)
    (hfirst : first = start + Text.byteSize (Token.textOf before))
    (hlast : last = first + Text.byteSize (Token.textOf middle)) (hi : i = before.length)
    (hj : j = i + middle.length) :
    (stretch source ⟨start, ts⟩).cutFrom kind first i j (Token.ranges last after) =
      .ok ((⟨first, middle ++ (cutTokens kind last after).1.tokens⟩ ::
        (cutTokens kind last after).2).map (stretch source)) := by
  induction after generalizing before middle first last i j with
  | nil =>
    have hpiece := piece_stretch source before middle [] hts hfirst hlast hi hj
    have hstop : (stretch source ⟨start, ts⟩).stop = last := by
      simp [stretch, stop, text, hts, hlast, hfirst, Nat.add_assoc]
    have hlength : (stretch source ⟨start, ts⟩).tokens.length = j := by
      simp [stretch, hts, hi, hj]
    rw [Token.ranges_nil, Stretch.cutFrom, hstop, hlength, hpiece, cutTokens, List.append_nil]
    rfl
  | cons t rest ih =>
    have hpiece := piece_stretch source before middle (t :: rest) hts hfirst hlast hi hj
    have hnext : last + t.byteSize =
        start + Text.byteSize (Token.textOf (before ++ middle ++ [t])) := by
      simp [hlast, hfirst, Token.byteSize, Nat.add_assoc]
    have hindex : j + 1 = (before ++ middle ++ [t]).length := by
      simp [hi, hj]
      omega
    rw [Token.ranges_cons, Stretch.cutFrom]
    by_cases ht : t.kind = kind
    · -- The part ends here, and the next one starts behind the token.
      have hrest := ih (before ++ middle ++ [t]) [] (by simp [hts]) hnext
        (Nat.add_zero (last + t.byteSize)).symm hindex (Nat.add_zero (j + 1)).symm
      rw [List.nil_append, mk_cutTokens] at hrest
      rw [if_pos ht, hpiece, hrest, cutTokens]
      simp only [if_pos ht, List.append_nil]
      rfl
    · -- The token joins the part.
      have hlonger : last + t.byteSize = first + Text.byteSize (Token.textOf (middle ++ [t])) := by
        simp [hlast, Token.byteSize, Nat.add_assoc]
      have hcount : j + 1 = i + (middle ++ [t]).length := by
        simp [hj, Nat.add_assoc]
      have hrest := ih before (middle ++ [t]) (by simp [hts]) hfirst hlonger hi hcount
      rw [if_neg ht, hrest, cutTokens]
      simp [ht]

end Pieces

/-- Cutting a segment is cutting its stretch. -/
theorem cut_stretch (source : String) (kind : Token.Kind) (s : Segment) :
    (s.stretch source).cut kind = .ok ((s.cut kind).map (stretch source)) := by
  have hall : (s.stretch source).cutFrom kind s.start 0 0 (Token.ranges s.start s.tokens) = _ :=
    cutFrom_stretch source [] [] kind rfl rfl rfl rfl rfl
  rwa [List.nil_append, mk_cutTokens] at hall

theorem withoutTag_stretch (source : String) (s : Segment) :
    (s.stretch source).withoutTag = .ok (s.withoutTag.stretch source) := by
  obtain ⟨start, tokens⟩ := s
  cases tokens with
  | nil => rfl
  | cons t rest =>
    cases t with
    | word w =>
      cases rest with
      | nil =>
        let s : Segment := ⟨start, [.word w]⟩
        have hstop : (s.stretch source).stop = start + Text.byteSize w := by
          simp [s, stretch, stop, text, Token.text]
        calc (s.stretch source).withoutTag
            = (s.stretch source).piece (s.stretch source).stop (s.stretch source).stop 1 1 := rfl
          _ = .ok (stretch source ⟨start + Text.byteSize w, []⟩) := by
            rw [hstop]
            exact piece_stretch source [.word w] [] [] rfl
              (by simp [Token.text]) rfl rfl rfl
      | cons u rest =>
        cases u with
        | fieldMark =>
          let s : Segment := ⟨start, .word w :: .fieldMark :: rest⟩
          have hquote : '\''.utf8Size = 1 := rfl
          have hstop : (s.stretch source).stop =
              start + Text.byteSize w + 1 + Text.byteSize (Token.textOf rest) := by
            simp [s, stretch, stop, text, Token.text, hquote, Nat.add_assoc]
          calc (s.stretch source).withoutTag
              = (s.stretch source).piece (start + Text.byteSize w + 1) (s.stretch source).stop 2
                  (s.stretch source).tokens.length := rfl
            _ = .ok (stretch source ⟨start + Text.byteSize w + 1, rest⟩) := by
              refine piece_stretch source [.word w, .fieldMark] rest [] (by simp) ?_ hstop
                rfl ?_
              · simp [Token.text, hquote, Nat.add_assoc]
              · simp only [s, stretch, Token.length_ranges, List.length_cons]
                omega
        | _ => rfl
    | _ => rfl

section Texts

variable {source : String} {s : Segment} (h : Within source.toList s)

include h

theorem text_stretch : (s.stretch source).text = .ok (String.ofList s.text) := by
  obtain ⟨before, after, hsource, hstart⟩ := h
  have hslice := slice_eq_ok after hsource
  rwa [← hstart] at hslice

theorem trimmed_stretch : (s.stretch source).trimmed = .ok s.trimmed := by
  have hletters : (String.ofList s.text).toList = s.text := String.toList_ofList
  rw [Stretch.trimmed, text_stretch h]
  exact congrArg (fun letters => Except.ok (String.ofList (Text.trim letters))) hletters

theorem label?_stretch : (s.stretch source).label? = .ok s.label? := by
  obtain ⟨before, after, hsource, hstart⟩ := h
  obtain ⟨start, tokens⟩ := s
  cases tokens with
  | nil => rfl
  | cons t rest =>
    cases t with
    | word w =>
      cases rest with
      | nil => rfl
      | cons u rest =>
        have hslice : slice source start (start + Text.byteSize w) = .ok (String.ofList w) := by
          subst hstart
          exact slice_eq_ok (u.text ++ Token.textOf rest ++ after)
            (by simpa [text, Token.text] using hsource)
        have hword : slice source start (start + (Token.word w).byteSize) =
          .ok (String.ofList w) := hslice
        cases u with
        | columnMark | fieldMark =>
          simp only [Stretch.label?, stretch, Token.ranges_cons, Token.kind, hword]
          rfl
        | _ => rfl
    | _ => rfl

theorem tag?_stretch : (s.stretch source).tag? = .ok s.tag? := by
  rw [Stretch.tag?, label?_stretch h]
  rfl

end Texts

section Fields

variable {source : String}

/-- What is left of the fields of a segment, when the characters in the middle were read since the
last quote. -/
theorem fieldsFrom_stretch {s : Segment} (before middle : List Char) {after : List Char}
    {ts : List Token} {start first : Nat}
    (hsource : source.toList = before ++ middle ++ Token.textOf ts ++ after)
    (hstart : start = Text.byteSize before) (hfirst : first = start + Text.byteSize middle)
    (hstop : s.stop = first + Text.byteSize (Token.textOf ts)) :
    (s.stretch source).fieldsFrom start (Token.ranges first ts) =
      .ok (((fieldsOf ts).modifyHead (middle ++ ·)).map String.ofList) := by
  induction ts generalizing before middle start first with
  | nil =>
    have hslice : slice source start first = .ok (String.ofList middle) := by
      rw [hfirst, hstart]
      exact slice_eq_ok after (by simpa using hsource)
    have hlast : (s.stretch source).stop = first := hstop
    rw [Token.ranges_nil, Stretch.fieldsFrom, hlast, stretch, hslice]
    simp [fieldsOf]
  | cons t rest ih =>
    have hslice : slice (s.stretch source).source start first = .ok (String.ofList middle) := by
      rw [hfirst, hstart, stretch]
      exact slice_eq_ok (Token.textOf (t :: rest) ++ after) (by simpa using hsource)
    -- Behind a quote no character has been read.
    have hbehind : first + t.byteSize = Text.byteSize (before ++ middle ++ t.text) := by
      simp [hfirst, hstart, Token.byteSize, Nat.add_assoc]
    have hlonger : first + t.byteSize = start + Text.byteSize (middle ++ t.text) := by
      simp [hfirst, Token.byteSize, Nat.add_assoc]
    have hend : s.stop = first + t.byteSize + Text.byteSize (Token.textOf rest) := by
      simp [hstop, Token.byteSize, Nat.add_assoc]
    have hquote := ih (before ++ middle ++ t.text) [] (by simpa using hsource) hbehind
      (Nat.add_zero (first + t.byteSize)).symm hend
    have hother := ih before (middle ++ t.text) (by simpa using hsource) hstart hlonger hend
    have hhead : (fieldsOf rest).modifyHead (([] : List Char) ++ ·) = fieldsOf rest := by
      cases fieldsOf rest <;> rfl
    have hjoin : ((fieldsOf rest).modifyHead (t.text ++ ·)).modifyHead (middle ++ ·) =
        (fieldsOf rest).modifyHead (middle ++ t.text ++ ·) := by
      cases fieldsOf rest <;> simp
    rw [hhead] at hquote
    rw [← hjoin] at hother
    rw [Token.ranges_cons]
    cases t with
    | fieldMark =>
      simp only [Token.kind, Stretch.fieldsFrom, hslice, hquote, fieldsOf]
      simp
      rfl
    | columnMark =>
      simp only [Token.kind, Stretch.fieldsFrom, hslice, hquote, fieldsOf]
      simp
      rfl
    | _ => exact hother

theorem fields_stretch {s : Segment} (h : Within source.toList s) :
    (s.stretch source).fields = .ok (s.fields.map String.ofList) := by
  obtain ⟨before, after, hsource, hstart⟩ := h
  have hwhole : source.toList = before ++ [] ++ Token.textOf s.tokens ++ after := by
    simpa [text] using hsource
  have hfields := fieldsFrom_stretch before [] hwhole hstart rfl rfl
  have hhead : (fieldsOf s.tokens).modifyHead (([] : List Char) ++ ·) = fieldsOf s.tokens := by
    cases fieldsOf s.tokens <;> rfl
  rwa [hhead] at hfields

end Fields

theorem items_stretch {source : String} {s : Segment} (h : Within source.toList s) :
    (s.stretch source).items = .ok s.items := by
  have hparts : ((s.cut .comma).map (stretch source)).mapM Stretch.trimmed = .ok s.items := by
    rw [List.mapM_map]
    exact mapM_eq_ok fun part hpart => trimmed_stretch (h.of_mem_cut hpart)
  rw [Stretch.items, cut_stretch]
  exact hparts

theorem groups_stretch {source : String} {s : Segment} (h : Within source.toList s) :
    (s.stretch source).groups = .ok s.groups := by
  have hparts : ((s.cut .bar).map (stretch source)).mapM Stretch.group = .ok s.groups := by
    rw [List.mapM_map]
    refine mapM_eq_ok fun part hpart => ?_
    rw [Function.comp_apply, Stretch.group, items_stretch (h.of_mem_cut hpart)]
    rfl
  rw [Stretch.groups, cut_stretch]
  exact hparts

end Segment

namespace Stretch

/-- What can be had of a source by cutting at tokens and taking off tags, any number of times. -/
inductive Reached (source : String) : Stretch → Prop
  | whole : Reached source (ofText source)
  | cut {s part : Stretch} {kind : Token.Kind} {parts : List Stretch} (h : Reached source s)
      (hparts : s.cut kind = .ok parts) (hp : part ∈ parts) : Reached source part
  | withoutTag {s rest : Stretch} (h : Reached source s) (hrest : s.withoutTag = .ok rest) :
      Reached source rest

/-- The tokens stand one behind the other from the one byte to the other, and none is empty. -/
def Tiles : Nat → List TokenRange → Nat → Prop
  | start, [], stop => start = stop
  | start, t :: rest, stop => t.start = start ∧ start < t.stop ∧ Tiles t.stop rest stop

/-- The stretch lies in its source and between characters, and its tokens fill it. -/
structure Sound (s : Stretch) : Prop where
  ordered : s.start ≤ s.stop
  inside : s.stop ≤ s.source.utf8ByteSize
  startValid : String.Pos.Raw.IsValid s.source ⟨s.start⟩
  stopValid : String.Pos.Raw.IsValid s.source ⟨s.stop⟩
  filled : Tiles s.start s.tokens s.stop

/-- Each stretch that is cut from a source is that of a segment which is cut from it. -/
theorem Reached.exists_segment {source : String} {s : Stretch} (h : Reached source s) :
    ∃ segment, Segment.Reached source.toList segment ∧ s = segment.stretch source := by
  induction h with
  | whole => exact ⟨_, .whole, (Segment.stretch_ofText source).symm⟩
  | cut _ hparts hp ih =>
    obtain ⟨segment, hsegment, rfl⟩ := ih
    rw [Segment.cut_stretch] at hparts
    obtain rfl := Except.ok.inj hparts
    obtain ⟨part, hpart, rfl⟩ := List.mem_map.mp hp
    exact ⟨part, hsegment.cut hpart, rfl⟩
  | withoutTag _ hrest ih =>
    obtain ⟨segment, hsegment, rfl⟩ := ih
    rw [Segment.withoutTag_stretch] at hrest
    obtain rfl := Except.ok.inj hrest
    exact ⟨_, hsegment.withoutTag, rfl⟩

theorem Reached.of_segment {source : String} {s : Segment}
    (h : Segment.Reached source.toList s) : Reached source (s.stretch source) := by
  induction h with
  | whole => exact Segment.stretch_ofText source ▸ .whole
  | cut _ hp ih => exact ih.cut (Segment.cut_stretch source _ _) (List.mem_map_of_mem hp)
  | withoutTag _ ih => exact ih.withoutTag (Segment.withoutTag_stretch source _)

end Stretch

namespace Segment

theorem Lexed.isBlank_iff_trimmed {s : Segment} (h : s.Lexed) :
    s.isBlank = true ↔ s.trimmed = "" := by
  have hempty : s.trimmed = "" ↔ Text.trim s.text = [] :=
    ⟨fun htrim => String.ofList_injective htrim, fun htrim => congrArg String.ofList htrim⟩
  rw [h.isBlank_iff, hempty, Text.trim_eq_nil_iff]

theorem tiles_ranges {ts : List Token} (h : ∀ t ∈ ts, t.Valid) (start : Nat) :
    Stretch.Tiles start (Token.ranges start ts) (start + Text.byteSize (Token.textOf ts)) := by
  induction ts generalizing start with
  | nil => rfl
  | cons t rest ih =>
    have hpos : 0 < t.byteSize := Text.byteSize_pos (Token.text_ne_nil (h t List.mem_cons_self))
    have hrest := ih (fun u hu => h u (List.mem_cons_of_mem t hu)) (start + t.byteSize)
    have hstop : start + Text.byteSize (Token.textOf (t :: rest)) =
        start + t.byteSize + Text.byteSize (Token.textOf rest) := by
      simp [Token.byteSize, Nat.add_assoc]
    rw [Token.ranges_cons, hstop]
    exact ⟨rfl, Nat.lt_add_of_pos_right hpos, hrest⟩

theorem sound_stretch {source : String} {s : Segment} (hwithin : Within source.toList s)
    (hlexed : s.Lexed) : (s.stretch source).Sound := by
  obtain ⟨before, after, hsource, hstart⟩ := hwithin
  have hstop : s.stop = Text.byteSize (before ++ s.text) := by
    rw [stop, hstart, Text.byteSize_append]
  exact
    { ordered := Nat.le_add_right _ _
      inside := by
        show s.stop ≤ source.utf8ByteSize
        rw [hstop, utf8ByteSize_eq_byteSize, hsource, Text.byteSize_append (before ++ s.text)]
        exact Nat.le_add_right _ _
      startValid := by
        show String.Pos.Raw.IsValid source ⟨s.start⟩
        rw [hstart]
        exact isValid_byteSize (hsource.trans (List.append_assoc before s.text after))
      stopValid := by
        show String.Pos.Raw.IsValid source ⟨s.stop⟩
        rw [hstop]
        exact isValid_byteSize hsource
      filled := tiles_ranges hlexed.valid s.start }

end Segment

end Blueprint
