import Blueprint.Identity
import Blueprint.Proofs.Description.Faults
import Blueprint.Proofs.Effects
import Mathlib.Data.List.Nodup
import Std.Data.String.ToNat

/-!
# Ids from a shared source

A parser and its clones share one id source, while each of them has a table of its own. The source
keeps its number in a word of 64 bits, which starts again at zero after the largest one. Every call of
one of the parsers takes one id, whatever comes of it, so as long as the word does not start again the
ids count the calls.
-/

namespace Blueprint

namespace IdSource

theorem nth_inj {stem : String} {m n : Nat} : nth stem m = nth stem n ↔ m = n := by
  constructor
  · intro h
    have hdecimals : toString m = toString n := by simpa [nth, ← String.toList_inj] using h
    exact Nat.repr_inj.mp hdecimals
  · rintro rfl
    rfl

/-- The one id was given out for a smaller number than the other. -/
def Precedes (stem id later : String) : Prop :=
  ∃ m n, m < n ∧ id = nth stem m ∧ later = nth stem n

theorem Precedes.ne {stem id later : String} (h : Precedes stem id later) : id ≠ later := by
  obtain ⟨m, n, hlt, rfl, rfl⟩ := h
  intro heq
  have := nth_inj.mp heq
  omega

end IdSource

theorem Description.id_of_parse {table : DefaultTable} {id source : String} {parsed : Parsed}
    (h : parse table id source = .ok parsed) : parsed.record.id = id := by
  unfold parse at h
  dsimp only at h
  split at h
  · cases h
  · split at h
    · cases h
    · cases h
      rfl
  · cases h

/-- An id source as its parsers share it. -/
structure SharedIds where
  stem : String
  next : UInt64 := 1

namespace SharedIds

def source (ids : SharedIds) : IdSource :=
  ⟨ids.stem, ids.next.toNat⟩

/-- What is kept of the source that a parser leaves. -/
def ofSource (ids : IdSource) : SharedIds :=
  ⟨ids.stem, UInt64.ofNat ids.next⟩

end SharedIds

/-- An action of the parser that has this table, among those that share a source. -/
def Parser.sharing {α : Type} (table : DefaultTable) (action : StateM Parser α) :
    StateM SharedIds α := fun ids =>
  let (answer, parser) := action ⟨table, ids.source⟩
  (answer, .ofSource parser.ids)

inductive Request where
  | parse (source : String)
  | parseWithDiagnostics (source : String)
  | create (name : String) (kind : ClassKind)

inductive Answer where
  | record (result : Except HeaderFault ClassRecord)
  | parsed (result : Except HeaderFault Parsed)
  | created (r : ClassRecord)

/-- The record in an answer; a description at fault gives none. -/
def Answer.record? : Answer → Option ClassRecord
  | record result => result.toOption
  | parsed result => result.toOption.map Parsed.record
  | created r => some r

def Request.answer : Request → StateM Parser Answer
  | parse source => return .record ((← Parser.parse source).map Parsed.record)
  | parseWithDiagnostics source => return .parsed (← Parser.parse source)
  | create name kind => return .created (← Parser.create name kind)

structure Call where
  table : DefaultTable
  request : Request

namespace Call

def run (call : Call) : StateM SharedIds Answer :=
  Parser.sharing call.table call.request.answer

def runAll : List Call → StateM SharedIds (List Answer)
  | [] => return []
  | call :: calls => do
    let answer ← call.run
    return answer :: (← runAll calls)

/-- The answer to a call for which this id is taken. -/
def answerUnder (call : Call) (id : String) : Answer :=
  match call.request with
  | .parse source => .record ((Description.parse call.table id source).map Parsed.record)
  | .parseWithDiagnostics source => .parsed (Description.parse call.table id source)
  | .create name kind => .created { id, name, kind }

theorem id_of_answerUnder {call : Call} {id : String} {r : ClassRecord}
    (h : (call.answerUnder id).record? = some r) : r.id = id := by
  unfold answerUnder at h
  split at h
  · cases hparse : Description.parse call.table id _ with
    | error fault => rw [hparse] at h; cases h
    | ok parsed =>
      rw [hparse] at h
      cases h
      exact Description.id_of_parse hparse
  · cases hparse : Description.parse call.table id _ with
    | error fault => rw [hparse] at h; cases h
    | ok parsed =>
      rw [hparse] at h
      cases h
      exact Description.id_of_parse hparse
  · cases h
    rfl

/-- One call takes one id, whatever its answer is. -/
theorem run_apply (call : Call) (ids : SharedIds) :
    call.run ids = (call.answerUnder (IdSource.nth ids.stem ids.next.toNat),
      { ids with next := ids.next + 1 }) := by
  have hnext : SharedIds.ofSource { ids.source with next := ids.next.toNat + 1 } =
      { ids with next := ids.next + 1 } := by
    simp [SharedIds.ofSource, SharedIds.source]
  obtain ⟨table, request⟩ := call
  cases request <;> exact Prod.ext rfl hnext

/-- The id that a source gives out for a call, when that many calls came before. -/
def idAfter (ids : SharedIds) (calls : Nat) : String :=
  IdSource.nth ids.stem (ids.next + UInt64.ofNat calls).toNat

theorem idAfter_zero (ids : SharedIds) : idAfter ids 0 = IdSource.nth ids.stem ids.next.toNat := by
  simp [idAfter]

theorem idAfter_succ (ids : SharedIds) (calls : Nat) :
    idAfter { ids with next := ids.next + 1 } calls = idAfter ids (calls + 1) := by
  simp [idAfter, UInt64.ofNat_add, UInt64.add_assoc, UInt64.add_comm 1]

theorem runAll_apply (calls : List Call) (ids : SharedIds) :
    runAll calls ids = (calls.mapIdx fun k call => call.answerUnder (idAfter ids k),
      { ids with next := ids.next + UInt64.ofNat calls.length }) := by
  induction calls generalizing ids with
  | nil => simp [runAll, pure_apply]
  | cons call calls ih =>
    rw [runAll, bind_apply, run_apply, bind_apply, ih, pure_apply]
    refine Prod.ext ?_ ?_
    · simp [List.mapIdx_cons, idAfter_zero, idAfter_succ]
    · simp [UInt64.ofNat_add, UInt64.add_assoc, UInt64.add_comm 1]

theorem getElem?_runAll (calls : List Call) (ids : SharedIds) (k : Nat) :
    (runAll calls ids).1[k]? = calls[k]?.map fun call => call.answerUnder (idAfter ids k) := by
  rw [runAll_apply]
  exact List.getElem?_mapIdx

theorem toNat_wordAfter {calls : Nat} (h : calls < UInt64.size - 1) :
    ((1 : UInt64) + UInt64.ofNat calls).toNat = calls + 1 := by
  unfold UInt64.size at h
  rw [UInt64.toNat_add, UInt64.toNat_ofNat', UInt64.toNat_one]
  omega

theorem idAfter_first {calls : Nat} (stem : String) (h : calls < UInt64.size - 1) :
    idAfter { stem } calls = stem ++ toString (calls + 1) := by
  rw [idAfter, toNat_wordAfter h]
  rfl

theorem source_runAll {calls : List Call} (stem : String) (h : calls.length < UInt64.size - 1) :
    (runAll calls { stem }).2.source = ⟨stem, calls.length + 1⟩ := by
  rw [runAll_apply, SharedIds.source, toNat_wordAfter h]

section Results

/-- In any run of fewer than `UInt64.size - 1` calls of a parser and its clones, the source is taken from
once for each call, and what it gives out for the call is the stem with the number of the call behind
it, whether or not there is a record in the answer. A record in the answer has this id. So the ids of
the records are counted upwards and all differ, and another call in the place of one leaves the answers
to all others as they are. -/
theorem ids_of_calls (stem : String) (calls : List Call) (h : calls.length < UInt64.size - 1) :
    let answers := (runAll calls { stem }).1
    (∀ k call, calls[k]? = some call →
      let ids := (runAll (calls.take k) { stem }).2
      ids.source.take.1 = stem ++ toString (k + 1) ∧
        (runAll (calls.take (k + 1)) { stem }).2.source = ids.source.take.2 ∧
        answers[k]? = some (call.answerUnder (stem ++ toString (k + 1)))) ∧
      (∀ k answer r, answers[k]? = some answer → answer.record? = some r →
        r.id = stem ++ toString (k + 1)) ∧
      ((answers.filterMap Answer.record?).map (·.id)).Pairwise (IdSource.Precedes stem) ∧
      ((answers.filterMap Answer.record?).map (·.id)).Nodup ∧
      ∀ k other j, j ≠ k → (runAll (calls.set k other) { stem }).1[j]? = answers[j]? := by
  intro answers
  have hget : ∀ k : Nat, answers[k]? = calls[k]?.map fun call =>
      call.answerUnder (idAfter { stem } k) := getElem?_runAll calls { stem }
  have hanswer : ∀ (k : Nat) (call : Call), calls[k]? = some call →
      answers[k]? = some (call.answerUnder (stem ++ toString (k + 1))) := by
    intro k call hcall
    obtain ⟨hk, -⟩ := List.getElem?_eq_some_iff.mp hcall
    rw [hget, hcall, Option.map_some, idAfter_first stem (by omega)]
  have hid : ∀ (k : Nat) (answer : Answer) (r : ClassRecord), answers[k]? = some answer →
      answer.record? = some r → r.id = stem ++ toString (k + 1) := by
    intro k answer r hk hr
    obtain ⟨call, hcall, -⟩ := Option.map_eq_some_iff.mp ((hget k).symm.trans hk)
    obtain rfl := Option.some.inj (hk.symm.trans (hanswer k call hcall))
    exact id_of_answerUnder hr
  have hprecedes : ((answers.filterMap Answer.record?).map (·.id)).Pairwise
      (IdSource.Precedes stem) := by
    rw [List.pairwise_map, List.pairwise_filterMap, List.pairwise_iff_getElem]
    intro i j hi hj hlt r hr s hs
    have hrid := hid i _ r (List.getElem?_eq_getElem hi) hr
    have hsid := hid j _ s (List.getElem?_eq_getElem hj) hs
    exact ⟨i + 1, j + 1, by omega, hrid, hsid⟩
  refine ⟨fun k call hcall => ?_, hid, hprecedes, hprecedes.imp fun hlt => hlt.ne, ?_⟩
  · obtain ⟨hk, -⟩ := List.getElem?_eq_some_iff.mp hcall
    have hbefore : (calls.take k).length = k := List.length_take_of_le (by omega)
    have hafter : (calls.take (k + 1)).length = k + 1 := List.length_take_of_le (by omega)
    intro ids
    have hids : ids.source = ⟨stem, k + 1⟩ := by
      rw [source_runAll stem (by omega), hbefore]
    refine ⟨?_, ?_, hanswer k call hcall⟩
    · rw [hids]
      rfl
    · rw [hids, source_runAll stem (by omega), hafter]
      rfl
  · intro k other j hne
    rw [getElem?_runAll, hget, List.getElem?_set_ne (Ne.symm hne)]

/-- A parser and a clone with a table of its own; the second call finds no header. -/
theorem ids_of_calls_with_fault :
    let parser := Call.mk .engine
    let clone := Call.mk ⟨fun _ => "0"⟩
    let calls := [parser (.parse "Cl'A"), clone (.parseWithDiagnostics "cn'x''int''1"),
      clone (.create "B" .normal), parser (.parseWithDiagnostics "Cl'C;zz")]
    let answers := (runAll calls { stem := "run1" }).1
    answers[1]? = some (.parsed (.error .missing)) ∧
      answers[2]? = some (.created { id := "run13", name := "B" }) ∧
      ((answers.filterMap Answer.record?).map (·.id)).Nodup := by
  intro parser clone calls answers
  obtain ⟨hcalls, -, -, hnodup, -⟩ := ids_of_calls "run1" calls (by decide)
  refine ⟨?_, (hcalls 2 _ rfl).2.2, hnodup⟩
  have hparse : Description.parse ⟨fun _ => "0"⟩ "run12" "cn'x''int''1" = .error .missing :=
    Description.parse_eq_error_iff_headerFault?.mpr (by decide +kernel)
  have hanswer : answers[1]? = some ((clone (.parseWithDiagnostics "cn'x''int''1")).answerUnder
    "run12") := (hcalls 1 _ rfl).2.2
  rw [hanswer]
  exact congrArg (fun result => some (Answer.parsed result)) hparse

/-- After the largest word the numbers start again. -/
example (call : Call) (stem : String) : (call.run ⟨stem, 0xFFFFFFFFFFFFFFFF⟩).2.next = 0 := by
  have hword : (0xFFFFFFFFFFFFFFFF : UInt64) + 1 = 0 := by decide
  rw [run_apply]
  exact hword

end Results

end Call

end Blueprint
