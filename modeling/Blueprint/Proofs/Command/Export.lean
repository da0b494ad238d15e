import Blueprint.Command.Run
import Blueprint.Proofs.Description.Faults
import Blueprint.Proofs.Project.Insertion
import Blueprint.Proofs.Project.NameFaults
import Blueprint.Proofs.Project.Writing

/-!
# An export does all or nothing

Every file is read and every name is checked before anything is written, so a fault of the input
leaves the file tree as it was. Without such a fault there is a plan, and what is written is the plan
of the records in the order of the arguments.
-/

namespace Blueprint.Command

section Loading

variable {tree : FileTree} {path source id : String} {r : ClassRecord}

def HasText (tree : FileTree) (path source : String) : Prop :=
  ∃ content, tree.read path = .ok content ∧ String.fromUTF8? content = some source

/-- The file at the path holds the record. Only a description needs the id. -/
inductive Loads (tree : FileTree) (path id : String) : ClassRecord → Prop
  | json {source : String} {r : ClassRecord} (text : HasText tree path source)
    (ending : extension? path = some "json") (read : Exchange.readRecord source = .ok r) :
    Loads tree path id r
  | description {source : String} {parsed : Parsed} (text : HasText tree path source)
    (ending : extension? path ≠ some "json")
    (parse : Description.parse .engine id (trimmedSource source) = .ok parsed) :
    Loads tree path id parsed.record

/-- The number of the id that comes after a file, when `number` is that before it. -/
def numberAfter (path : String) (number : Nat) : Nat :=
  if extension? path = some "json" then number else number + 1

/-- The files hold the records, in order; the ids are counted from `number`. -/
inductive LoadsAll (tree : FileTree) : Nat → List String → List ClassRecord → Prop
  | nil {number : Nat} : LoadsAll tree number [] []
  | cons {number : Nat} {path : String} {paths : List String} {r : ClassRecord}
    {records : List ClassRecord} (head : Loads tree path (IdSource.nth "dsl_" number) r)
    (tail : LoadsAll tree (numberAfter path number) paths records) :
    LoadsAll tree number (path :: paths) (r :: records)

theorem HasText.unique {other : String} (h : HasText tree path source)
    (h' : HasText tree path other) : source = other := by
  obtain ⟨content, hread, htext⟩ := h
  obtain ⟨content', hread', htext'⟩ := h'
  rw [hread] at hread'
  obtain rfl := Except.ok.inj hread'
  exact Option.some_inj.mp (htext.symm.trans htext')

theorem Loads.unique {s : ClassRecord} (h : Loads tree path id r) (h' : Loads tree path id s) :
    r = s := by
  cases h with
  | json htext hending hread =>
    cases h' with
    | json htext' _ hread' =>
      obtain rfl := htext.unique htext'
      exact Except.ok.inj (hread.symm.trans hread')
    | description _ hending' => exact absurd hending hending'
  | description htext hending hparse =>
    cases h' with
    | json _ hending' => exact absurd hending' hending
    | description htext' _ hparse' =>
      obtain rfl := htext.unique htext'
      exact congrArg Parsed.record (Except.ok.inj (hparse.symm.trans hparse'))

theorem LoadsAll.unique {number : Nat} {paths : List String} {records others : List ClassRecord}
    (h : LoadsAll tree number paths records) (h' : LoadsAll tree number paths others) :
    records = others := by
  induction h generalizing others with
  | nil => cases h'; rfl
  | cons hhead _ ih =>
    cases h' with
    | cons hhead' htail' => rw [hhead.unique hhead', ih htail']

theorem readSource_cases (tree : FileTree) (path : String) :
    (∃ source, HasText tree path source ∧
        (readSource path : StateM FileTree (Except String String)) tree = (.ok source, tree)) ∨
      (∀ source, ¬HasText tree path source) ∧ ∃ message,
        (readSource path : StateM FileTree (Except String String)) tree = (.error message, tree) := by
  rw [readSource, bind_apply, readText, bind_apply, FileTree.read_apply]
  cases hread : tree.read path with
  | error e =>
    refine .inr ⟨fun source htext => ?_, _, rfl⟩
    obtain ⟨content, hcontent, -⟩ := htext
    rw [hread] at hcontent
    cases hcontent
  | ok content =>
    dsimp only
    rw [decode]
    cases hsource : String.fromUTF8? content with
    | none =>
      refine .inr ⟨fun source htext => ?_, _, rfl⟩
      obtain ⟨other, hother, htext⟩ := htext
      rw [hread] at hother
      obtain rfl := Except.ok.inj hother
      rw [hsource] at htext
      cases htext
    | some source => exact .inl ⟨source, ⟨content, hread, hsource⟩, rfl⟩

theorem recordOf_cases (path source : String) (number : Nat) :
    (∃ r, recordOf path source ⟨.engine, ⟨"dsl_", number⟩⟩ =
          (.ok r, ⟨.engine, ⟨"dsl_", numberAfter path number⟩⟩) ∧
        ∀ tree, HasText tree path source → Loads tree path (IdSource.nth "dsl_" number) r) ∨
      (∃ message parser,
          recordOf path source ⟨.engine, ⟨"dsl_", number⟩⟩ = (.error message, parser)) ∧
        ∀ tree, HasText tree path source → ∀ id r, ¬Loads tree path id r := by
  by_cases hending : extension? path = some "json"
  · rw [recordOf, if_pos hending, numberAfter, if_pos hending]
    cases hread : Exchange.readRecord source with
    | ok r => exact .inl ⟨r, rfl, fun tree htext => .json htext hending hread⟩
    | error fault =>
      refine .inr ⟨⟨_, _, rfl⟩, fun tree htext id r hloads => ?_⟩
      cases hloads with
      | json htext' _ hread' =>
        rw [htext'.unique htext, hread] at hread'
        cases hread'
      | description _ hending' => exact hending' hending
  · rw [recordOf, if_neg hending, numberAfter, if_neg hending, bind_apply]
    have hparser : Parser.parse (trimmedSource source) ⟨.engine, ⟨"dsl_", number⟩⟩ =
        (Description.parse .engine (IdSource.nth "dsl_" number) (trimmedSource source),
          ⟨.engine, ⟨"dsl_", number + 1⟩⟩) := rfl
    rw [hparser]
    cases hparse : Description.parse .engine (IdSource.nth "dsl_" number) (trimmedSource source) with
    | ok parsed =>
      exact .inl ⟨parsed.record, rfl, fun tree htext => .description htext hending hparse⟩
    | error fault =>
      refine .inr ⟨⟨_, _, rfl⟩, fun tree htext id r hloads => ?_⟩
      cases hloads with
      | json _ hending' => exact hending hending'
      | description htext' _ hparse' =>
        rw [htext'.unique htext] at hparse'
        obtain ⟨parsed, hparsed⟩ : ∃ parsed, Description.parse .engine
            (IdSource.nth "dsl_" number) (trimmedSource source) = .ok parsed :=
          Description.exists_parse_iff.mpr (Description.exists_parse_iff.mp ⟨_, hparse'⟩)
        rw [hparse] at hparsed
        cases hparsed

theorem loadRecord_cases (tree : FileTree) (path : String) (number : Nat) :
    (∃ r, Loads tree path (IdSource.nth "dsl_" number) r ∧
        (loadRecord ⟨.engine, ⟨"dsl_", number⟩⟩ path : StateM FileTree _) tree =
          (.ok (r, ⟨.engine, ⟨"dsl_", numberAfter path number⟩⟩), tree)) ∨
      (∀ id r, ¬Loads tree path id r) ∧ ∃ message,
        (loadRecord ⟨.engine, ⟨"dsl_", number⟩⟩ path : StateM FileTree _) tree =
          (.error message, tree) := by
  rw [loadRecord, bind_apply]
  rcases readSource_cases tree path with ⟨source, htext, hread⟩ | ⟨hnone, message, hread⟩
  · rw [hread]
    dsimp only
    rcases recordOf_cases path source number with ⟨r, hrecord, hloads⟩ |
      ⟨⟨message, parser, hrecord⟩, hnone⟩
    · rw [hrecord]
      exact .inl ⟨r, hloads tree htext, rfl⟩
    · rw [hrecord]
      exact .inr ⟨hnone tree htext, message, rfl⟩
  · rw [hread]
    refine .inr ⟨fun id r hloads => ?_, message, rfl⟩
    cases hloads with
    | json htext => exact hnone _ htext
    | description htext => exact hnone _ htext

/-- Either all files hold records, which are loaded, or there is one that holds none. -/
theorem loadRecords_cases (tree : FileTree) (paths : List String) (number : Nat) :
    (∃ records, LoadsAll tree number paths records ∧
        (loadRecords ⟨.engine, ⟨"dsl_", number⟩⟩ paths : StateM FileTree _) tree =
          (.ok records, tree)) ∨
      (∃ path ∈ paths, ∀ id r, ¬Loads tree path id r) ∧ ∃ message,
        (loadRecords ⟨.engine, ⟨"dsl_", number⟩⟩ paths : StateM FileTree _) tree =
          (.error message, tree) := by
  induction paths generalizing number with
  | nil => exact .inl ⟨[], .nil, rfl⟩
  | cons path paths ih =>
    rw [loadRecords, bind_apply]
    rcases loadRecord_cases tree path number with ⟨r, hr, hload⟩ | ⟨hnone, message, hload⟩
    · rw [hload]
      dsimp only
      rw [bind_apply]
      rcases ih (numberAfter path number) with
        ⟨records, hrecords, hrest⟩ | ⟨⟨other, hother, hnone⟩, message, hrest⟩
      · rw [hrest]
        exact .inl ⟨r :: records, .cons hr hrecords, rfl⟩
      · rw [hrest]
        exact .inr ⟨⟨other, List.mem_cons_of_mem _ hother, hnone⟩, message, rfl⟩
    · rw [hload]
      exact .inr ⟨⟨path, List.mem_cons_self, hnone⟩, message, rfl⟩

theorem loadRecords_freshParser_cases (tree : FileTree) (paths : List String) :
    (∃ records, LoadsAll tree 1 paths records ∧
        (loadRecords freshParser paths : StateM FileTree _) tree = (.ok records, tree)) ∨
      (∃ path ∈ paths, ∀ id r, ¬Loads tree path id r) ∧ ∃ message,
        (loadRecords freshParser paths : StateM FileTree _) tree = (.error message, tree) :=
  loadRecords_cases tree paths 1

end Loading

section Arguments

variable {folder project : String} {paths : List String}

theorem Scan.paths_ne_nil {scan : Scan} (h : scan.request? = .ok (.export folder paths project)) :
    paths ≠ [] := by
  rw [request?] at h
  split at h
  · cases h
  · split at h <;> cases h
    simp

theorem Invocation.paths_ne_nil {arguments : List String} {config level : Option String}
    (h : ofArguments arguments = .ok ⟨.export folder paths project, config, level⟩) : paths ≠ [] := by
  obtain ⟨scan, -, h⟩ := bind_eq_ok_iff.mp h
  obtain ⟨request, hrequest, h⟩ := bind_eq_ok_iff.mp h
  obtain rfl : request = .export folder paths project :=
    congrArg Invocation.request (Except.ok.inj h)
  exact scan.paths_ne_nil hrequest

end Arguments

section Settings

variable {tree : FileTree} {config level : Option String} {settings : Settings}

theorem readSettingsFile_snd (tree : FileTree) (path : String) :
    ((readSettingsFile path : StateM FileTree (Option SettingsFile)) tree).2 = tree := by
  rw [readSettingsFile, bind_apply, FileTree.read_apply]
  cases tree.read path with
  | ok content => rfl
  | error e =>
    dsimp only
    cases (Path.ofText path).withEnding? ".toml" with
    | none => rfl
    | some ended => rfl

theorem loadSettings_snd (tree : FileTree) (config level : Option String) :
    ((loadSettings config level : StateM FileTree (Except Outcome Settings)) tree).2 = tree := by
  rw [loadSettings, bind_apply]
  exact readSettingsFile_snd tree _

/-- Once the settings and the filter are there, the command does what it is asked. -/
theorem run_apply {arguments : List String} {request : Request} {filter : Log.Filter}
    (harguments : Invocation.ofArguments arguments = .ok ⟨request, config, level⟩)
    (hsettings : ((loadSettings config level : StateM FileTree (Except Outcome Settings)) tree).1 =
      .ok settings)
    (hfilter : Log.Filter.ofText settings.level = .ok filter) :
    (run arguments : StateM FileTree Outcome) tree =
      (runRequest settings filter request : StateM FileTree Outcome) tree := by
  rw [run, harguments]
  dsimp only
  rw [bind_apply, hsettings, loadSettings_snd]
  dsimp only
  rw [hfilter]

end Settings

/-- The names of the classes can be those of files, and no two are the same. -/
def Fit (records : List ClassRecord) : Prop :=
  (∀ r ∈ records, isFileStem r.name = true) ∧ (records.map (·.name)).Nodup

theorem firstNameFault?_eq_none_iff_fit {records : List ClassRecord} :
    firstNameFault? [] (records.map (·.name)) = none ↔ Fit records := by
  simp [firstNameFault?_eq_none_iff, Fit]

/-- Checking a project finds no error exactly if its plan can be built. -/
theorem isOk_check_iff_fit {records : List ClassRecord} (hne : records ≠ []) :
    (Project.check records).isOk = true ↔ Fit records := by
  rw [← firstNameFault?_eq_none_iff_fit, ← head?_nameFaults .nil, Project.Report.isOk,
    Project.errors_check hne]
  simp

/-- The run has failed and the tree is as it was. -/
def Fails (result : Outcome × FileTree) (tree : FileTree) : Prop :=
  result.1.code = 1 ∧ result.2 = tree

section Export

variable {settings : Settings} {filter : Log.Filter} {folder project : String} {paths : List String}
  {tree : FileTree} {records : List ClassRecord}

/-- What an export in a tree leads to. -/
def exported (settings : Settings) (filter : Log.Filter) (folder project : String)
    (paths : List String) (tree : FileTree) : Outcome × FileTree :=
  (runExport settings filter folder project paths : StateM FileTree Outcome) tree

theorem LoadsAll.ne_nil {number : Nat} (h : LoadsAll tree number paths records) (hne : paths ≠ []) :
    records ≠ [] := by
  cases h with
  | nil => exact absurd rfl hne
  | cons => simp

theorem LoadsAll.loads {number : Nat} (h : LoadsAll tree number paths records) :
    ∀ path ∈ paths, ∃ id r, Loads tree path id r := by
  induction h with
  | nil => simp
  | cons hhead _ ih => exact List.forall_mem_cons.mpr ⟨⟨_, _, hhead⟩, ih⟩

theorem exists_loadsAll (h : ∀ path ∈ paths, ∃ id r, Loads tree path id r) (number : Nat) :
    ∃ records, LoadsAll tree number paths records := by
  rcases loadRecords_cases tree paths number with ⟨records, hrecords, -⟩ | ⟨⟨path, hpath, hnone⟩, -⟩
  · exact ⟨records, hrecords⟩
  · obtain ⟨id, r, hloads⟩ := h path hpath
    exact absurd hloads (hnone id r)

theorem LoadsAll.loadRecords_eq (h : LoadsAll tree 1 paths records) :
    (loadRecords freshParser paths : StateM FileTree (Except String (List ClassRecord))) tree =
      (.ok records, tree) := by
  rcases loadRecords_freshParser_cases tree paths with
    ⟨others, hothers, hload⟩ | ⟨⟨path, hpath, hnone⟩, -⟩
  · rwa [h.unique hothers]
  · obtain ⟨id, r, hloads⟩ := h.loads path hpath
    exact absurd hloads (hnone id r)

/-- The records that the loader of a run finds in the files. -/
def loaded? (tree : FileTree) (paths : List String) : Option (List ClassRecord) :=
  ((loadRecords freshParser paths : StateM FileTree (Except String (List ClassRecord)))
    tree).1.toOption

theorem loads_of_loaded? (h : (loaded? tree paths).isSome = true) :
    ∀ path ∈ paths, ∃ id r, Loads tree path id r := by
  rcases loadRecords_freshParser_cases tree paths with ⟨records, hrecords, -⟩ | ⟨-, message, hload⟩
  · exact hrecords.loads
  · rw [loaded?, hload] at h
    cases h

theorem LoadsAll.loaded?_eq (h : LoadsAll tree 1 paths records) :
    loaded? tree paths = some records := by
  rw [loaded?, h.loadRecords_eq]
  rfl

theorem fails_of_not_loads (h : ∃ path ∈ paths, ∀ id r, ¬Loads tree path id r) :
    Fails (exported settings filter folder project paths tree) tree := by
  rcases loadRecords_freshParser_cases tree paths with ⟨records, hrecords, -⟩ | ⟨-, message, hload⟩
  · obtain ⟨path, hpath, hnone⟩ := h
    obtain ⟨id, r, hloads⟩ := hrecords.loads path hpath
    exact absurd hloads (hnone id r)
  · rw [exported, runExport, bind_apply, hload]
    exact ⟨rfl, rfl⟩

theorem fails_of_not_fit (h : LoadsAll tree 1 paths records) (hne : paths ≠ [])
    (hfit : ¬Fit records) :
    Fails (exported settings filter folder project paths tree) tree := by
  have hreport : (Project.check records).isOk = false := by
    rwa [← Bool.not_eq_true, isOk_check_iff_fit (h.ne_nil hne)]
  rw [exported, runExport, bind_apply, h.loadRecords_eq]
  dsimp only
  rw [hreport]
  exact ⟨rfl, rfl⟩

theorem exported_of_written {plan : ExportPlan} {written : FileTree}
    (h : LoadsAll tree 1 paths records) (hne : paths ≠ []) (hfit : Fit records)
    (hbuild : ExportPlan.build settings.layout settings.indent project records = .ok plan)
    (hwrite : (plan.writeTo folder : StateM FileTree (Except FileError Unit)) tree =
      (.ok (), written)) :
    ∃ outcome, exported settings filter folder project paths tree = (outcome, written) ∧
      outcome.code = 0 ∧
      outcome.output = "Exported " ++ toString plan.size ++ " files to " ++ folder ++ "\n" := by
  have hreport : (Project.check records).isOk = true := (isOk_check_iff_fit (h.ne_nil hne)).mpr hfit
  rw [exported, runExport, bind_apply, h.loadRecords_eq]
  dsimp only
  rw [hreport, if_pos rfl, bind_apply, writeProject, hbuild]
  dsimp only
  rw [bind_apply, hwrite]
  exact ⟨_, rfl, rfl, rfl⟩

/-- An export with a file that holds no record, or with classes whose names are unfit or repeated,
fails and leaves the tree as it is. Otherwise there is a plan for the records in the order of the
arguments, and when it can be written the tree has its files and the run tells how many they are. -/
theorem export_all_or_nothing {arguments : List String} {config level : Option String}
    (harguments : Invocation.ofArguments arguments =
      .ok ⟨.export folder paths project, config, level⟩)
    (settings : Settings) (filter : Log.Filter) (tree : FileTree) :
    ((∃ path ∈ paths, ∀ id r, ¬Loads tree path id r) →
        Fails (exported settings filter folder project paths tree) tree) ∧
      ((∀ path ∈ paths, ∃ id r, Loads tree path id r) →
        ∃ records, LoadsAll tree 1 paths records ∧
          (¬Fit records → Fails (exported settings filter folder project paths tree) tree) ∧
          (Fit records →
            ∃ plan, ExportPlan.build settings.layout settings.indent project records = .ok plan ∧
              ∀ written, (plan.writeTo folder : StateM FileTree (Except FileError Unit)) tree =
                  (.ok (), written) →
                (∃ outcome, exported settings filter folder project paths tree = (outcome, written) ∧
                  outcome.code = 0 ∧ outcome.output =
                    "Exported " ++ toString plan.size ++ " files to " ++ folder ++ "\n") ∧
                ∃ places, Stored folder plan.files places tree written)) ∧
      (((loadSettings config level : StateM FileTree (Except Outcome Settings)) tree).1 =
          .ok settings → Log.Filter.ofText settings.level = .ok filter →
        (run arguments : StateM FileTree Outcome) tree =
          exported settings filter folder project paths tree) := by
  have hne : paths ≠ [] := Invocation.paths_ne_nil harguments
  refine ⟨fails_of_not_loads, fun hloads => ?_, fun hsettings hfilter =>
    run_apply harguments hsettings hfilter⟩
  obtain ⟨records, hrecords⟩ := exists_loadsAll hloads 1
  refine ⟨records, hrecords, fails_of_not_fit hrecords hne, fun hfit => ?_⟩
  obtain ⟨plan, hbuild⟩ : ∃ plan, ExportPlan.build settings.layout settings.indent project records =
      .ok plan := ExportPlan.exists_build_iff.mpr (firstNameFault?_eq_none_iff_fit.mpr hfit)
  refine ⟨plan, hbuild, fun written hwrite => ⟨?_, writeAll_eq_ok hwrite⟩⟩
  exact exported_of_written hrecords hne hfit hbuild hwrite

/-- A tree with two descriptions of one class and a record of another. -/
def desk : FileTree where
  nodes := [(["a"], .file "Cl'A".toUTF8), (["b"], .file "Cl'A".toUTF8),
    (["c.json"], .file "\x7b\"id\":\"7\",\"name\":\"C\"\x7d".toUTF8)]

theorem export_all_or_nothing_desk :
    (∃ outcome written plan places,
        (run ["export", "out", "c.json", "a"] : StateM FileTree Outcome) desk = (outcome, written) ∧
          outcome.code = 0 ∧ outcome.output = "Exported 3 files to out\n" ∧
          Stored "out" (ExportPlan.files plan) places desk written) ∧
      Fails ((run ["export", "out", "a", "b"] : StateM FileTree Outcome) desk) desk := by
  have hsettings : ((loadSettings none none : StateM FileTree (Except Outcome Settings)) desk).1 =
      .ok {} := by
    decide +kernel
  obtain ⟨filter, hfilter⟩ : ∃ filter, Log.Filter.ofText ({} : Settings).level = .ok filter :=
    ⟨_, rfl⟩
  have hwritten : Invocation.ofArguments ["export", "out", "c.json", "a"] =
      .ok ⟨.export "out" ["c.json", "a"] "weave_project", none, none⟩ := by
    decide +kernel
  have hrepeated : Invocation.ofArguments ["export", "out", "a", "b"] =
      .ok ⟨.export "out" ["a", "b"] "weave_project", none, none⟩ := by
    decide +kernel
  constructor
  · obtain ⟨-, hexport, hrun⟩ := export_all_or_nothing hwritten {} filter desk
    obtain ⟨records, hrecords, -, hexport⟩ := hexport (loads_of_loaded? (by decide +kernel))
    have hnames : (loaded? desk ["c.json", "a"]).map (·.map ClassRecord.name) = some ["C", "A"] := by
      decide +kernel
    have hplan : (loaded? desk ["c.json", "a"]).map (fun records =>
        let plan := ExportPlan.ofFiles (ExportPlan.contributions {} "\t" "weave_project" records)
        (plan.size, ((plan.writeTo "out" : StateM FileTree (Except FileError Unit)) desk).1)) =
          some (3, .ok ()) := by
      decide +kernel
    rw [hrecords.loaded?_eq] at hnames hplan
    have hdistinct : records.map (·.name) = ["C", "A"] := Option.some_inj.mp hnames
    have hfit : Fit records := by
      rw [← firstNameFault?_eq_none_iff_fit, hdistinct]
      decide
    obtain ⟨plan, hbuild, hexport⟩ := hexport hfit
    obtain ⟨-, rfl⟩ := ExportPlan.build_eq_ok_iff.mp hbuild
    obtain ⟨hsize, hok⟩ := Prod.mk.inj (Option.some_inj.mp hplan)
    obtain ⟨⟨outcome, hexported, hcode, houtput⟩, places, hplaces⟩ := hexport _ (Prod.ext hok rfl)
    refine ⟨outcome, _, _, places, (hrun hsettings hfilter).trans hexported, hcode, ?_, hplaces⟩
    rw [houtput]
    exact congrArg (fun n => "Exported " ++ toString n ++ " files to " ++ "out" ++ "\n") hsize
  · obtain ⟨-, hexport, hrun⟩ := export_all_or_nothing hrepeated {} filter desk
    obtain ⟨records, hrecords, hfails, -⟩ := hexport (loads_of_loaded? (by decide +kernel))
    have hnames : (loaded? desk ["a", "b"]).map (·.map ClassRecord.name) = some ["A", "A"] := by
      decide +kernel
    rw [hrecords.loaded?_eq] at hnames
    have hrepeated : records.map (·.name) = ["A", "A"] := Option.some_inj.mp hnames
    rw [hrun hsettings hfilter]
    refine hfails fun hfit => ?_
    have hnodup := hfit.2
    rw [hrepeated] at hnodup
    exact absurd hnodup (by decide)

end Export

end Blueprint.Command
