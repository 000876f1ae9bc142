import ContractInterface.Program.CommandLine
import ContractInterface.Proofs.FileTree.Listing
import ContractInterface.Proofs.Program.Outcome
import ContractInterface.Proofs.Text.Run

/-!
# What a check of a directory tells

The errors of all documents are collected before the first one is told.  So a document that has
no findings, because it cannot be decoded or has a numeral that is too long, keeps the errors of
the others from being told as well.  If there is no such document, all errors are told, and the
exit code tells whether there are any.
-/

namespace ContractInterface

theorem Text.dropSuffix?_isSome_iff {word t : Text} :
  (dropSuffix? word t).isSome ↔ word <:+ t
  := by
  rw [dropSuffix?, Option.isSome_map]
  constructor
  · intro h
    obtain ⟨rest, hrest⟩ := Option.isSome_iff_exists.mp h
    use rest.reverse
    rw [← List.reverse_inj, List.reverse_append, List.reverse_reverse,
      eq_append_of_dropPrefix? hrest]
  · rintro ⟨front, rfl⟩
    rw [List.reverse_append, dropPrefix?_append]
    rfl

namespace Run

variable {α β : Type}

/-- A part of a run that shows nothing on the console but records of the log. -/
def Quiet (x : Run α) : Prop :=
  ∀ w, ∃ records : List LogRecord, (x.outcome w).2.events = w.events ++ records.map .record

namespace Quiet

theorem pure (a : α) : Quiet (pure a)
  := by
  intro w
  exact ⟨[], (List.append_nil _).symm⟩

theorem ofExcept {ε : Type} (failure : ε → Failure) (x : Except ε α) : Quiet (ofExcept failure x)
  := by
  intro w
  cases x with
  | error e => exact ⟨[], (List.append_nil _).symm⟩
  | ok a => exact ⟨[], (List.append_nil _).symm⟩

theorem record (r : LogRecord) : Quiet (record r)
  := by
  intro w
  exact ⟨[r], rfl⟩

theorem bind {x : Run α} {f : α → Run β} (hx : Quiet x) (hf : ∀ a, Quiet (f a)) :
  Quiet (x >>= f)
  := by
  intro w
  obtain ⟨records, hrecords⟩ := hx w
  rcases houtcome : x.outcome w with ⟨e | a, w'⟩
  · rw [houtcome] at hrecords
    rw [outcome_bind_error houtcome]
    exact ⟨records, hrecords⟩
  · rw [houtcome] at hrecords
    rw [outcome_bind_ok houtcome]
    obtain ⟨records', hrecords'⟩ := hf a w'
    use records ++ records'
    rw [hrecords', hrecords, List.map_append, List.append_assoc]

theorem forM {f : α → Run Unit} (h : ∀ a, Quiet (f a)) (as : List α) : Quiet (as.forM f)
  := by
  induction as with
  | nil => exact pure ()
  | cons a as ih => exact bind (h a) fun _ => ih

theorem mapM {f : α → Run β} (h : ∀ a, Quiet (f a)) (as : List α) : Quiet (as.mapM f)
  := by
  induction as with
  | nil => exact pure []
  | cons a as ih =>
      rw [List.mapM_cons]
      exact bind (h a) fun b => bind ih fun bs => pure (b :: bs)

theorem readText (p : Path) : Quiet (readText p)
  := by
  intro w
  exact ofExcept Failure.ofReadError (w.files.readText p) w

end Quiet

end Run

namespace Check

open Run

variable {tree : FileTree} {suffix : String} {directory p : Path}

/-! ### Documents and their errors -/

/-- A path leads to a document of a directory: a file whose name has the ending. -/
def IsDocument (tree : FileTree) (suffix : String) (directory p : Path) : Prop :=
  ∃ base name, tree.locate directory = .ok base ∧ name ∈ tree.entries base ∧
    suffix.toList <:+ name.toList ∧ p = directory.append name ∧ tree.leadsToFile p

theorem documents_eq_ok_iff {paths : List Path} :
  documents tree suffix directory = .ok paths ↔
    ∃ base, tree.Listable directory base ∧
      paths = ((tree.entries base).filter fun name =>
        (Text.dropSuffix? suffix.toList name.toList).isSome &&
          tree.leadsToFile (directory.append name)).map directory.append
  := by
  have hdocuments : documents tree suffix directory = (do
      let files ← tree.filesIn directory
      return (files.filter fun name =>
        (Text.dropSuffix? suffix.toList name.toList).isSome).map directory.append) := by
    rw [documents, FileTree.filesIn, bind_assoc]
  rw [hdocuments, bind_eq_ok_iff]
  constructor
  · rintro ⟨files, hfiles, h⟩
    obtain ⟨base, hbase, rfl⟩ := FileTree.filesIn_eq_ok_iff.mp hfiles
    obtain rfl := Except.ok.inj h
    exact ⟨base, hbase, by rw [List.filter_filter]⟩
  · rintro ⟨base, hbase, rfl⟩
    refine ⟨_, FileTree.filesIn_eq_ok_iff.mpr ⟨base, hbase, rfl⟩, ?_⟩
    rw [List.filter_filter]
    rfl

/-- The documents of a directory are found unless one of its entries cannot be looked at. -/
theorem exists_documents_iff :
  (∃ paths, documents tree suffix directory = .ok paths) ↔ ∃ base, tree.Listable directory base
  := by
  simp only [documents_eq_ok_iff]
  constructor
  · rintro ⟨paths, base, hbase, -⟩
    exact ⟨base, hbase⟩
  · rintro ⟨base, hbase⟩
    exact ⟨_, base, hbase, rfl⟩

theorem mem_documents {paths : List Path} (h : documents tree suffix directory = .ok paths) :
  p ∈ paths ↔ IsDocument tree suffix directory p
  := by
  obtain ⟨base, hbase, rfl⟩ := documents_eq_ok_iff.mp h
  simp only [List.mem_map, List.mem_filter, Bool.and_eq_true, Text.dropSuffix?_isSome_iff]
  constructor
  · rintro ⟨name, ⟨hname, hsuffix, hfile⟩, rfl⟩
    exact ⟨base, name, hbase.locate, hname, hsuffix, rfl, hfile⟩
  · rintro ⟨base', name, hbase', hname, hsuffix, rfl, hfile⟩
    obtain rfl := Except.ok.inj (hbase.locate.symm.trans hbase')
    exact ⟨name, ⟨hname, hsuffix, hfile⟩, rfl⟩

/-- The errors of the document at a path: that it is no JSON, or those of its value. -/
inductive Yields (tree : FileTree) (p : Path) : List String → Prop
  | invalid {t left : Text} {cause : Json.Complaint} (htext : tree.readText p = .ok t)
      (hjson : Json.readText t = .error (.complaint cause left)) :
      Yields tree p ["invalid JSON (" ++ Json.describe t cause left ++ ")"]
  | checked {t : Text} {v : Json} {errors : List String} (htext : tree.readText p = .ok t)
      (hjson : Json.readText t = .ok v) (hvalidate : Document.validate v = .ok errors) :
      Yields tree p errors

/-- A line that tells an error of the document at a path. -/
def line (p : Path) (e : String) : String :=
  p.toString ++ ": " ++ e

/-- The lines that tell the errors of the document at a path. -/
def linesIn (tree : FileTree) (p : Path) : Except Failure (List String) := do
  let text ← (tree.readText p).mapError Failure.ofReadError
  let found ← (findings text).mapError Failure.numeral
  return found.errors.map (line p)

theorem linesIn_eq_ok_iff {lines : List String} :
  linesIn tree p = .ok lines ↔ ∃ errors, Yields tree p errors ∧ lines = errors.map (line p)
  := by
  rw [linesIn]
  constructor
  · intro h
    obtain ⟨t, htext, h⟩ := bind_eq_ok_iff.mp h
    obtain ⟨found, hfound, h⟩ := bind_eq_ok_iff.mp h
    rw [mapError_eq_ok_iff] at htext hfound
    obtain rfl := Except.ok.inj h
    rw [findings] at hfound
    split at hfound
    · rename_i v hjson
      obtain ⟨errors, hvalidate, hfound⟩ := bind_eq_ok_iff.mp hfound
      obtain rfl := Except.ok.inj hfound
      exact ⟨errors, .checked htext hjson hvalidate, rfl⟩
    · contradiction
    · rename_i cause left hjson
      obtain rfl := Except.ok.inj hfound
      exact ⟨_, .invalid htext hjson, rfl⟩
  · rintro ⟨errors, hyields, rfl⟩
    cases hyields with
    | invalid htext hjson =>
        rw [htext]
        simp only [Except.mapError, bind, Except.bind, findings, hjson]
        rfl
    | checked htext hjson hvalidate =>
        rw [htext]
        simp only [Except.mapError, bind, Except.bind, findings, hjson, hvalidate]
        rfl

/-! ### The check -/

theorem ends_documentErrors (p : Path) (w : World) :
  Ends (documentErrors p) w (linesIn w.files p) w.files
  := by
  apply Ends.bind (Ends.readText p)
  intro text
  apply Ends.bind (Ends.ofExcept Failure.numeral _)
  intro found
  apply Ends.bind_ok (Ends.forM (fun note => Ends.record _) found.notes)
  apply Ends.pure

theorem quiet_documentErrors (p : Path) : Quiet (documentErrors p)
  := by
  apply Quiet.bind (Quiet.readText p)
  intro text
  apply Quiet.bind (Quiet.ofExcept Failure.numeral _)
  intro found
  apply Quiet.bind (Quiet.forM (fun note => Quiet.record _) found.notes)
  intro _
  apply Quiet.pure

theorem outcome_forM_tell (lines : List String) (w : World) :
  (lines.forM tell).outcome w = (.ok (), { w with events := w.events ++ lines.map .line })
  := by
  induction lines generalizing w with
  | nil =>
      rw [List.map_nil, List.append_nil]
      rfl
  | cons text lines ih =>
      have htell : (tell text).outcome w =
          (.ok (), { w with events := w.events ++ [.line text] }) := rfl
      rw [List.forM, outcome_bind_ok htell, ih]
      simp

/-- The lines that a check of a target tells. -/
def targetLines (tree : FileTree) (suffix : String) (target : Target) :
    Except Failure (List String) := do
  let paths ← (target.documents suffix tree).mapError Failure.file
  return (← paths.mapM (linesIn tree)).flatten

/-- All entries of a directory can be looked at, and all its documents have findings. -/
def Complete (tree : FileTree) (suffix : String) (directory : Path) : Prop :=
  (∃ base, tree.Listable directory base) ∧
    ∀ p, IsDocument tree suffix directory p → ∃ errors, Yields tree p errors

section Directory

variable {lines : List String}

theorem targetLines_eq_ok_iff :
  targetLines tree suffix (.directory directory) = .ok lines ↔
    ∃ paths lists, documents tree suffix directory = .ok paths ∧
      paths.mapM (linesIn tree) = .ok lists ∧ lines = lists.flatten
  := by
  rw [targetLines, bind_eq_ok_iff]
  apply exists_congr
  intro paths
  rw [mapError_eq_ok_iff, bind_eq_ok_iff]
  constructor
  · rintro ⟨hpaths, lists, hlists, h⟩
    exact ⟨lists, hpaths, hlists, (Except.ok.inj h).symm⟩
  · rintro ⟨lists, hpaths, hlists, rfl⟩
    exact ⟨hpaths, lists, hlists, rfl⟩

theorem exists_targetLines_iff :
  (∃ lines, targetLines tree suffix (.directory directory) = .ok lines) ↔
    Complete tree suffix directory
  := by
  simp only [targetLines_eq_ok_iff, Complete, ← @exists_documents_iff tree suffix directory]
  have hlists (paths : List Path) : (∃ lists, paths.mapM (linesIn tree) = .ok lists) ↔
      ∀ p ∈ paths, ∃ errors, Yields tree p errors := by
    simp only [exists_mapM_eq_ok_iff, linesIn_eq_ok_iff]
    simp
  constructor
  · rintro ⟨_, paths, lists, hpaths, hmap, rfl⟩
    refine ⟨⟨paths, hpaths⟩, ?_⟩
    intro p hp
    exact (hlists paths).mp ⟨lists, hmap⟩ p ((mem_documents hpaths).mpr hp)
  · rintro ⟨⟨paths, hpaths⟩, hall⟩
    obtain ⟨lists, hmap⟩ :=
      (hlists paths).mpr fun p hp => hall p ((mem_documents hpaths).mp hp)
    exact ⟨_, paths, lists, hpaths, hmap, rfl⟩

/-- There is nothing to tell exactly if all documents are valid. -/
theorem targetLines_eq_nil_iff :
  targetLines tree suffix (.directory directory) = .ok [] ↔
    (∃ base, tree.Listable directory base) ∧
      ∀ p, IsDocument tree suffix directory p → Yields tree p []
  := by
  constructor
  · intro h
    obtain ⟨paths, lists, hpaths, hmap, hnil⟩ := targetLines_eq_ok_iff.mp h
    refine ⟨exists_documents_iff.mp ⟨paths, hpaths⟩, ?_⟩
    intro p hp
    have hp' := (mem_documents hpaths).mpr hp
    obtain ⟨lines, hlines⟩ := exists_mapM_eq_ok_iff.mp ⟨lists, hmap⟩ p hp'
    obtain rfl := List.flatten_eq_nil_iff.mp hnil.symm lines (mem_of_mapM hmap hp' hlines)
    obtain ⟨errors, hyields, herrors⟩ := linesIn_eq_ok_iff.mp hlines
    rwa [List.map_eq_nil_iff.mp herrors.symm] at hyields
  · rintro ⟨hlisted, hall⟩
    have hcomplete : Complete tree suffix directory := ⟨hlisted, fun p hp => ⟨[], hall p hp⟩⟩
    obtain ⟨lines, hlines⟩ := exists_targetLines_iff.mpr hcomplete
    obtain ⟨paths, lists, hpaths, hmap, rfl⟩ := targetLines_eq_ok_iff.mp hlines
    have hnil : lists.flatten = [] := by
      rw [List.flatten_eq_nil_iff]
      intro lines hmem
      obtain ⟨p, hp, hlines⟩ := exists_of_mem_mapM hmap lines hmem
      have hvalid := linesIn_eq_ok_iff.mpr ⟨[], hall p ((mem_documents hpaths).mp hp), rfl⟩
      exact Except.ok.inj (hlines.symm.trans hvalid)
    rw [hlines, hnil]

/-- Every error of every document is told with its path. -/
theorem mem_targetLines (h : targetLines tree suffix (.directory directory) = .ok lines)
    (hp : IsDocument tree suffix directory p) {errors : List String} (hyields : Yields tree p errors)
    {e : String} (he : e ∈ errors) :
  line p e ∈ lines
  := by
  obtain ⟨paths, lists, hpaths, hmap, rfl⟩ := targetLines_eq_ok_iff.mp h
  have hlines := linesIn_eq_ok_iff.mpr ⟨errors, hyields, rfl⟩
  exact List.mem_flatten_of_mem (mem_of_mapM hmap ((mem_documents hpaths).mpr hp) hlines)
    (List.mem_map_of_mem he)

end Directory

section Run

variable {target : Target} {w : World} {lines : List String}

/-- Without all lines, none is told. -/
theorem outcome_run_error {e : Failure}
    (h : targetLines w.files (CompilerSettings.ofEnvironment w.environment).outputSuffix target =
      .error e) :
  ∃ (progress : Progress) (records : List LogRecord), (run target).outcome w =
    (.error e, { w with events := w.events ++ records.map .record, progress })
  := by
  rw [run, outcome_settings_bind, outcome_get_bind]
  rcases bind_eq_error_iff.mp h with hpaths | ⟨paths, hpaths, h⟩
  · obtain ⟨cause, hcause, rfl⟩ := mapError_eq_error_iff.mp hpaths
    use w.progress, []
    rw [hcause, List.map_nil, List.append_nil]
    rfl
  · rw [mapError_eq_ok_iff.mp hpaths]
    rcases bind_eq_error_iff.mp h with hlists | ⟨lists, -, h⟩
    · obtain ⟨events, progress, hcollect, -⟩ :=
        Ends.mapM (fun p => ends_documentErrors p w) paths w.events w.progress
      rw [hlists] at hcollect
      obtain ⟨records, hrecords⟩ := Quiet.mapM quiet_documentErrors paths w
      rw [hcollect] at hrecords
      obtain rfl : events = _ := hrecords
      exact ⟨progress, records, outcome_bind_error hcollect _⟩
    · cases h

/-- All lines are told one after another, and then that the check is over. -/
theorem outcome_run_ok
    (h : targetLines w.files (CompilerSettings.ofEnvironment w.environment).outputSuffix target =
      .ok lines) :
  ∃ events progress note, (run target).outcome w =
    (.ok lines.length,
      { w with events := events ++ lines.map .line ++ [.record note], progress })
  := by
  obtain ⟨paths, hpaths, h⟩ := bind_eq_ok_iff.mp h
  obtain ⟨lists, hlists, h⟩ := bind_eq_ok_iff.mp h
  obtain rfl := Except.ok.inj h
  have hdocuments : (ofExcept Failure.file (target.documents
      (CompilerSettings.ofEnvironment w.environment).outputSuffix w.files)).outcome w =
      (.ok paths, w) := by
    rw [mapError_eq_ok_iff.mp hpaths]
    rfl
  obtain ⟨events, progress, hcollect, -⟩ :=
    Ends.mapM (fun p => ends_documentErrors p w) paths w.events w.progress
  rw [hlists] at hcollect
  rw [run, outcome_settings_bind, outcome_get_bind, outcome_bind_ok hdocuments,
    outcome_bind_ok hcollect, outcome_bind_ok (outcome_forM_tell _ _)]
  exact ⟨events, progress, _, rfl⟩

end Run

end Check

namespace CommandLine

open Run

/-! ### The command -/

section Command

variable {config : Config} {target : Check.Target} {w w' : World}

theorem runSafely_validate_ok {n : Nat} (h : (Check.run target).outcome w = (.ok n, w')) :
  Command.runSafely config (.validate target) w = ((if n = 0 then 0 else 1, []), w')
  := by
  have hcommand : (Command.run config (.validate target)).outcome w =
      (.ok (if n = 0 then 0 else 1, []), w') := by
    rw [Command.run, outcome_bind_ok h]
    rfl
  rw [outcome] at hcommand
  rw [Command.runSafely, hcommand]

/-- A check that fails is told as a fatal error. -/
theorem runSafely_validate_error {e : Failure}
    (h : (Check.run target).outcome w = (.error e, w')) :
  Command.runSafely config (.validate target) w =
    ((1, []), { w' with
      events := w'.events ++ [.record ⟨.error, "Fatal error during validate: " ++ e.message⟩] })
  := by
  have hcommand : (Command.run config (.validate target)).outcome w = (.error e, w') := by
    rw [Command.run, outcome_bind_error h]
  rw [outcome] at hcommand
  rw [Command.runSafely, hcommand]
  rfl

end Command

/-! ### The program -/

section Validate

variable {args : List String} {w : World} {verbose : Bool} {target : Check.Target}
  {prepared : Prepared}
  (hparse : parse args = .ok ⟨verbose, .validate target⟩)
  (hprepare : Invocation.prepare ⟨verbose, .validate target⟩ w.files w.environment = .ok prepared)
  (hconfig : prepared.config.error? w.files = .ok none)

include hparse hprepare hconfig

/-- Under a valid configuration the check starts with records in its log, and keeps no log
file. -/
theorem exists_run_validate :
  ∃ (records : List LogRecord) (level : Level), ∀ {exitCode output w'},
    Command.runSafely prepared.config (.validate target)
      { w with
        environment := prepared.environment
        events := w.events ++ prepared.notices.map .line ++ records.map .record } =
      ((exitCode, output), w') →
    run args w = .ok ⟨exitCode, output, w'.events.filterMap (Event.shown? level), w'.files⟩
  := by
  let level : Level := if prepared.config.verbose then .debug else .info
  use LogSetup.announcement ⟨some level, none⟩ ++
    [⟨.debug, "Command: " ++ Command.name (.validate target)⟩], level
  intro exitCode output w' h
  have hsetup : LogSetup.none.setUp w.clock prepared.config.logDir prepared.config.verbose
      (Command.name (.validate target) == "compile-registry") w.files =
      .ok (⟨some level, none⟩, w.files) := rfl
  rw [run, hparse]
  dsimp only
  rw [Invocation.run, hprepare]
  simp only [bind, Except.bind, hconfig, Except.mapError]
  rw [hsetup]
  dsimp only
  rw [h]
  rfl

/-- If something has no findings, that is told, and no errors are. -/
theorem run_validate_error {e : Failure}
    (h : Check.targetLines w.files
      (CompilerSettings.ofEnvironment prepared.environment).outputSuffix target = .error e) :
  ∃ outcome, run args w = .ok outcome ∧ outcome.files = w.files ∧ outcome.exitCode = 1 ∧
    "ERROR: Fatal error during validate: " ++ e.message ∈ outcome.console ∧
    ∀ text ∈ outcome.console,
      .line text ∈ w.events ∨ text ∈ prepared.notices ∨ ∃ r : LogRecord, text = r.line
  := by
  obtain ⟨started, level, hrun⟩ := exists_run_validate hparse hprepare hconfig
  obtain ⟨progress, records, houtcome⟩ := Check.outcome_run_error
    (w := { w with
      environment := prepared.environment
      events := w.events ++ prepared.notices.map .line ++ started.map .record }) h
  refine ⟨_, hrun (runSafely_validate_error houtcome), rfl, rfl, ?_, ?_⟩
  · rw [List.filterMap_append, List.mem_append]
    right
    cases level with
    | debug | info | warning | error => exact List.mem_singleton_self _
  · intro text htext
    obtain ⟨event, hevent, hshown⟩ := List.mem_filterMap.mp htext
    cases event with
    | record r =>
        rw [Event.shown?, Option.ite_none_right_eq_some] at hshown
        exact .inr (.inr ⟨r, (Option.some.inj hshown.2).symm⟩)
    | line text' =>
        obtain rfl := Option.some.inj hshown
        have hline : .line text' ∈ w.events ∨ text' ∈ prepared.notices := by
          simpa using hevent
        exact hline.imp_right .inl

/-- If everything has findings, the errors are told, and the exit code tells whether there are
any. -/
theorem run_validate_ok {lines : List String}
    (h : Check.targetLines w.files
      (CompilerSettings.ofEnvironment prepared.environment).outputSuffix target = .ok lines) :
  ∃ outcome, run args w = .ok outcome ∧ outcome.files = w.files ∧
    outcome.exitCode = (if lines.length = 0 then 0 else 1) ∧
    ∀ text ∈ lines, text ∈ outcome.console
  := by
  obtain ⟨started, level, hrun⟩ := exists_run_validate hparse hprepare hconfig
  obtain ⟨events, progress, note, houtcome⟩ := Check.outcome_run_ok
    (w := { w with
      environment := prepared.environment
      events := w.events ++ prepared.notices.map .line ++ started.map .record }) h
  refine ⟨_, hrun (runSafely_validate_ok houtcome), rfl, rfl, ?_⟩
  intro text htext
  rw [List.mem_filterMap]
  refine ⟨.line text, ?_, rfl⟩
  simp [htext]

end Validate

/-- Checking a directory ends with 0 exactly if all its entries can be looked at and all its
documents are valid, and with 1 otherwise.  If all documents have findings, every error of every
document is told with its path; if one has none, that is told, and no errors are. -/
theorem run_validate_directory {args : List String} {w : World} {verbose : Bool}
    {directory : Path} {prepared : Prepared}
    (hparse : parse args = .ok ⟨verbose, .validate (.directory directory)⟩)
    (hprepare : Invocation.prepare ⟨verbose, .validate (.directory directory)⟩ w.files
      w.environment = .ok prepared)
    (hconfig : prepared.config.error? w.files = .ok none) :
  let suffix := (CompilerSettings.ofEnvironment prepared.environment).outputSuffix
  ∃ outcome, run args w = .ok outcome ∧ outcome.files = w.files ∧
    (outcome.exitCode = 0 ∨ outcome.exitCode = 1) ∧
    (outcome.exitCode = 0 ↔ (∃ base, w.files.Listable directory base) ∧
      ∀ p, Check.IsDocument w.files suffix directory p → Check.Yields w.files p []) ∧
    (Check.Complete w.files suffix directory →
      ∀ p, Check.IsDocument w.files suffix directory p →
        ∀ errors, Check.Yields w.files p errors →
          ∀ e ∈ errors, p.toString ++ ": " ++ e ∈ outcome.console) ∧
    (¬ Check.Complete w.files suffix directory →
      (∃ e : Failure, "ERROR: Fatal error during validate: " ++ e.message ∈ outcome.console) ∧
      ∀ text ∈ outcome.console,
        .line text ∈ w.events ∨ text ∈ prepared.notices ∨ ∃ r : LogRecord, text = r.line)
  := by
  intro suffix
  rcases hlines : Check.targetLines w.files suffix (.directory directory) with e | lines
  · have hincomplete : ¬ Check.Complete w.files suffix directory := by
      rw [← Check.exists_targetLines_iff, hlines]
      simp
    obtain ⟨outcome, hrun, hfiles, hcode, hfatal, htold⟩ :=
      run_validate_error hparse hprepare hconfig hlines
    refine ⟨outcome, hrun, hfiles, .inr hcode, ?_, fun hcomplete => (hincomplete hcomplete).elim,
      fun _ => ⟨⟨e, hfatal⟩, htold⟩⟩
    rw [← Check.targetLines_eq_nil_iff, hlines, hcode]
    simp
  · have hcomplete := Check.exists_targetLines_iff.mp ⟨lines, hlines⟩
    obtain ⟨outcome, hrun, hfiles, hcode, htold⟩ := run_validate_ok hparse hprepare hconfig hlines
    refine ⟨outcome, hrun, hfiles, ?_, ?_, ?_, fun hincomplete => (hincomplete hcomplete).elim⟩
    · rw [hcode]
      split_ifs
      · exact .inl rfl
      · exact .inr rfl
    · rw [← Check.targetLines_eq_nil_iff, hlines, hcode]
      simp
    · intro _ p hp errors hyields e he
      exact htold _ (Check.mem_targetLines hlines hp hyields he)

/-! ### Two documents -/

/-- A directory with a document that is no JSON and another one. -/
def twoDocuments (second : List UInt8) : World :=
  { files :=
      { nodes :=
          [(["d"], .directory), (["d", "a.qbi"], .file (Utf8.encode ['['])),
            (["d", "b.qbi"], .file second)]
        cwd := [] }
    environment := []
    clock := ⟨"now", "now", "0.00", "1.0"⟩
    events := []
    progress := .start }

theorem documents_twoDocuments (second : List UInt8) :
  Check.documents (twoDocuments second).files ".qbi" (.ofString "d") =
    .ok [.ofString "d/a.qbi", .ofString "d/b.qbi"]
  := by
  have hplace : (twoDocuments second).files.locate (.ofString "d") = .ok ["d"] := rfl
  have hlist : (twoDocuments second).files.list (.ofString "d") = .ok ["a.qbi", "b.qbi"] :=
    FileTree.list_of_pairwise hplace rfl rfl (by decide)
  rw [Check.documents, hlist]
  rfl

theorem parse_directory :
  parse ["validate", "--dir", "d"] = .ok ⟨false, .validate (.directory (.ofString "d"))⟩
  := by
  have hkinds : classifyAll mainGrammar ["validate", "--dir", "d"] =
      .ok [("validate", .plain), ("--dir", .unknown), ("d", .plain)] := by
    decide +kernel
  have hinvoke : invoke .empty "validate" ["--dir", "d"] =
      .ok ⟨false, .validate (.directory (.ofString "d"))⟩ := by
    decide +kernel
  rw [parse, hkinds]
  simp only [bind, Except.bind, followMain]
  exact hinvoke

theorem prepare_twoDocuments (second : List UInt8) :
  ∃ prepared, Invocation.prepare ⟨false, .validate (.directory (.ofString "d"))⟩
      (twoDocuments second).files (twoDocuments second).environment = .ok prepared ∧
    prepared.environment = [] ∧ prepared.notices = [] ∧
    prepared.config.error? (twoDocuments second).files = .ok none
  := by
  refine ⟨_, rfl, rfl, rfl, ?_⟩
  rfl

theorem isDocument_twoDocuments (second : List UInt8) :
  Check.IsDocument (twoDocuments second).files ".qbi" (.ofString "d") (.ofString "d/a.qbi")
  := (Check.mem_documents (documents_twoDocuments second)).mp List.mem_cons_self

theorem yields_twoDocuments (second : List UInt8) :
  Check.Yields (twoDocuments second).files (.ofString "d/a.qbi")
    ["invalid JSON (Expecting value: line 1 column 2 (char 1))"]
  := by
  have htext : (twoDocuments second).files.readText (.ofString "d/a.qbi") = .ok ['['] := rfl
  have hjson : Json.readText ['['] = .error (.complaint .expectingValue []) := by
    decide +kernel
  have hdescribe : "invalid JSON (" ++ Json.describe ['['] .expectingValue [] ++ ")" =
      "invalid JSON (Expecting value: line 1 column 2 (char 1))" := by
    decide +kernel
  rw [← hdescribe]
  exact .invalid htext hjson

/-- If the second document is no JSON either, the error of the first one is told. -/
theorem run_validate_directory_twoDocuments :
  ∃ outcome, run ["validate", "--dir", "d"] (twoDocuments (Utf8.encode [']'])) = .ok outcome ∧
    outcome.exitCode = 1 ∧
    "d/a.qbi: invalid JSON (Expecting value: line 1 column 2 (char 1))" ∈ outcome.console
  := by
  have hlines : Check.targetLines (twoDocuments (Utf8.encode [']'])).files ".qbi"
      (.directory (.ofString "d")) =
      .ok ["d/a.qbi: invalid JSON (Expecting value: line 1 column 2 (char 1))",
        "d/b.qbi: invalid JSON (Expecting value: line 1 column 1 (char 0))"] := by
    rw [Check.targetLines, Check.Target.documents, documents_twoDocuments]
    decide +kernel
  obtain ⟨prepared, hprepare, henvironment, -, hconfig⟩ :=
    prepare_twoDocuments (Utf8.encode [']'])
  obtain ⟨outcome, hrun, -, hcodes, hcode, htold, -⟩ :=
    run_validate_directory parse_directory hprepare hconfig
  rw [henvironment] at hcode htold
  refine ⟨outcome, hrun, ?_, ?_⟩
  · apply hcodes.resolve_left
    rw [hcode, ← Check.targetLines_eq_nil_iff]
    intro hnil
    cases hlines.symm.trans hnil
  · exact htold (Check.exists_targetLines_iff.mp ⟨_, hlines⟩) _ (isDocument_twoDocuments _) _
      (yields_twoDocuments _) _ List.mem_cons_self

/-- If the second document cannot be decoded, the error of the first one is not told. -/
theorem run_validate_undecodable :
  ∃ outcome, run ["validate", "--dir", "d"] (twoDocuments [0xff]) = .ok outcome ∧
    outcome.exitCode = 1 ∧
    Check.IsDocument (twoDocuments [0xff]).files ".qbi" (.ofString "d") (.ofString "d/a.qbi") ∧
    ∃ e, Check.Yields (twoDocuments [0xff]).files (.ofString "d/a.qbi") [e] ∧
      (Path.ofString "d/a.qbi").toString ++ ": " ++ e ∉ outcome.console
  := by
  have hlines : Check.targetLines (twoDocuments [0xff]).files ".qbi" (.directory (.ofString "d")) =
      .error (.encoding ⟨0, 0xff, 1, .invalidStart⟩) := by
    rw [Check.targetLines, Check.Target.documents, documents_twoDocuments]
    decide +kernel
  obtain ⟨prepared, hprepare, henvironment, hnotices, hconfig⟩ := prepare_twoDocuments [0xff]
  obtain ⟨outcome, hrun, -, hcode, -, htold⟩ := run_validate_error parse_directory hprepare hconfig
    (by rw [henvironment]; exact hlines)
  refine ⟨outcome, hrun, hcode, isDocument_twoDocuments _, _, yields_twoDocuments _, ?_⟩
  intro hmem
  rcases htold _ hmem with hline | hnotice | ⟨r, hr⟩
  · cases hline
  · rw [hnotices] at hnotice
    cases hnotice
  · -- a record starts with the name of its level
    have hpath : (Path.ofString "d/a.qbi").toString = "d/a.qbi" := by decide +kernel
    have hhead := congrArg (·.toList.head?) hr
    rw [hpath] at hhead
    revert hhead
    rcases r with ⟨_ | _ | _ | _, message⟩
    all_goals simp [LogRecord.line, Level.name]

end CommandLine

end ContractInterface
