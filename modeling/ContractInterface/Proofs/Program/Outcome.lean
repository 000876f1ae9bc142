import ContractInterface.Program.World
import ContractInterface.Proofs.Except

/-!
# Outcomes of runs

The outcome of a part of a run is its result, or the reason why it failed, together with the
world that it leaves.  Neither depends on the log and the progress that the part starts with, and
most parts leave the world alone but for these two and possibly the files; `Ends` says with which
result and which files a part ends.  The operations that the progress is in are the same at the
end, since whoever enters one leaves it, also when what stands between fails.
-/

namespace ContractInterface

namespace Run

variable {α β : Type}

/-- The result of a part of a run from a world, and the world that it leaves. -/
def outcome (x : Run α) (w : World) : Except Failure α × World :=
  x.run.run w

theorem outcome_bind_ok {x : Run α} {w w' : World} {a : α} (h : x.outcome w = (.ok a, w'))
    (f : α → Run β) :
  (x >>= f).outcome w = (f a).outcome w'
  := by
  have hbind : (x >>= f).outcome w = ExceptT.bindCont f (x.outcome w).1 (x.outcome w).2 := rfl
  rw [hbind, h]
  rfl

theorem outcome_bind_error {x : Run α} {w w' : World} {e : Failure}
    (h : x.outcome w = (.error e, w')) (f : α → Run β) :
  (x >>= f).outcome w = (.error e, w')
  := by
  have hbind : (x >>= f).outcome w = ExceptT.bindCont f (x.outcome w).1 (x.outcome w).2 := rfl
  rw [hbind, h]
  rfl

/-- A composite part of a run gives a result if its parts do. -/
theorem outcome_bind_eq_ok_iff {x : Run α} {f : α → Run β} {w w' : World} {b : β} :
  (x >>= f).outcome w = (.ok b, w') ↔
    ∃ a v, x.outcome w = (.ok a, v) ∧ (f a).outcome v = (.ok b, w')
  := by
  rcases hx : x.outcome w with ⟨e | a, v⟩
  · rw [outcome_bind_error hx]
    simp
  · rw [outcome_bind_ok hx]
    constructor
    · intro h
      exact ⟨a, v, rfl, h⟩
    · rintro ⟨_, _, ⟨⟩, h⟩
      exact h

theorem outcome_afterwards {x : Run α} {w w' : World} {r : Except Failure α}
    (h : x.outcome w = (r, w')) (after : Option String → World → World) :
  ∃ failure, (x.afterwards after).outcome w = (r, after failure w')
  := by
  have hafter : (x.afterwards after).outcome w =
      match x.outcome w with
      | (Except.ok a, w) => (Except.ok a, after none w)
      | (Except.error e, w) => (Except.error e, after (some e.message) w) := rfl
  rw [hafter, h]
  cases r with
  | error e => exact ⟨some e.message, rfl⟩
  | ok a => exact ⟨none, rfl⟩

theorem outcome_modify_bind (change : World → World) (f : Unit → Run β) (w : World) :
  (modify change >>= f).outcome w = (f ()).outcome (change w)
  := rfl

theorem outcome_get_bind (f : World → Run β) (w : World) :
  (get >>= f).outcome w = (f w).outcome w
  := rfl

theorem outcome_settings_bind (f : CompilerSettings → Run β) (w : World) :
  (settings >>= f).outcome w = (f (.ofEnvironment w.environment)).outcome w
  := rfl

theorem eq_ok_of_outcome_ofExcept {ε : Type} {failure : ε → Failure} {x : Except ε α}
    {w w' : World} {a : α} (h : (ofExcept failure x).outcome w = (.ok a, w')) :
  x = .ok a
  := by
  cases x with
  | error e =>
      obtain ⟨h, -⟩ := Prod.mk.inj h
      contradiction
  | ok a' =>
      obtain ⟨⟨⟩, -⟩ := Prod.mk.inj h
      rfl

/-- A timed step has the outcome of what it times, but for the log. -/
theorem exists_outcome_timed (step : String) (x : Run α) (w : World) :
  ∃ started, ∀ {r w'}, x.outcome { w with events := started } = (r, w') →
    ∃ events, (timed step x).outcome w = (r, { w' with events })
  := by
  have hstarted : (record (.started step)).outcome w =
      (.ok (), { w with events := w.events ++ [.record (.started step)] }) := rfl
  use w.events ++ [.record (.started step)]
  intro r w' h
  obtain ⟨failure, hafter⟩ := outcome_afterwards h _
  unfold timed
  rw [outcome_bind_ok hstarted, hafter]
  exact ⟨_, rfl⟩

theorem exists_of_outcome_timed {step : String} {x : Run α} {w w' : World} {r : Except Failure α}
    (h : (timed step x).outcome w = (r, w')) :
  ∃ started ended, x.outcome { w with events := started } = (r, { w' with events := ended })
  := by
  obtain ⟨started, htimed⟩ := exists_outcome_timed step x w
  rcases hx : x.outcome { w with events := started } with ⟨r', w''⟩
  obtain ⟨events, htimed⟩ := htimed hx
  rw [htimed] at h
  obtain ⟨rfl, rfl⟩ := Prod.mk.inj h
  exact ⟨started, w''.events, hx⟩

/-! ### How a part of a run ends -/

/-- From a world, with any log and progress, a part of a run ends with a result and leaves files.
Nothing else changes but the log and the counts of the progress. -/
def Ends (x : Run α) (w : World) (r : Except Failure α) (files : FileTree) : Prop :=
  ∀ events progress, ∃ events' progress',
    x.outcome { w with events, progress } =
      (r, { w with files, events := events', progress := progress' }) ∧
    progress'.operations = progress.operations

namespace Ends

variable {w : World} {files files' : FileTree}

theorem result {x : Run α} {r : Except Failure α} (h : Ends x w r files) :
  (x.outcome w).1 = r
  := by
  obtain ⟨events, progress, houtcome, -⟩ := h w.events w.progress
  rw [houtcome]

theorem pure (a : α) : Ends (pure a) w (.ok a) w.files
  := by
  intro events progress
  exact ⟨events, progress, rfl, rfl⟩

theorem ofExcept {ε : Type} (failure : ε → Failure) (x : Except ε α) :
  Ends (ofExcept failure x) w (x.mapError failure) w.files
  := by
  intro events progress
  cases x with
  | error e => exact ⟨events, progress, rfl, rfl⟩
  | ok a => exact ⟨events, progress, rfl, rfl⟩

theorem record (r : LogRecord) : Ends (record r) w (.ok ()) w.files
  := by
  intro events progress
  exact ⟨events ++ [.record r], progress, rfl, rfl⟩

theorem settings : Ends settings w (.ok (CompilerSettings.ofEnvironment w.environment)) w.files
  := by
  intro events progress
  exact ⟨events, progress, rfl, rfl⟩

/-- What looks at the world sees the one that it starts from. -/
theorem get_bind {f : World → Run β} {r : Except Failure β}
    (h : ∀ events progress, Ends (f { w with events, progress }) w r files) :
  Ends (get >>= f) w r files
  := by
  intro events progress
  apply h events progress events progress

theorem bind_ok {x : Run α} {f : α → Run β} {a : α} {r : Except Failure β}
    (hx : Ends x w (.ok a) files) (hf : Ends (f a) { w with files } r files') :
  Ends (x >>= f) w r files'
  := by
  intro events progress
  obtain ⟨events₁, progress₁, houtcome, hoperations⟩ := hx events progress
  obtain ⟨events₂, progress₂, houtcome', hoperations'⟩ := hf events₁ progress₁
  use events₂, progress₂
  rw [outcome_bind_ok houtcome]
  exact ⟨houtcome', hoperations'.trans hoperations⟩

theorem bind_error {x : Run α} {e : Failure} (hx : Ends x w (.error e) files)
    (f : α → Run β) :
  Ends (x >>= f) w (.error e) files
  := by
  intro events progress
  obtain ⟨events', progress', houtcome, hoperations⟩ := hx events progress
  exact ⟨events', progress', outcome_bind_error houtcome f, hoperations⟩

/-- Parts that leave the files alone are composed as their results are. -/
theorem bind {x : Run α} {f : α → Run β} {r : Except Failure α} {g : α → Except Failure β}
    (hx : Ends x w r w.files) (hf : ∀ a, Ends (f a) w (g a) w.files) :
  Ends (x >>= f) w (r >>= g) w.files
  := by
  cases r with
  | error e => apply hx.bind_error
  | ok a => apply hx.bind_ok (hf a)

theorem mapM {f : α → Run β} {g : α → Except Failure β} (h : ∀ a, Ends (f a) w (g a) w.files)
    (as : List α) :
  Ends (as.mapM f) w (as.mapM g) w.files
  := by
  induction as with
  | nil => exact pure []
  | cons a as ih =>
      rw [List.mapM_cons, List.mapM_cons]
      apply bind (h a)
      intro b
      apply bind ih
      intro bs
      exact pure (b :: bs)

theorem forM {f : α → Run Unit} (h : ∀ a, Ends (f a) w (.ok ()) w.files) (as : List α) :
  Ends (as.forM f) w (.ok ()) w.files
  := by
  induction as with
  | nil => exact pure ()
  | cons a as ih => exact (h a).bind_ok ih

theorem readText (p : Path) :
  Ends (readText p) w ((w.files.readText p).mapError Failure.ofReadError) w.files
  := by
  apply get_bind
  intro events progress
  apply ofExcept

theorem writeText_ok {p : Path} {t : Text} (h : w.files.write p (Utf8.encode t) = .ok files) :
  Ends (writeText p t) w (.ok ()) files
  := by
  unfold Run.writeText Run.changeFiles
  apply get_bind
  intro events progress
  dsimp only
  rw [h]
  intro events progress
  exact ⟨events, progress, rfl, rfl⟩

theorem writeText_error {p : Path} {t : Text} {e : FileTree.Error}
    (h : w.files.write p (Utf8.encode t) = .error e) :
  Ends (writeText p t) w (.error (.file e)) w.files
  := by
  unfold Run.writeText Run.changeFiles
  apply get_bind
  intro events progress
  dsimp only
  rw [h]
  intro events progress
  exact ⟨events, progress, rfl, rfl⟩

theorem ensureDirectory (p : Path) :
  Ends (ensureDirectory p) w ((w.files.makeDirectories p).1.mapError Failure.file)
    (w.files.makeDirectories p).2
  := by
  unfold Run.ensureDirectory
  apply get_bind
  intro events progress
  dsimp only
  rcases w.files.makeDirectories p with ⟨e | _, files⟩
  · intro events progress
    exact ⟨events, progress, rfl, rfl⟩
  · intro events progress
    exact ⟨events, progress, rfl, rfl⟩

/-- A timed step ends as what it times. -/
theorem timed {x : Run α} {r : Except Failure α} (step : String) (h : Ends x w r files) :
  Ends (timed step x) w r files
  := by
  intro events progress
  obtain ⟨started, htimed⟩ := exists_outcome_timed step x { w with events, progress }
  obtain ⟨_, progress', houtcome, hoperations⟩ := h started progress
  obtain ⟨events', htimed⟩ := htimed houtcome
  exact ⟨events', progress', htimed, hoperations⟩

/-- What stands between entering and leaving ends as it does alone. -/
theorem within {x : Run α} {r : Except Failure α}
    {enter : Progress → Progress.Frame × Progress × LogRecord} (h : Ends x w r files)
    (hleave : ∀ (before after : Progress) (failure : Option String),
      after.operations = (enter before).2.1.operations →
      (after.leave w.clock (enter before).1 failure).1.operations = before.operations) :
  Ends (within enter x) w r files
  := by
  intro events progress
  obtain ⟨events', progress', houtcome, hoperations⟩ :=
    h (events ++ [.record (enter progress).2.2]) (enter progress).2.1
  obtain ⟨failure, hafter⟩ := outcome_afterwards houtcome fun failure w' =>
    { w' with
      progress := (w'.progress.leave w'.clock (enter progress).1 failure).1
      events := w'.events ++
        [.record (w'.progress.leave w'.clock (enter progress).1 failure).2] }
  exact ⟨_, _, hafter, hleave progress progress' failure hoperations⟩

theorem withinHeader {x : Run α} {r : Except Failure α} (name : String) (h : Ends x w r files) :
  Ends (Run.within (·.enterHeader name) x) w r files
  := by
  apply within h
  intro before after failure hoperations
  cases failure with
  | none => exact hoperations
  | some message => exact hoperations

theorem withinOperation {x : Run α} {r : Except Failure α} (name : String)
    (h : Ends x w r files) :
  Ends (Run.within (·.enterOperation name) x) w r files
  := by
  apply within h
  intro before after failure hoperations
  have hleft : after.operations.dropLast = before.operations := by
    rw [hoperations]
    apply List.dropLast_concat
  cases failure with
  | none => exact hleft
  | some message => exact hleft

end Ends

end Run

end ContractInterface
