import ComponentKit.Proofs.Component.Lines
import ComponentKit.Proofs.Session.Ending
import ComponentKit.Workflow.Add

/-!
# The stages in front of the snapshot

The stages in front of the snapshot keep the store, so that each of them ends in one way for one store. How they
end is said here in one piece each: what a source of templates offers (`TemplateSource.offer`), what a request
generates (`generated`), how the outcome is taken (`prepared`), and whether a component is new (`checked`).
-/

namespace ComponentKit.Workflow

open Disk Project Step

variable {start : Store} {settings : Settings} {templates : TemplateSource} {path : Path}
  {request : Request} {project : Project} {kind : Kind} {name : Text} {failure : Failure} {disk : Disk}
  {home : Location}

/-- A report between the stages. -/
theorem endsIn_report (level : Level) (text : Text) : EndsIn start (unguarded (report level text)) (.ok ()) :=
  (EndsIn.report level text).mapFailure _

/-! ## Is it new -/

/-- Whether a component is new, as `checkNew` finds it on the disk. -/
def checked (start : Store) (kind : Kind) (name : Text) (path : Path) : Except AddFailure Unit :=
  match start.disk.pathExists start.home path with
  | .ok false => .ok ()
  | .ok true => .error (.stopped ⟨.checkNotExists, .alreadyExists kind name path, false⟩)
  | .error fault => .error (.escaped (.access fault))

theorem endsIn_checkNew : EndsIn start (checkNew project kind name)
    (checked start kind name (componentPath project.sourceRoot kind name)) := by
  have hexisting : EndsIn start (unguarded (project.existing? kind name)) _ :=
    EndsIn.mapFailure _ (EndsIn.bind (EndsIn.inspect _) fun found _ => EndsIn.pure _)
  rw [checkNew, checked]
  refine EndsIn.ok_bind (endsIn_report _ _) ?_
  -- nothing answers a fault of the look at the disk, so that it escapes
  rcases hlook : start.disk.pathExists start.home (componentPath project.sourceRoot kind name)
    with fault | (_ | _)
  · rw [hlook] at hexisting
    exact .error_bind hexisting
  · rw [hlook] at hexisting
    exact .ok_bind hexisting (endsIn_report _ _)
  · rw [hlook] at hexisting
    exact .ok_bind hexisting (.error_bind (.throw _))

theorem checked_eq_ok :
    checked start kind name path = .ok () ↔ start.disk.pathExists start.home path = .ok false := by
  rw [checked]
  rcases start.disk.pathExists start.home path with fault | (_ | _) <;> simp

theorem checked_eq_escaped : checked start kind name path = .error (.escaped failure) ↔
    ∃ fault, start.disk.pathExists start.home path = .error fault ∧ failure = .access fault := by
  rw [checked]
  rcases start.disk.pathExists start.home path with fault | (_ | _) <;> simp [eq_comm]

/-! ## Templates -/

/-- What `TemplateSource.render` gives for a kind and the values of its placeholders, as the disk shows it. -/
def TemplateSource.offer (disk : Disk) (home : Location) (kind : Kind) (context : Template.Context) :
    TemplateSource → Except Failure Text
  | bundled => ((Component.sourceTemplate kind).render context).mapError .template
  | files folder engine =>
    match disk.readFile home (folder.join (templateFile kind)) with
    | .ok bytes => do
      let text ← (Utf8.decode bytes).mapError .undecodable
      engine disk home (Text.unifyLineBreaks text) context
    | .error _ => .error (.template (.notFound (templateFile kind) folder.toText))

/-- A source of templates renders what it offers. -/
theorem endsIn_render (kind : Kind) (context : Template.Context) :
    EndsIn start (templates.render kind context) (templates.offer start.disk start.home kind context) := by
  cases templates with
  | bundled => exact .ofResult _
  | files folder engine =>
    rw [TemplateSource.render, TemplateSource.offer]
    refine EndsIn.ok_bind (EndsIn.outcome (EndsIn.inspect _)) ?_
    -- whether there is a file is asked first, and the answer is yes exactly if it can be read
    cases hread : start.disk.readFile start.home (folder.join (templateFile kind)) with
    | error fault =>
      have hnone : start.disk.isFile start.home (folder.join (templateFile kind)) ≠ .ok true := by
        intro hfile
        obtain ⟨bytes, hbytes⟩ := isFile_eq_ok_true_iff.mp hfile
        rw [hread] at hbytes
        cases hbytes
      rcases hfile : start.disk.isFile start.home (folder.join (templateFile kind)) with fault | (_ | _)
      · exact .throw _
      · exact .throw _
      · exact absurd hfile hnone
    | ok bytes =>
      rw [isFile_eq_ok_true_iff.mpr ⟨bytes, hread⟩]
      dsimp only [Except.mapError]
      rw [readText, bind_assoc]
      refine EndsIn.ok_bind (.inspect_ok hread) ?_
      rw [bind_assoc]
      refine EndsIn.bind (.ofResult _) fun text _ => ?_
      rw [pure_bind]
      refine EndsIn.get_bind fun session hs => ?_
      subst hs
      exact .ofResult _

/-- A source of templates fails otherwise than by a fault of a template for a file that is no text, and as its engine
fails. -/
theorem offer_eq_error_iff {context : Template.Context} (hfault : failure.templateFault? = none) :
    templates.offer disk home kind context = .error failure ↔
      ∃ folder engine bytes, templates = .files folder engine ∧
        disk.readFile home (folder.join (templateFile kind)) = .ok bytes ∧
        ((∃ fault, Utf8.decode bytes = .error fault ∧ failure = .undecodable fault) ∨
          ∃ text, Utf8.decode bytes = .ok text ∧
            engine disk home (Text.unifyLineBreaks text) context = .error failure) := by
  have hne : ∀ fault, failure ≠ .template fault := by
    rintro fault rfl
    cases hfault
  cases templates with
  | bundled =>
    refine ⟨fun h => ?_, fun ⟨_, _, _, h, _⟩ => by cases h⟩
    obtain ⟨fault, -, rfl⟩ := mapError_eq_error.mp h
    exact absurd rfl (hne fault)
  | files folder engine =>
    rw [TemplateSource.offer]
    constructor
    · intro h
      split at h
      · rename_i bytes hread
        refine ⟨folder, engine, bytes, rfl, hread, ?_⟩
        rcases bind_eq_error.mp h with hdecode | ⟨text, hdecode, h⟩
        · exact .inl (mapError_eq_error.mp hdecode)
        · exact .inr ⟨text, mapError_eq_ok.mp hdecode, h⟩
      · exact absurd (Except.error.inj h).symm (hne _)
    · rintro ⟨_, _, bytes, hfiles, hread, ⟨fault, hdecode, rfl⟩ | ⟨text, hdecode, hfails⟩⟩
      · cases hfiles
        rw [hread]
        exact bind_eq_error.mpr (.inl (mapError_eq_error.mpr ⟨fault, hdecode, rfl⟩))
      · cases hfiles
        rw [hread]
        exact bind_eq_error.mpr (.inr ⟨text, mapError_eq_ok.mpr hdecode, hfails⟩)

/-! ## Generating -/

/-- What a user says about a component, with the name of the project. -/
def detailsOf (settings : Settings) (request : Request) (project : Project) : Component.Details :=
  ⟨request.description, if request.author.isEmpty then settings.defaultAuthor else request.author,
    project.name⟩

/-- The values of the placeholders for a request, by `Component.context`. -/
def contextOf (start : Store) (settings : Settings) (request : Request) (project : Project) (name : Text) :
    Template.Context :=
  Component.context request.kind name (detailsOf settings request project) start.now.date

/-- What `generate` makes of a request. -/
def generated (start : Store) (settings : Settings) (templates : TemplateSource) (project : Project)
    (request : Request) (name : Text) : Except Failure Component.Generated := do
  let content ← templates.offer start.disk start.home request.kind (contextOf start settings request project name)
  return ⟨request.kind, content, Component.wiringOf request.kind name⟩

theorem endsIn_generate : EndsIn start (generate settings templates project request name)
    (generated start settings templates project request name) := by
  rw [generate]
  refine EndsIn.get_bind fun session hs => ?_
  subst hs
  refine EndsIn.bind (endsIn_render request.kind _) fun content _ => ?_
  rw [Component.wire_context]
  exact .ofResult _

/-- How `prepare` takes the outcome of generating: a fault of the template is expected. -/
def prepared : Except Failure Component.Generated → Except AddFailure Component.Generated
  | .ok component => .ok component
  | .error (.template fault) => .error (.stopped ⟨.generate, .template fault, false⟩)
  | .error failure => .error (.escaped failure)

theorem endsIn_prepare : EndsIn start (prepare settings templates project request name)
    (prepared (generated start settings templates project request name)) := by
  rw [prepare]
  refine EndsIn.ok_bind (endsIn_report _ _) (EndsIn.ok_bind (EndsIn.outcome endsIn_generate) ?_)
  rcases generated start settings templates project request name with failure | component
  · cases failure with
    | template fault => exact .throw _
    | _ => exact .throw _
  · exact .ok_bind (endsIn_report _ _) (.pure component)

theorem prepared_eq_ok {result : Except Failure Component.Generated} {component : Component.Generated} :
    prepared result = .ok component ↔ result = .ok component := by
  rcases result with failure | made
  · cases failure <;> simp [prepared]
  · simp [prepared]

theorem prepared_eq_escaped {result : Except Failure Component.Generated} :
    prepared result = .error (.escaped failure) ↔ result = .error failure ∧ failure.templateFault? = none := by
  rcases result with cause | made
  · rw [Except.error.injEq]
    cases cause with
    | template fault =>
      refine ⟨fun h => (by cases h), ?_⟩
      rintro ⟨rfl, hfault⟩
      cases hfault
    | _ =>
      refine ⟨fun h => ⟨AddFailure.escaped.inj (Except.error.inj h), ?_⟩, ?_⟩
      · rw [← AddFailure.escaped.inj (Except.error.inj h)]
        rfl
      · rintro ⟨rfl, -⟩
        rfl
  · exact ⟨fun h => (by cases h), fun h => (by cases h.1)⟩

end ComponentKit.Workflow
