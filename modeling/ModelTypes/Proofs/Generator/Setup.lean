import ModelTypes.Generator

/-!
# Setup only reads

Loading templates and choosing a formatter looks at files and changes nothing.
-/

namespace ModelTypes

def Reads (x : StateM Sandbox α) : Prop :=
  ∀ s, (x s).2 = s

theorem reads_pure (a : α) : Reads (pure a) := fun _ => rfl

theorem Reads.bind {x : StateM Sandbox α} {f : α → StateM Sandbox β} (hx : Reads x)
    (hf : ∀ a, Reads (f a)) : Reads (x >>= f) := by
  intro s
  show (f (x s).1 (x s).2).2 = s
  rw [hf, hx]

theorem reads_read (path : Path) : Reads (Host.read path) := fun _ => rfl

theorem reads_isFile (path : Path) : Reads (Host.isFile path) := fun _ => rfl

theorem reads_workingDirectory : Reads Host.workingDirectory := fun _ => rfl

theorem reads_load (directory : Option Path) (kind : DocumentKind) :
    Reads (Template.load directory kind) := by
  unfold Template.load
  cases directory with
  | none => exact reads_pure _
  | some directory =>
    refine (reads_isFile _).bind fun there => ?_
    split
    · refine (reads_read _).bind fun result => ?_
      cases result with
      | error e => exact reads_pure _
      | ok source => exact reads_pure _
    · exact reads_pure _

theorem reads_firstFile? (paths : List Path) : Reads (Host.firstFile? paths) := by
  induction paths with
  | nil => exact reads_pure _
  | cons path paths ih =>
    unfold Host.firstFile?
    refine (reads_isFile path).bind fun there => ?_
    split
    · exact reads_pure _
    · exact ih

theorem reads_resolve (directory : Path) : Reads (Style.resolve directory) := by
  unfold Style.resolve
  refine (reads_firstFile? _).bind fun path => ?_
  cases path with
  | none => exact reads_pure _
  | some path =>
    refine (reads_read path).bind fun result => ?_
    cases result with
    | error e => exact reads_pure _
    | ok text => exact reads_pure _

namespace Generator

theorem reads_formatterOf (config : Config) : Reads (formatterOf config) := by
  unfold formatterOf
  cases config.formatterCommand with
  | some command => exact reads_pure _
  | none =>
    cases config.styleRoot with
    | some root => exact (reads_pure root).bind fun root =>
        (reads_resolve root).bind fun _ => reads_pure _
    | none => exact reads_workingDirectory.bind fun root =>
        (reads_resolve root).bind fun _ => reads_pure _

theorem reads_run_bind {x : ExceptT ε (StateM Sandbox) α} {f : α → ExceptT ε (StateM Sandbox) β}
    (hx : Reads x.run) (hf : ∀ a, Reads (f a).run) : Reads (x >>= f).run := by
  have hbind : Reads (x.run >>= ExceptT.bindCont f) := by
    refine hx.bind fun result => ?_
    cases result with
    | error e => exact reads_pure _
    | ok a => exact hf a
  exact hbind

theorem reads_ofConfig (config : Config) : Reads (ofConfig config) := by
  unfold ofConfig
  have hload (kind : DocumentKind) : Reads (ExceptT.run (m := StateM Sandbox) (ExceptT.mk do
      return (← Template.load config.templatesDir kind).mapError GenerateError.template)) :=
    (reads_load _ _).bind fun _ => reads_pure _
  exact reads_run_bind (hload .model) fun _ => reads_run_bind (hload .enum) fun _ =>
    reads_run_bind (reads_formatterOf config) fun _ => reads_pure _

end Generator

end ModelTypes
