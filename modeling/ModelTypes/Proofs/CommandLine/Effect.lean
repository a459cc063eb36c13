import Mathlib.Data.List.Sort
import Mathlib.Data.Option.Basic
import ModelTypes.CommandLine.Flags
import ModelTypes.Proofs.Path.Names

/-!
# The configuration of a run

A configuration file is read with its relative paths taken from a base, and the flags are applied to
the result. `Effective` says option by option what comes out of it; no other configuration fits.
-/

namespace ModelTypes

/-! ## Sets of names -/

namespace NameSet

theorem ext {s t : NameSet} (h : ∀ name, name ∈ s ↔ name ∈ t) : s = t := by
  obtain ⟨names, hs⟩ := s
  obtain ⟨names', ht⟩ := t
  obtain rfl : names = names' := hs.eq_of_mem_iff ht h
  rfl

theorem insertAll_congr {s : NameSet} {names names' : List String}
    (h : ∀ name, name ∈ names ↔ name ∈ names') : s.insertAll names = s.insertAll names' :=
  ext fun name => by simp only [mem_insertAll, h]

theorem insertAll_insertAll {s : NameSet} {names : List String} :
    (s.insertAll names).insertAll names = s.insertAll names :=
  ext fun name => by simp only [mem_insertAll, or_assoc, or_self]

end NameSet

/-! ## Paths from a base -/

namespace Path

open FileTree (slash endsInSlash)

variable {base path result : Path}

/-- A path from a base: an absolute one itself, a relative one behind the base and a slash, unless
the base is empty or ends in one. -/
def FromBase (base path result : Path) : Prop :=
  if path.isAbsolute then result = path
  else result.toList = base.toList ++ slash base ++ path.toList

theorem join_of_isAbsolute (h : isAbsolute path = true) : join base path = path := by
  simp [join, h]

theorem toList_join_of_relative (h : isAbsolute path = false) :
    (join base path).toList = base.toList ++ slash base ++ path.toList := by
  unfold join slash endsInSlash
  by_cases hempty : base = ""
  · simp [h, hempty]
  · by_cases hslash : base.toList.getLast? = some '/' <;> simp [h, hempty, hslash]

theorem join_eq_iff : join base path = result ↔ FromBase base path result := by
  unfold FromBase
  split
  · next habs => rw [join_of_isAbsolute habs, eq_comm]
  · next hrel =>
    rw [← toList_join_of_relative (Bool.eq_false_iff.2 hrel), eq_comm, String.toList_inj]

theorem map_join_eq_iff {path result : Option Path} :
    path.map (join base) = result ↔ Option.Rel (FromBase base) path result := by
  cases path <;> cases result <;> simp [join_eq_iff]

theorem isAbsolute_join_of_isAbsolute (h : isAbsolute base = true) :
    isAbsolute (join base path) = true := by
  by_cases hpath : isAbsolute path = true
  · rwa [join_of_isAbsolute hpath]
  · unfold isAbsolute at h ⊢
    rw [toList_join_of_relative (Bool.eq_false_iff.2 hpath)]
    cases hbase : base.toList with
    | nil => simp [hbase] at h
    | cons c s => simpa [hbase] using h

theorem join_join (h : isAbsolute base = true) : join base (join base path) = join base path :=
  join_of_isAbsolute (isAbsolute_join_of_isAbsolute h)

end Path

open ModelTypes.Path (FromBase)

theorem ConfigFile.relativeTo_relativeTo {file : ConfigFile} (h : base.isAbsolute = true) :
    (file.relativeTo base).relativeTo base = file.relativeTo base := by
  simp [relativeTo, Path.join_join h, Function.comp_def]

/-! ## Flags -/

namespace Flags

variable {flags : Flags} {file : ConfigFile} {base : Path} {c : Config}

/-- What a flag gives, or else a value that the file allows. -/
def Overridden (flag : Option α) (allowed : α → Prop) (value : α) : Prop :=
  match flag with
  | some given => value = given
  | none => allowed value

/-- The options of a run with a configuration file read from a base. -/
structure Effective (flags : Flags) (file : ConfigFile) (base : Path) (c : Config) : Prop where
  /-- Paths from the command line are not taken from the base. -/
  outputPath : Overridden flags.output (FromBase base file.config.outputPath) c.outputPath
  typePrefix : Overridden flags.typePrefix (· = file.config.typePrefix) c.typePrefix
  excludedModels : ∀ name, name ∈ c.excludedModels ↔
    name ∈ file.config.excludedModels ∨ name ∈ flags.excludedModels
  excludedFields : ∀ name, name ∈ c.excludedFields ↔
    name ∈ file.config.excludedFields ∨ name ∈ flags.excludedFields
  typePerField : c.typePerField ↔ file.config.typePerField ∧ ¬ flags.noTypePerField
  templatesDir : Overridden (flags.templates.map some)
    (Option.Rel (FromBase base) file.config.templatesDir) c.templatesDir
  fileExtension : c.fileExtension = file.config.fileExtension
  styleRoot : Option.Rel (FromBase base) file.config.styleRoot c.styleRoot
  formatterCommand : Overridden (if flags.formatter = [] then none else some (some flags.formatter))
    (· = file.config.formatterCommand) c.formatterCommand

theorem Overridden.unique {flag : Option α} {allowed : α → Prop} {value value' : α}
    (hallowed : ∀ a b, allowed a → allowed b → a = b) (h : Overridden flag allowed value)
    (h' : Overridden flag allowed value') : value = value' := by
  cases flag with
  | some given => exact h.trans h'.symm
  | none => exact hallowed value value' h h'

theorem effective_apply : flags.Effective file base (flags.apply (file.relativeTo base).config) where
  outputPath := by
    cases h : flags.output with
    | some path => simp [Overridden, apply, h]
    | none => exact Path.join_eq_iff.1 (by simp [apply, h, ConfigFile.relativeTo])
  typePrefix := by
    cases h : flags.typePrefix <;> simp [Overridden, apply, h, ConfigFile.relativeTo]
  excludedModels _ := NameSet.mem_insertAll
  excludedFields _ := NameSet.mem_insertAll
  typePerField := by simp [apply, ConfigFile.relativeTo]
  templatesDir := by
    cases h : flags.templates with
    | some path => simp [Overridden, apply, h]
    | none => exact Path.map_join_eq_iff.1 (by simp [apply, h, ConfigFile.relativeTo])
  fileExtension := rfl
  styleRoot := Path.map_join_eq_iff.1 rfl
  formatterCommand := by
    by_cases h : flags.formatter = [] <;> simp [Overridden, apply, h, ConfigFile.relativeTo]

theorem Effective.unique (h : flags.Effective file base c) (h' : flags.Effective file base c') :
    c = c' := by
  -- each way in which a setting follows from flags, file and base has one result
  have hpath : ∀ path a b : Path, FromBase base path a → FromBase base path b → a = b :=
    fun _ _ _ ha hb => (Path.join_eq_iff.2 ha).symm.trans (Path.join_eq_iff.2 hb)
  have hoption : ∀ path a b : Option Path, Option.Rel (FromBase base) path a →
      Option.Rel (FromBase base) path b → a = b :=
    fun _ _ _ ha hb => (Path.map_join_eq_iff.2 ha).symm.trans (Path.map_join_eq_iff.2 hb)
  have hvalue : ∀ {β : Type} (old a b : β), a = old → b = old → a = b :=
    fun _ _ _ ha hb => ha.trans hb.symm
  have hflag : c.typePerField = c'.typePerField :=
    Bool.eq_iff_iff.2 (h.typePerField.trans h'.typePerField.symm)
  have hmodels : c.excludedModels = c'.excludedModels :=
    NameSet.ext fun name => (h.excludedModels name).trans (h'.excludedModels name).symm
  have hfields : c.excludedFields = c'.excludedFields :=
    NameSet.ext fun name => (h.excludedFields name).trans (h'.excludedFields name).symm
  have houtput := h.outputPath.unique (hpath _) h'.outputPath
  have hprefix := h.typePrefix.unique (hvalue _) h'.typePrefix
  have htemplates := h.templatesDir.unique (hoption _) h'.templatesDir
  have hformatter := h.formatterCommand.unique (hvalue _) h'.formatterCommand
  have hextension := hvalue _ _ _ h.fileExtension h'.fileExtension
  have hstyle := hoption _ _ _ h.styleRoot h'.styleRoot
  cases c
  cases c'
  simp_all only

theorem apply_apply : flags.apply (flags.apply c) = flags.apply c := by
  have hgetD : ∀ {β : Type} (flag : Option β) (old : β), flag.getD (flag.getD old) = flag.getD old := by
    intro β flag old
    cases flag <;> rfl
  unfold apply
  simp only [NameSet.insertAll_insertAll, hgetD, ← Option.or_assoc, Option.or_self, Bool.and_assoc,
    Bool.and_self]
  by_cases h : flags.formatter = [] <;> simp only [h, if_true, if_false]

theorem apply_congr {models models' fields fields' : List String}
    (hmodels : ∀ name, name ∈ models ↔ name ∈ models')
    (hfields : ∀ name, name ∈ fields ↔ name ∈ fields') :
    apply { flags with excludedModels := models, excludedFields := fields } c =
      apply { flags with excludedModels := models', excludedFields := fields' } c := by
  unfold apply
  rw [NameSet.insertAll_congr hmodels, NameSet.insertAll_congr hfields]

theorem apply_silent {schema config : Option Path} : apply { schema, config } c = c := by
  simp [apply, NameSet.insertAll]

/-- The configuration of a run is the one that the flags, the file and the base of its paths call
for. Applying flags twice changes nothing, flags about other things change nothing at all, and
excluded names may come in any order and more than once. Paths stay where an absolute base has put
them. -/
theorem effective_configuration (flags : Flags) (file : ConfigFile) (base : Path) :
    (∀ c, flags.apply (file.relativeTo base).config = c ↔ flags.Effective file base c) ∧
    Option.Rel (FromBase base) file.schema (file.relativeTo base).schema ∧
    (∀ c, flags.apply (flags.apply c) = flags.apply c) ∧
    (∀ schema config c, apply { schema, config } c = c) ∧
    (∀ models fields c, (∀ name, name ∈ models ↔ name ∈ flags.excludedModels) →
      (∀ name, name ∈ fields ↔ name ∈ flags.excludedFields) →
      apply { flags with excludedModels := models, excludedFields := fields } c = flags.apply c) ∧
    (base.isAbsolute → (file.relativeTo base).relativeTo base = file.relativeTo base) := by
  refine ⟨?_, Path.map_join_eq_iff.1 rfl, fun _ => apply_apply, fun _ _ _ => apply_silent, ?_,
    ConfigFile.relativeTo_relativeTo⟩
  · intro c
    constructor
    · rintro rfl
      exact effective_apply
    · exact effective_apply.unique
  · intro models fields c hmodels hfields
    exact apply_congr hmodels hfields

def excludingFlags : Flags where
  output := some "out"
  excludedModels := ["Session", "Audit", "Session"]
  formatter := ["prettier"]

def sharedFile : ConfigFile where
  schema := some "schema.json"
  config := { templatesDir := some "/templates", styleRoot := some "style" }

theorem effective_configuration_sample :
    Path.isAbsolute "/srv/" ∧
      excludingFlags.Effective sharedFile "/srv/" (excludingFlags.apply
        { templatesDir := some "/templates", styleRoot := some "/srv/style" }) ∧
      apply { excludingFlags with excludedModels := ["Audit", "Session"], excludedFields := [] } {} =
        excludingFlags.apply {} ∧
      (sharedFile.relativeTo "/srv/").relativeTo "/srv/" = sharedFile.relativeTo "/srv/" := by
  obtain ⟨heffective, -, -, -, hnames, hbase⟩ := effective_configuration excludingFlags sharedFile
    "/srv/"
  refine ⟨rfl, (heffective _).1 (by decide +kernel), hnames _ _ {} ?_ ?_, hbase rfl⟩
  · intro name
    simp only [excludingFlags, List.mem_cons, List.not_mem_nil, or_false]
    tauto
  · exact fun name => Iff.rfl

end Flags

end ModelTypes
