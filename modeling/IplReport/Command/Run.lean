import IplReport.Command.Arguments
import IplReport.Settings.Decode
import IplReport.Snapshot.Plan

/-!
# Running a command

A command reads its settings, makes the catalog and the plan that follow from them, loads the
dump and takes the snapshot.  The first of these that fails decides what is reported.
-/

namespace IplReport.Command

/-! ## Section 1: Taking the snapshot -/

/-- Why a command fails. -/
inductive Failure where
  | settings (cause : SettingsError)
  /-- The settings describe no catalog, or the catalog admits no plan. -/
  | layout (cause : LayoutError)
  | storage (cause : StorageError)
  | snapshot (cause : SnapshotError)
  deriving DecidableEq, Repr

namespace Failure

def message : Failure → String
  | settings cause => cause.message
  | layout cause => cause.message
  | storage cause => cause.message
  | snapshot cause => cause.message

/-- The field of the snapshot that could not be had. -/
def field? : Failure → Option SnapshotField
  | snapshot cause => some cause.field
  | _ => none

end Failure

def Invocation.settings (i : Invocation) (wording : DecodeWording) (files : FileView) :
    Except SettingsError Settings :=
  match i.config with
  | some path => Settings.ofFile wording files path
  | none => .ok {}

def Invocation.snapshot (i : Invocation) (wording : DecodeWording) (files : FileView) :
    Except Failure Snapshot := do
  let settings ← (i.settings wording files).mapError .settings
  let catalog ← settings.catalog.mapError .layout
  let plan ← (Plan.ofCatalog catalog).mapError .layout
  let image ← (Image.ofDump files i.dump i.base settings.mode).mapError .storage
  (plan.captureImage (image.withRoot (i.root.getD settings.rootAddress))).mapError .snapshot

/-! ## Section 2: What is printed -/

/-- What a command leaves behind. -/
structure Outcome where
  code : UInt8
  stdout : String
  /-- What is printed as a diagnostic. -/
  stderr : String
  deriving DecidableEq, Repr

def helpText : String := "\n".intercalate [
  "Report IPL configuration from a z/OS storage dump",
  "",
  "Usage: iplinfo [OPTIONS] <DUMP>",
  "",
  "Arguments:",
  "  <DUMP>  Flat storage dump file",
  "",
  "Options:",
  "      --base <BASE>      Address of the first byte of the dump (decima"
    ++ "l or 0x-prefixed hex) [default: 0]",
  "      --root <ROOT>      Address of the PSA; overrides the configuration file",
  "  -c, --config <CONFIG>  TOML configuration file",
  "      --format <FORMAT>  Output format [default: text] [possible values: text, json]",
  "  -v, --verbose          Enable debug logging on stderr",
  "  -h, --help             Print help",
  ""]

def Outcome.ofFailure (format : OutputFormat) (failure : Failure) : Outcome :=
  let field := failure.field?.toList.map fun field => ("field", field.name)
  let json := Json.compactObject (("error", failure.message) :: field) ++ "\n"
  ⟨1, if format.isJson then json else "", s!"Error: {failure.message}\n"⟩

def Outcome.ofSnapshot (format : OutputFormat) (snapshot : Snapshot) : Outcome :=
  ⟨0, snapshot.render format ++ (if format.isJson then "\n" else ""), ""⟩

/-- What is left behind by a command line that asks for no report. -/
def Outcome.ofStop : Stop → Outcome
  | .help => ⟨0, helpText, ""⟩
  | .misuse fault => ⟨2, "", s!"error: {fault.message}\n"⟩

def run (wording : DecodeWording) (arguments : List String) (files : FileView) : Outcome :=
  match Invocation.ofArguments arguments with
  | .error stop => .ofStop stop
  | .ok i =>
    match i.snapshot wording files with
    | .error failure => .ofFailure i.format failure
    | .ok snapshot => .ofSnapshot i.format snapshot

end IplReport.Command
