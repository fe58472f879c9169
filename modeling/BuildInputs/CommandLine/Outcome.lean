import BuildInputs.CommandLine.Command
import BuildInputs.Config.Request
import BuildInputs.Fingerprint.Registry
import BuildInputs.Json
import BuildInputs.Snapshot.Walk

/-!
# What a command prints

A command ends with a text for standard output or with an error. An error is shown on one line as
the chain of its causes: what failed, then why, then why that happened. Warnings come before it.
-/

namespace BuildInputs

/-! ## Causes -/

/-- The message of an error that stands for a failed snapshot, then that of its cause. -/
def SnapshotError.chain (e : SnapshotError) : List String :=
  match e with
  | .unreadable _ cause => [e.message, cause.message]
  | _ => [e.message]

def ConfigError.chain (e : ConfigError) : List String :=
  match e with
  | .unreadable _ cause => [e.message, cause.message]
  | .component _ cause => [e.message, cause.message]
  | _ => [e.message]

def FingerprintError.chain (e : FingerprintError) : List String :=
  match e with
  | .invalidIgnorePattern cause => [e.message, cause.cause.message cause.pattern]
  | _ => [e.message]

namespace CommandLine

/-- Why a command failed. -/
inductive CommandError
  /-- There is nothing to hash. -/
  | noEntries
  | hashing (cause : SnapshotError)
  | capturing (cause : SnapshotError)
  /-- Ignore patterns for a normalizer that has none. -/
  | ignoreUnused (normalizer : Normalizer)
  | configuring (cause : FingerprintError)
  | loading (document : Path) (cause : ConfigError)
  | selecting (cause : SelectionError)

def CommandError.chain : CommandError → List String
  | .noEntries => ["No class path entries given"]
  | .hashing cause => "Failed to hash class path" :: cause.chain
  | .capturing cause => "Failed to snapshot files" :: cause.chain
  | .ignoreUnused n => [s!"--ignore only applies to the classpath normalizers, not {n.text}"]
  | .configuring cause => cause.chain
  | .loading document cause => s!"Failed to load match request: {document.text}" :: cause.chain
  | .selecting cause => [cause.message]

def CommandError.message (e : CommandError) : String := String.intercalate ": " e.chain

/-- What a command leads to. -/
structure Outcome where
  /-- Paths that lead nowhere, as they were given. -/
  missing : List Path := []
  /-- The text for standard output. -/
  result : Except CommandError String

namespace Outcome

def exitCode (o : Outcome) : Nat :=
  match o.result with
  | .ok _ => 0
  | .error _ => 1

def output (o : Outcome) : String :=
  match o.result with
  | .ok text => text
  | .error _ => ""

/-- Warnings, then the error if there is one, each with a line end. -/
def errorOutput (o : Outcome) : String :=
  String.join (o.missing.map fun p => s!"⚠ {p.text} does not exist\n") ++
    match o.result with
    | .ok _ => ""
    | .error e => s!"✗ {e.message}\n"

end Outcome

/-! ## Results -/

/-- A line that says what was achieved. -/
def successLine (text : String) : String := s!"✓ {text}\n"

/-- A line with a detail. -/
def detailLine (label value : String) : String := s!"  {label}: {value}\n"

def jsonLine (v : Json) : String := v.text ++ "\n"

def jsonPath (p : Path) : Json := .string p.text

def hashText (format : OutputFormat) (entries : List Path) (hash : ContentHash) : String :=
  match format with
  | .json => jsonLine <| .object
      [("hash", .string hash.text), ("entries", .array (entries.map jsonPath))]
  | .text =>
    successLine s!"Class path hash: {hash.text}" ++ detailLine "Entries" (toString entries.length)

/-- The root of an entry, among those that were captured. -/
def rootOf (roots : List Path) (e : FingerprintEntry) : Path := roots.getD e.root ⟨""⟩

/-- An entry by its identity, or by its root if that is empty. -/
def entryLine (roots : List Path) (e : FingerprintEntry) : String :=
  let identity := if e.identity.isEmpty then (rootOf roots e).text else e.identity
  s!"  {e.content.short} → {identity}\n"

def entryJson (roots : List Path) (e : FingerprintEntry) : Json :=
  .object [("root", jsonPath (rootOf roots e)), ("identity", .string e.identity),
    ("hash", .string e.content.text)]

def fingerprintText (format : OutputFormat) (roots : List Path) (f : Fingerprint) : String :=
  match format with
  | .json => jsonLine <| .object
      [("normalizer", .string f.normalizer.text), ("hash", .string f.hash.text),
        ("entries", .array (f.entries.map (entryJson roots)))]
  | .text =>
    String.join (f.entries.map (entryLine roots)) ++
      successLine
        s!"{f.normalizer.text} fingerprint of {f.entries.length} file(s): {f.hash.text}"

def selectionText (format : OutputFormat) (requested : AttributeSet) (selected : VariantId) :
    String :=
  match format with
  | .json => jsonLine <| .object
      [("requested", .string requested.text), ("selected", selected.json)]
  | .text => successLine s!"Selected {selected.text}" ++ detailLine "Requested" requested.text

end CommandLine

end BuildInputs
