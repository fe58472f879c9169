import BuildInputs.Fingerprint.Fingerprinter

/-!
# Registries of fingerprinters

A registry holds at most one fingerprinter for each normalizer and finds it by the normalizer's
name.
-/

namespace BuildInputs

/-- Why a fingerprinter is not there. -/
inductive FingerprintError
  | unknownNormalizer (name : String)
  | notRegistered (normalizer : Normalizer)
  | duplicateNormalizer (normalizer : Normalizer)
  | invalidIgnorePattern (cause : IgnoreError)
deriving DecidableEq

def FingerprintError.message : FingerprintError → String
  | .unknownNormalizer name =>
    s!"unknown normalizer '{name}' (expected one of: " ++
      String.intercalate ", " (Normalizer.all.map Normalizer.text) ++ ")"
  | .notRegistered n => s!"no fingerprinter is registered for normalizer '{n.text}'"
  | .duplicateNormalizer n => s!"normalizer '{n.text}' is registered more than once"
  | .invalidIgnorePattern e => e.message

/-- The normalizer with the given name. -/
def Normalizer.parse (name : String) : Except FingerprintError Normalizer :=
  match ofText? name with
  | some n => return n
  | none => throw (.unknownNormalizer name)

namespace Fingerprinter

/-- The fingerprinter of a normalizer with lists of ignore patterns, added one after the other. -/
def configure (n : Normalizer) (ignore : List (List String)) :
    Except FingerprintError Fingerprinter :=
  match n with
  | .classPath | .compileClassPath => do
    let list ← ignore.foldlM
      (fun l ps => (l.extend ps).mapError FingerprintError.invalidIgnorePattern) IgnoreList.empty
    return ofNormalizer n list
  | n => return ofNormalizer n .empty

end Fingerprinter

/-- Fingerprinters by their normalizers. -/
abbrev Registry := SortedBy Fingerprinter.normalizer

namespace Registry

/-- One fingerprinter for each normalizer, without ignore patterns. -/
def defaults : Registry :=
  .ofList (Normalizer.all.map fun n => Fingerprinter.ofNormalizer n .empty)

/-- A registry of the given fingerprinters, whose normalizers must differ. -/
def build (fs : List Fingerprinter) : Except FingerprintError Registry :=
  fs.foldlM (fun r f =>
    if r.contains f.normalizer then throw (.duplicateNormalizer f.normalizer)
    else return r.insert f) SortedBy.empty

/-- The fingerprinter of a normalizer. -/
def get (r : Registry) (n : Normalizer) : Except FingerprintError Fingerprinter :=
  match r.find? n with
  | some f => return f
  | none => throw (.notRegistered n)

/-- The fingerprinter of the normalizer with the given name. -/
def getByName (r : Registry) (name : String) : Except FingerprintError Fingerprinter := do
  r.get (← Normalizer.parse name)

def normalizers (r : Registry) : List Normalizer := r.toList.map Fingerprinter.normalizer

end Registry

end BuildInputs
