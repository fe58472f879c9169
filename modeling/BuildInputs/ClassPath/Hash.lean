import BuildInputs.ClassPath
import BuildInputs.Fingerprint.Fingerprinter
import BuildInputs.Snapshot.Walk

/-!
# Hashes of class paths

The hash of a class path is that of the fingerprint of what its entries lead to.
-/

namespace BuildInputs.Disk

variable {m : Type → Type} [Monad m]

/-- The hash of a class path as the fingerprinter sees it. -/
def hashClassPath (disk : Disk m) (isCancelled : m Bool) (f : Fingerprinter) (c : ClassPath) :
    m (Except SnapshotError ContentHash) := do
  return (← disk.snapshot isCancelled c.entries).map fun s => (f.fingerprint s none).hash

/-- The hash that tells whether a program sees the same class path again. -/
def runtimeHash (disk : Disk m) (c : ClassPath) : m (Except SnapshotError ContentHash) :=
  disk.hashClassPath (pure false) (.classPath .empty) c

end BuildInputs.Disk
