import BuildInputs.Attribute
import BuildInputs.Attribute.Set
import BuildInputs.ClassPath
import BuildInputs.ClassPath.Hash
import BuildInputs.CommandLine.Arguments
import BuildInputs.CommandLine.Command
import BuildInputs.CommandLine.Outcome
import BuildInputs.CommandLine.Run
import BuildInputs.Component
import BuildInputs.Config.Coercion
import BuildInputs.Config.Reader
import BuildInputs.Config.Request
import BuildInputs.Config.Schema
import BuildInputs.Decimal
import BuildInputs.Decimal.Shortest
import BuildInputs.Digest.Content
import BuildInputs.Digest.Framing
import BuildInputs.Digest.Sha256
import BuildInputs.Disk
import BuildInputs.Disk.Tree
import BuildInputs.Fingerprint
import BuildInputs.Fingerprint.Fingerprinter
import BuildInputs.Fingerprint.Ignore
import BuildInputs.Fingerprint.Registry
import BuildInputs.Glob
import BuildInputs.Glob.Parser
import BuildInputs.Json
import BuildInputs.Main
import BuildInputs.Matching
import BuildInputs.Path
import BuildInputs.Platform
import BuildInputs.Rule
import BuildInputs.Schema
import BuildInputs.Selection
import BuildInputs.Snapshot
import BuildInputs.Snapshot.Walk
import BuildInputs.Sorted
import BuildInputs.Text.Invisible
import BuildInputs.Text.Quoted
import BuildInputs.Text.Split
import BuildInputs.Toml.Parser
import BuildInputs.Toml.Quoted
import BuildInputs.Toml.Scalar
import BuildInputs.Toml.Table
import BuildInputs.Toml.Text
import BuildInputs.Toml.Value
import BuildInputs.Version
import BuildInputs.Version.Parser
import BuildInputs.Proofs.Digest.Decoding
import BuildInputs.Proofs.Except
import BuildInputs.Proofs.Path
import BuildInputs.Proofs.ClassPath
import BuildInputs.Proofs.Config.Coercion
import BuildInputs.Proofs.Decimal
import BuildInputs.Proofs.Text.ByteOrder
import BuildInputs.Proofs.Text.Split
import BuildInputs.Proofs.Fingerprint.Content
import BuildInputs.Proofs.Fingerprint.StrategyKey
import BuildInputs.Proofs.Fingerprint.Hint
import BuildInputs.Proofs.Fingerprint.Summary
import BuildInputs.Proofs.Snapshot.Faithful
import BuildInputs.Proofs.Attribute.Order
import BuildInputs.Proofs.Attribute.Set
import BuildInputs.Proofs.Attribute.Pairs
import BuildInputs.Proofs.Attribute.Merge
import BuildInputs.Proofs.Sorted.Search
import BuildInputs.Proofs.Attribute.Listing
import BuildInputs.Proofs.Matching.Rounds
import BuildInputs.Proofs.Matching.Candidates
import BuildInputs.Proofs.Matching.Lexicographic
import BuildInputs.Proofs.Matching.Explanation
import BuildInputs.Proofs.Matching.Errors
import BuildInputs.Proofs.Selection
import BuildInputs.Proofs.Config.Resolution
import BuildInputs.Proofs.Fingerprint.Changes
import BuildInputs.Proofs.Matching.Single
import BuildInputs.Proofs.Fingerprint.Spelling
import BuildInputs.Proofs.Snapshot.Trails
import BuildInputs.Proofs.Fingerprint.Absolute
import BuildInputs.Proofs.Snapshot.Place
import BuildInputs.Proofs.Fingerprint.Sensitivity
import BuildInputs.Proofs.Fingerprint.CompileView
import BuildInputs.Proofs.Schema
import BuildInputs.Proofs.Schema.Freezing
import BuildInputs.Proofs.Config.Denotation
import BuildInputs.Proofs.Config.Meaning
import BuildInputs.Proofs.Matching.Relevance
import BuildInputs.Proofs.Matching.Shortcuts
import BuildInputs.Proofs.Snapshot.Assembly
import BuildInputs.Proofs.Matching.Survival
import BuildInputs.Proofs.Matching.ExactMatch
import BuildInputs.Proofs.Matching.Mutual
import BuildInputs.Proofs.Fingerprint.Listing
import BuildInputs.Proofs.Fingerprint.Pruning
import BuildInputs.Proofs.Fingerprint.Diff
import BuildInputs.Proofs.Fingerprint.Shadowing
import BuildInputs.Proofs.Component
import BuildInputs.Proofs.Version.Text
import BuildInputs.Proofs.Config.Keys
import BuildInputs.Proofs.Version.Precedence
import BuildInputs.Proofs.Rule
import BuildInputs.Proofs.Snapshot.Address
import BuildInputs.Proofs.Snapshot.Capture
import BuildInputs.Proofs.Snapshot.Cancellation
import BuildInputs.Proofs.Fingerprint.RootNumbers
