import TypedWrappers.FileTree.Lemmas
import TypedWrappers.Main
import TypedWrappers.Pass.Trace
import TypedWrappers.Proofs.DiscoveryOrder
import TypedWrappers.Proofs.PartialWorkflows
import TypedWrappers.Proofs.PassFailures
import TypedWrappers.Proofs.TaskResults
import TypedWrappers.Proofs.PartialDoubles
import TypedWrappers.Proofs.GeneratedFiles
import TypedWrappers.Proofs.RenderedClasses
import TypedWrappers.Proofs.Collisions
import TypedWrappers.Proofs.DistinctMembers
import TypedWrappers.Proofs.WrittenArtifacts
import TypedWrappers.Proofs.FaithfulMethods
import TypedWrappers.Proofs.TypeSpelling
import TypedWrappers.Proofs.ScopeLookup
import TypedWrappers.Proofs.DisplayedTypes
import TypedWrappers.Proofs.WorkflowImports
import TypedWrappers.Proofs.GenerateCheck
import TypedWrappers.Proofs.SharedActivities
import TypedWrappers.Proofs.UnrelatedReferences
import TypedWrappers.Proofs.SnapshotRoundTrip
import TypedWrappers.Proofs.ConfinedGeneration
import TypedWrappers.Proofs.TypeGrammar
import TypedWrappers.Proofs.NormalDisplays
import TypedWrappers.Proofs.SufficientImports
import TypedWrappers.Proofs.AmbiguousNames
import TypedWrappers.Proofs.FurtherImports
import TypedWrappers.Proofs.EqualKeys
import TypedWrappers.Proofs.RenderedDoubles
import TypedWrappers.Proofs.FileTexts
import TypedWrappers.Proofs.KnownTypes
import TypedWrappers.Proofs.DiscoveredSnapshots
import TypedWrappers.Proofs.StartedProjects
import TypedWrappers.Proofs.FirstFaults
import TypedWrappers.Proofs.ArtifactInsertions
