import TypedColumns.Registry.Pool
import TypedColumns.Schema.Spec
import TypedColumns.Settings.Document
import TypedColumns.Workspace
import TypedColumns.Proofs.Announcements
import TypedColumns.Proofs.ArenaBlocks
import TypedColumns.Proofs.Cacheless
import TypedColumns.Proofs.CatalogHistory
import TypedColumns.Proofs.Coherence
import TypedColumns.Proofs.Generations
import TypedColumns.Proofs.Inheritance
import TypedColumns.Proofs.Iteration
import TypedColumns.Proofs.LeafPrecedence
import TypedColumns.Proofs.Linking
import TypedColumns.Proofs.LoadTrace
import TypedColumns.Proofs.MemberWalk
import TypedColumns.Proofs.Membership
import TypedColumns.Proofs.Ownership
import TypedColumns.Proofs.Respelling
import TypedColumns.Proofs.SplitObjects
import TypedColumns.Proofs.Suppression
import TypedColumns.Proofs.TypedefLimit
