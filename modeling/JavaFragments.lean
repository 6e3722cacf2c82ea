import JavaFragments.Proofs.Accounting
import JavaFragments.Proofs.CommentText
import JavaFragments.Proofs.Copies
import JavaFragments.Proofs.DerivedNames
import JavaFragments.Proofs.ElseChain
import JavaFragments.Proofs.GroupDiscipline
import JavaFragments.Proofs.LeadingSigns
import JavaFragments.Proofs.LeafOrder
import JavaFragments.Proofs.ListedBodies
import JavaFragments.Proofs.Recovery
import JavaFragments.Proofs.SelfContained
import JavaFragments.Proofs.SourceLine
import JavaFragments.Proofs.TreeRoundTrip
import JavaFragments.Proofs.TypeReading
import JavaFragments.Proofs.Unambiguity
import JavaFragments.Proofs.UnbracedBodies
import JavaFragments.Statement.Equality
import JavaFragments.Type.Walk
