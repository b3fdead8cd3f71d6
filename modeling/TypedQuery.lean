import TypedQuery.Main
import TypedQuery.Proofs.FieldCollection
import TypedQuery.Proofs.Naming
import TypedQuery.Proofs.ResponseSoundness
import TypedQuery.Proofs.Rollback
import TypedQuery.Proofs.Termination
import TypedQuery.Proofs.Validation
import TypedQuery.Proofs.Variables
import TypedQuery.Proofs.Repetition
import TypedQuery.Proofs.CanonicalNames
import TypedQuery.Proofs.AlikeRuns
import TypedQuery.Proofs.Inlining
import TypedQuery.Proofs.Reach
import TypedQuery.Proofs.Lexing
import TypedQuery.Proofs.Excerpts
import TypedQuery.Proofs.SourceText
import TypedQuery.Proofs.DefinedSpreads
import TypedQuery.Proofs.TextTokens
import TypedQuery.Proofs.Spelling
import TypedQuery.Proofs.PrintedSchema
import TypedQuery.Proofs.SchemaRoundTrip
import TypedQuery.Proofs.DeprecationBlind
import TypedQuery.Proofs.EmittedNames
import TypedQuery.Proofs.ItemNames
import TypedQuery.Proofs.WireNames
import TypedQuery.Proofs.Concatenation
import TypedQuery.Proofs.FiniteSize
import TypedQuery.Proofs.WorkingDirectory
import TypedQuery.Proofs.Output
import TypedQuery.Proofs.CollectedKeys
import TypedQuery.Proofs.AbstractShapes
import TypedQuery.Proofs.FragmentCycles
import TypedQuery.Proofs.Preorder
import TypedQuery.Proofs.Nullability
import TypedQuery.Proofs.BareFields
import TypedQuery.Proofs.InputExpansion
import TypedQuery.Proofs.Registrations
import TypedQuery.Proofs.Descriptions
import TypedQuery.Proofs.TypeOrder
import TypedQuery.Proofs.Identifiers
import TypedQuery.Proofs.VariantNames
import TypedQuery.Proofs.FieldIdentifiers
import TypedQuery.Proofs.RequestHeaders
import TypedQuery.Proofs.ReadNames
import TypedQuery.Proofs.PlainShapes
import TypedQuery.Proofs.OperationNames
import TypedQuery.Proofs.TypeIdentifiers
import TypedQuery.Proofs.AdmittedFragments
import TypedQuery.Proofs.DocLinks
