import ArkRoutes.CommandLine
import ArkRoutes.Scan
import ArkRoutes.Proofs.Justification
import ArkRoutes.Proofs.Declarations
import ArkRoutes.Proofs.EntryFile
import ArkRoutes.Proofs.Chain
import ArkRoutes.Proofs.TypeDecorators
import ArkRoutes.Proofs.Isolation
import ArkRoutes.Proofs.Spelling
import ArkRoutes.Proofs.Regeneration
import ArkRoutes.Proofs.Stages
import ArkRoutes.Proofs.Frame
import ArkRoutes.Proofs.BuilderText
import ArkRoutes.Proofs.JsonText
import ArkRoutes.Proofs.Artifacts
import ArkRoutes.Proofs.DeclaredNames
import ArkRoutes.Proofs.Agreement
import ArkRoutes.Proofs.Renaming
import ArkRoutes.Proofs.Aliases
import ArkRoutes.Proofs.Reach
import ArkRoutes.Proofs.Limits
import ArkRoutes.Proofs.Visitor
import ArkRoutes.Proofs.Candidates
import ArkRoutes.Proofs.NamelessDecorators
import ArkRoutes.Proofs.ImportPaths
import ArkRoutes.Proofs.ComponentImports
import ArkRoutes.Proofs.RouteLiterals
import ArkRoutes.Proofs.TopLevel
import ArkRoutes.Proofs.LiteralValues
import ArkRoutes.Proofs.BuilderLines
import ArkRoutes.Proofs.Relabelling
import ArkRoutes.Proofs.IndexLine
import ArkRoutes.Proofs.BuilderLocation
import ArkRoutes.Proofs.AliasChains
import ArkRoutes.Proofs.ScanList
