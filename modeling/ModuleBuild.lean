import ModuleBuild.Generator.Template
import ModuleBuild.Proofs.PlannedWrites
import ModuleBuild.Proofs.Tree.Growth
import ModuleBuild.Script
import ModuleBuild.Session
import ModuleBuild.SourceList
import ModuleBuild.Tree.Edit
import ModuleBuild.Proofs.Staleness
import ModuleBuild.Proofs.Tree.Refusal
import ModuleBuild.Proofs.FailedBuild
import ModuleBuild.Proofs.ModulePaths
import ModuleBuild.Proofs.DefaultLayout
import ModuleBuild.Proofs.CleanBuild
import ModuleBuild.Proofs.Tree.Obstacle
import ModuleBuild.Proofs.TouchedTree
import ModuleBuild.Proofs.SparedPlaces
import ModuleBuild.Proofs.SeparateModules
import ModuleBuild.Proofs.OracleAgreement
import ModuleBuild.Proofs.FailedQueries
import ModuleBuild.Proofs.Utf8
import ModuleBuild.Proofs.FixedCourse
import ModuleBuild.Proofs.FixedBuild
import ModuleBuild.Proofs.ReportOrder
import ModuleBuild.Proofs.BuildOrder
import ModuleBuild.Proofs.Chronicle
import ModuleBuild.Proofs.Rounding
import ModuleBuild.Proofs.TimeOrder
import ModuleBuild.Proofs.BuildFrame
import ModuleBuild.Proofs.RepeatedBuild
import ModuleBuild.Proofs.InstalledSupport
import ModuleBuild.Proofs.Defects
import ModuleBuild.Proofs.StoredInterfaces
import ModuleBuild.Proofs.SourceLists
import ModuleBuild.Proofs.SessionAccount
import ModuleBuild.Proofs.ForeignPairing
import ModuleBuild.Proofs.Tree.Prefixed
import ModuleBuild.Proofs.Provenance
import ModuleBuild.Proofs.NameGrammar
import ModuleBuild.Proofs.TextFiles
import ModuleBuild.Proofs.SupportInstallation
import ModuleBuild.Proofs.ReportLines
import ModuleBuild.Proofs.FreshOutput
import ModuleBuild.Proofs.FreshNames
import ModuleBuild.Proofs.RepeatedNames
import ModuleBuild.Proofs.NameOrder
