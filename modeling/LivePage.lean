import LivePage.App.Document
import LivePage.CommandLine.Run
import LivePage.Json.Canonical
import LivePage.Main
import LivePage.Proofs.App.FailedInstallation
import LivePage.Proofs.App.Removal
import LivePage.Proofs.App.Separation
import LivePage.Proofs.Collection.KeyedLog
import LivePage.Proofs.DataSource.Editing
import LivePage.Proofs.DataSource.Freshness
import LivePage.Proofs.DataSource.History
import LivePage.Proofs.DataSource.Integrity
import LivePage.Proofs.DataSource.Persistence
import LivePage.Proofs.DataSource.Reading
import LivePage.Proofs.DataSource.References
import LivePage.Proofs.DataSource.Removal
import LivePage.Proofs.DataSource.Visibility
import LivePage.Proofs.Expr.DataStates
import LivePage.Proofs.Expr.Equality
import LivePage.Proofs.Expr.Failures
import LivePage.Proofs.Expr.FreeNames
import LivePage.Proofs.Expr.Layers
import LivePage.Proofs.Expr.MemberPaths
import LivePage.Proofs.Expr.Occurrences
import LivePage.Proofs.Expr.Recognition
import LivePage.Proofs.Expr.Scanning
import LivePage.Proofs.Expr.Spacing
import LivePage.Proofs.Expr.Spelling
import LivePage.Proofs.Expr.SyntaxTree
import LivePage.Proofs.Files.Paths
import LivePage.Proofs.Files.Places
import LivePage.Proofs.Files.Runs
import LivePage.Proofs.Markup.Elements
import LivePage.Proofs.Markup.ReadBack
import LivePage.Proofs.Markup.VisibleText
import LivePage.Proofs.Number.Numerals
import LivePage.Proofs.Preview.Confinement
import LivePage.Proofs.Render.Absence
import LivePage.Proofs.Render.Builtins
import LivePage.Proofs.Render.Containment
import LivePage.Proofs.Render.Dependence
import LivePage.Proofs.Render.Panics
import LivePage.Proofs.Render.Preorder
import LivePage.Proofs.Render.Registration
import LivePage.Proofs.Render.ReportKeys
import LivePage.Proofs.Render.Reports
import LivePage.Proofs.Render.StartTags
import LivePage.Proofs.Style.ReadBack
import LivePage.Proofs.Style.Reader
import LivePage.Proofs.Style.Scaling
import LivePage.Proofs.Template.Balance
import LivePage.Proofs.Template.Concatenation
import LivePage.Proofs.Template.Expressions
import LivePage.Proofs.Template.Pieces
import LivePage.Proofs.Tree.Persistence
import LivePage.Proofs.Tree.Queries
