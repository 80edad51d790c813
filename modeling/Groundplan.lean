import Groundplan.Calendar
import Groundplan.Catalog
import Groundplan.CommandLine.Arguments
import Groundplan.CommandLine.Run
import Groundplan.Decode.Checked
import Groundplan.Decode.Lenient
import Groundplan.Document
import Groundplan.Document.File
import Groundplan.Double
import Groundplan.Failure
import Groundplan.Files.Disk
import Groundplan.Files.Name
import Groundplan.Files.Path
import Groundplan.Files.Read
import Groundplan.Main
import Groundplan.Model.Basic
import Groundplan.Model.Checklist
import Groundplan.Model.Decode
import Groundplan.Name.Casing
import Groundplan.Name.Words
import Groundplan.Note
import Groundplan.Project.Basic
import Groundplan.Project.Identity
import Groundplan.Project.Manifest
import Groundplan.Project.Packages
import Groundplan.Project.Readme
import Groundplan.Project.Service
import Groundplan.Project.Stores
import Groundplan.Project.Write
import Groundplan.Render.Commands
import Groundplan.Render.Entities
import Groundplan.Render.Events
import Groundplan.Render.Field
import Groundplan.Render.Routes
import Groundplan.Render.Scope
import Groundplan.Settings.Basic
import Groundplan.Settings.Load
import Groundplan.Slots
import Groundplan.Source.Declaration
import Groundplan.Source.Imports
import Groundplan.Source.Layout
import Groundplan.Source.Module
import Groundplan.Text.Blank
import Groundplan.Text.CodePoints
import Groundplan.Text.Display
import Groundplan.Text.Identifier
import Groundplan.Text.Lowercase
import Groundplan.Text.Numeral
import Groundplan.Text.Points
import Groundplan.Text.Printable
import Groundplan.Text.Quoted
import Groundplan.Text.Runs
import Groundplan.Text.Utf8
import Groundplan.Text.Variables
import Groundplan.TypeExpr
import Groundplan.Value
import Groundplan.Yaml.Cursor
import Groundplan.Yaml.Denote
import Groundplan.Yaml.Fault
import Groundplan.Yaml.Node
import Groundplan.Yaml.Scalar
import Groundplan.Yaml.Scan
import Groundplan.Yaml.Tag
import Groundplan.Yaml.Token
import Groundplan.Proofs.CatalogOrder
import Groundplan.Proofs.Stripping
import Groundplan.Proofs.ChecklistRules
import Groundplan.Proofs.Presentation
import Groundplan.Proofs.NameSpelling
import Groundplan.Proofs.SourceReading
import Groundplan.Proofs.RouteReading
import Groundplan.Proofs.EventReading
import Groundplan.Proofs.ServiceCorrespondence
import Groundplan.Proofs.SettingsOverride
import Groundplan.Proofs.SharedSpelling
import Groundplan.Proofs.ScopeDistinctness
import Groundplan.Proofs.NameCapture
import Groundplan.Proofs.DocumentFailures
import Groundplan.Proofs.Encodability
import Groundplan.Proofs.CommandAgreement
import Groundplan.Proofs.DiskChanges
import Groundplan.Proofs.BareProject
import Groundplan.Proofs.Regeneration
import Groundplan.Proofs.QuotedText
import Groundplan.Proofs.ClassNames
import Groundplan.Proofs.TypeReferences
import Groundplan.Proofs.TypeText
import Groundplan.Proofs.DocstringReading
import Groundplan.Proofs.FieldLines
import Groundplan.Proofs.Containment
import Groundplan.Proofs.WordBoundaries
import Groundplan.Proofs.SpellingLaws
import Groundplan.Proofs.EnumerationOrder
import Groundplan.Proofs.SectionSizes
import Groundplan.Proofs.PascalAgain
import Groundplan.Proofs.TypeGrammar
import Groundplan.Proofs.TypeClassifiers
import Groundplan.Proofs.InitialText
import Groundplan.Proofs.AliasedFields
import Groundplan.Proofs.LiteralReading
import Groundplan.Proofs.FlattenedText
import Groundplan.Proofs.SourceTokens
import Groundplan.Proofs.DeclarationTokens
import Groundplan.Proofs.WireNames
import Groundplan.Proofs.ClosedExpressions
import Groundplan.Proofs.ShapeFolding
import Groundplan.Proofs.EventRecords
import Groundplan.Proofs.DiskFrames
import Groundplan.Proofs.WriteOutcome
import Groundplan.Proofs.BuilderSteps
import Groundplan.Proofs.VersionText
import Groundplan.Proofs.LegalNames
import Groundplan.Proofs.TomlStrings
import Groundplan.Proofs.ManifestReading
import Groundplan.Proofs.DecimalNumerals
import Groundplan.Proofs.PairLine
import Groundplan.Proofs.VersionOrder
import Groundplan.Proofs.SourceScan
import Groundplan.Proofs.SourceStretches
import Groundplan.Proofs.ModuleParts
import Groundplan.Proofs.CodeReading
