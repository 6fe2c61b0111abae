import CodeAtlas.Schema.Standard
import CodeAtlas.Record.Json
import CodeAtlas.PythonSource.ModuleName
import CodeAtlas.Extraction
import CodeAtlas.Cycle
import CodeAtlas.Store.Request
import CodeAtlas.Store.Connection
import CodeAtlas.Graph.Build
import CodeAtlas.Project.FileSet
import CodeAtlas.Files.Tree
import CodeAtlas.Files.Glob
import CodeAtlas.Files.Ignore
import CodeAtlas.Project.Reading
import CodeAtlas.Toml.Basic
import CodeAtlas.Toml.Reader
import CodeAtlas.CommandLine.Arguments
import CodeAtlas.CommandLine.Command
import CodeAtlas.CommandLine.Run
import CodeAtlas.Main
import CodeAtlas.Proofs.Change
import CodeAtlas.Proofs.Contribution
import CodeAtlas.Proofs.LanguageIsolation
import CodeAtlas.Proofs.FileOrder
import CodeAtlas.Proofs.Repetition
import CodeAtlas.Proofs.ContainmentOrder
import CodeAtlas.Proofs.SchemaAgreement
import CodeAtlas.Proofs.Statistics
import CodeAtlas.Proofs.RecordSoundness
import CodeAtlas.Proofs.CodeOnly
import CodeAtlas.Proofs.Provenance
import CodeAtlas.Proofs.Reindexing
import CodeAtlas.Proofs.AllOrNothing
import CodeAtlas.Proofs.Legible
import CodeAtlas.Proofs.StatementText
import CodeAtlas.Proofs.ImportLinks
import CodeAtlas.Proofs.Cycles
import CodeAtlas.Proofs.InheritanceView
import CodeAtlas.Proofs.Overriding
import CodeAtlas.Proofs.TreeRecords
import CodeAtlas.Proofs.RelativeImports
import CodeAtlas.Proofs.KotlinParameters
import CodeAtlas.Proofs.DartParameters
import CodeAtlas.Proofs.DirectiveAnnotations
import CodeAtlas.Proofs.RelativePaths
import CodeAtlas.Proofs.QualifiedImports
import CodeAtlas.Proofs.MemberLookup
import CodeAtlas.Proofs.SameFile
import CodeAtlas.Proofs.Precedence
import CodeAtlas.Proofs.StandIns
import CodeAtlas.Proofs.CallSites
import CodeAtlas.Proofs.DirectivePaths
import CodeAtlas.Proofs.Registration
import CodeAtlas.Proofs.FieldPresence
import CodeAtlas.Proofs.TripleQuotes
import CodeAtlas.Proofs.IdSeparation
import CodeAtlas.Proofs.DirectiveNames
import CodeAtlas.Proofs.StoredValues
import CodeAtlas.Proofs.ClearedFiles
import CodeAtlas.Proofs.ExactExtent
import CodeAtlas.Proofs.ScannedLines
import CodeAtlas.Proofs.ClosedLiteral
import CodeAtlas.Proofs.JsonForms
import CodeAtlas.Proofs.JoinedParts
import CodeAtlas.Proofs.LeadingAnnotations
import CodeAtlas.Proofs.CallShapes
