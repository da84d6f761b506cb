import CodeSurvey.Command.Request
import CodeSurvey.Command.Run
import CodeSurvey.Command.Switch
import CodeSurvey.Content
import CodeSurvey.Digest.Sha256
import CodeSurvey.Error
import CodeSurvey.Extract.Ancestry
import CodeSurvey.Extract.Class
import CodeSurvey.Extract.Comment
import CodeSurvey.Extract.Export
import CodeSurvey.Extract.Function
import CodeSurvey.Extract.Import
import CodeSurvey.Extract.Interface
import CodeSurvey.Extract.Keyword
import CodeSurvey.Extract.Leading
import CodeSurvey.Extract.Name
import CodeSurvey.Extract.Pattern
import CodeSurvey.Extract.Property
import CodeSurvey.Extract.Scope
import CodeSurvey.Extract.Signature
import CodeSurvey.Extract.TypeText
import CodeSurvey.Extract.Variable
import CodeSurvey.Extract.Walk
import CodeSurvey.FileTree.Disk
import CodeSurvey.FileTree.Entry
import CodeSurvey.Glob.Braces
import CodeSurvey.Glob.Matching
import CodeSurvey.Glob.Pattern
import CodeSurvey.Json.Printer
import CodeSurvey.Json.Reader
import CodeSurvey.Json.Slot
import CodeSurvey.Json.Token
import CodeSurvey.Json.Value
import CodeSurvey.Language.Construct
import CodeSurvey.Language.Grammar
import CodeSurvey.Main
import CodeSurvey.Outline.Basic
import CodeSurvey.Outline.Json
import CodeSurvey.Outline.Reader
import CodeSurvey.Path
import CodeSurvey.Project.Candidate
import CodeSurvey.Project.Json
import CodeSurvey.Project.Overview
import CodeSurvey.Project.Report
import CodeSurvey.Project.Scan
import CodeSurvey.Project.Summary
import CodeSurvey.Proofs.Admission
import CodeSurvey.Proofs.AtomicSave
import CodeSurvey.Proofs.BatchReport
import CodeSurvey.Proofs.BlankLines
import CodeSurvey.Proofs.BraceExpansion
import CodeSurvey.Proofs.CheckedComments
import CodeSurvey.Proofs.CheckedReads
import CodeSurvey.Proofs.ClassMembers
import CodeSurvey.Proofs.ClosingBrace
import CodeSurvey.Proofs.Constructors
import CodeSurvey.Proofs.Declarators
import CodeSurvey.Proofs.DiskView
import CodeSurvey.Proofs.DocBlocks
import CodeSurvey.Proofs.DocumentOrder
import CodeSurvey.Proofs.ExportMarks
import CodeSurvey.Proofs.ExportedNames
import CodeSurvey.Proofs.FaithfulJson
import CodeSurvey.Proofs.FileOutcome
import CodeSurvey.Proofs.GlobMatching
import CodeSurvey.Proofs.HeritageReadings
import CodeSurvey.Proofs.ImportRecords
import CodeSurvey.Proofs.JsonSpelling
import CodeSurvey.Proofs.JsonText
import CodeSurvey.Proofs.LanguageTotals
import CodeSurvey.Proofs.LeadingRuns
import CodeSurvey.Proofs.LineEndings
import CodeSurvey.Proofs.MemberSorting
import CodeSurvey.Proofs.Modifiers
import CodeSurvey.Proofs.NameSearch
import CodeSurvey.Proofs.NonInterference
import CodeSurvey.Proofs.OptionalParameters
import CodeSurvey.Proofs.PartialSettings
import CodeSurvey.Proofs.PatternDisplay
import CodeSurvey.Proofs.PatternNames
import CodeSurvey.Proofs.Positions
import CodeSurvey.Proofs.Preorder
import CodeSurvey.Proofs.ProjectFiles
import CodeSurvey.Proofs.Pruning
import CodeSurvey.Proofs.RecordInvariants
import CodeSurvey.Proofs.RelativePath
import CodeSurvey.Proofs.SavedSettings
import CodeSurvey.Proofs.Specifiers
import CodeSurvey.Proofs.StandardIncludes
import CodeSurvey.Proofs.Supertypes
import CodeSurvey.Proofs.TagLines
import CodeSurvey.Proofs.TrimmedText
import CodeSurvey.Proofs.TypeBraces
import CodeSurvey.Proofs.TypeTexts
import CodeSurvey.Proofs.Utf8
import CodeSurvey.Proofs.WholeScan
import CodeSurvey.Settings.Basic
import CodeSurvey.Settings.Filter
import CodeSurvey.Settings.Json
import CodeSurvey.Settings.Store
import CodeSurvey.Surveyor
import CodeSurvey.Text.Blank
import CodeSurvey.Text.Extender
import CodeSurvey.Text.Lines
import CodeSurvey.Text.Quoted
import CodeSurvey.Text.Unprintable
import CodeSurvey.Text.Utf8
import CodeSurvey.Tree.Flat
import CodeSurvey.Tree.Json
import CodeSurvey.Tree.Node
import CodeSurvey.Tree.Place
import CodeSurvey.Tree.Source
