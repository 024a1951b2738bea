import CodeOutline.Builder
import CodeOutline.Config.Basic
import CodeOutline.Config.Decode
import CodeOutline.Config.Fault
import CodeOutline.Config.Render
import CodeOutline.Config.Storage
import CodeOutline.Document
import CodeOutline.Kind
import CodeOutline.Line.Classifier
import CodeOutline.Line.Literal
import CodeOutline.Line.Rules
import CodeOutline.Line.Scan
import CodeOutline.LineSource
import CodeOutline.Navigation
import CodeOutline.Number.Binary64
import CodeOutline.Outline
import CodeOutline.Panel.Basic
import CodeOutline.Panel.KeySet
import CodeOutline.Path
import CodeOutline.Report.Dump
import CodeOutline.Report.Value
import CodeOutline.Session.Basic
import CodeOutline.Session.Command
import CodeOutline.Session.Update
import CodeOutline.Snapshot
import CodeOutline.Text.Blank
import CodeOutline.Text.Lines
import CodeOutline.Text.Offset
import CodeOutline.Text.Quoted
import CodeOutline.Text.Unseen
import CodeOutline.Text.Word
import CodeOutline.Tree
import CodeOutline.Yaml.Cursor
import CodeOutline.Yaml.Event
import CodeOutline.Yaml.Item
import CodeOutline.Yaml.Resolve
import CodeOutline.Yaml.Scalar
import CodeOutline.Yaml.Tag
import CodeOutline.Yaml.Token
import CodeOutline.Proofs.Refresh
import CodeOutline.Proofs.Forest
import CodeOutline.Proofs.Progress
import CodeOutline.Proofs.Extraction
import CodeOutline.Proofs.BraceNesting
import CodeOutline.Proofs.Selection
import CodeOutline.Proofs.Commands
import CodeOutline.Proofs.Lockstep
import CodeOutline.Proofs.WellIndented
import CodeOutline.Proofs.Ink
import CodeOutline.Proofs.PaddedRules
import CodeOutline.Proofs.Padding
import CodeOutline.Proofs.SiblingNames
import CodeOutline.Proofs.Folding
import CodeOutline.Proofs.ExactPlaces
import CodeOutline.Proofs.RevisionTag
import CodeOutline.Proofs.LineSources
import CodeOutline.Proofs.EarlierLines
import CodeOutline.Proofs.AppendedRule
import CodeOutline.Proofs.Fragments
import CodeOutline.Proofs.FoldableKeys
import CodeOutline.Proofs.RowOrder
import CodeOutline.Proofs.RowToggle
import CodeOutline.Proofs.LineBreaks
import CodeOutline.Proofs.Reading
import CodeOutline.Proofs.DeclarationShape
import CodeOutline.Proofs.Segments
import CodeOutline.Proofs.HiddenNames
import CodeOutline.Proofs.RedundantRefresh
import CodeOutline.Proofs.IndentNesting
import CodeOutline.Proofs.KeyLookup
import CodeOutline.Proofs.WordScan
import CodeOutline.Proofs.LineTokens
import CodeOutline.Proofs.LineItems
import CodeOutline.Proofs.SettingsLines
import CodeOutline.Proofs.SettingsText
