import DriveHealth.Attribute.Definition
import DriveHealth.Attribute.Format
import DriveHealth.Attribute.Preset
import DriveHealth.Attribute.RawText
import DriveHealth.Attribute.Record
import DriveHealth.Attribute.Rule
import DriveHealth.Attribute.Temperature
import DriveHealth.ByteOrder
import DriveHealth.CommandLine.Options
import DriveHealth.CommandLine.Run
import DriveHealth.Database.Builtin
import DriveHealth.Database.Entry
import DriveHealth.Database.Family
import DriveHealth.Database.Listing
import DriveHealth.Database.Lookup
import DriveHealth.Database.Outline
import DriveHealth.Database.PresetText
import DriveHealth.Database.Reading
import DriveHealth.Database.Settings
import DriveHealth.Database.Source
import DriveHealth.Database.Store
import DriveHealth.Database.Token
import DriveHealth.File.Basic
import DriveHealth.File.Stream
import DriveHealth.File.Tree
import DriveHealth.Identify.Page
import DriveHealth.Identify.Report
import DriveHealth.Identify.Version
import DriveHealth.Main
import DriveHealth.Message
import DriveHealth.Nvme.Log
import DriveHealth.Nvme.Report
import DriveHealth.Proofs.Attribute.Presets
import DriveHealth.Proofs.Bytes
import DriveHealth.Proofs.CommandLine.Endings
import DriveHealth.Proofs.CommandLine.Precedence
import DriveHealth.Proofs.Database.AddedFile
import DriveHealth.Proofs.Database.Conversion
import DriveHealth.Proofs.Database.Display
import DriveHealth.Proofs.Database.EntryList
import DriveHealth.Proofs.Database.FirstMatch
import DriveHealth.Proofs.Database.History
import DriveHealth.Proofs.Database.Items
import DriveHealth.Proofs.Database.Layout
import DriveHealth.Proofs.Database.Lexemes
import DriveHealth.Proofs.Database.Verdict
import DriveHealth.Proofs.Smart.WordOrder
import DriveHealth.Regex.Bank
import DriveHealth.Regex.Basic
import DriveHealth.Regex.Bracket
import DriveHealth.Regex.Compiled
import DriveHealth.Regex.Graph
import DriveHealth.Regex.Parser
import DriveHealth.Regex.Portability
import DriveHealth.Regex.Search
import DriveHealth.Regex.Token
import DriveHealth.Release
import DriveHealth.Report
import DriveHealth.Smart.Page
import DriveHealth.Smart.Table
import DriveHealth.Text.Basic
import DriveHealth.Text.Buffer
import DriveHealth.Text.Number
import DriveHealth.Text.Quantity
import DriveHealth.Text.Scan
import DriveHealth.Proofs.Text.Lines
import DriveHealth.Proofs.Text.Number
import DriveHealth.Proofs.Text.Quantity
import DriveHealth.Proofs.Nvme.Report
import DriveHealth.Proofs.Text.Columns
import DriveHealth.Proofs.Attribute.RawText
import DriveHealth.Proofs.Smart.Table
import DriveHealth.Proofs.Text.Parts
import DriveHealth.Proofs.Attribute.RuleText
import DriveHealth.Proofs.Attribute.Temperature
import DriveHealth.Proofs.Attribute.Recovery
import DriveHealth.Proofs.Attribute.DefinitionText
import DriveHealth.Proofs.Database.WrittenPresets
import DriveHealth.Proofs.Attribute.RawValue
import DriveHealth.Proofs.Smart.HiddenValues
import DriveHealth.Proofs.Attribute.TemperaturePacking
import DriveHealth.Proofs.Database.JoinedPresets
import DriveHealth.Proofs.Database.PresetGaps
import DriveHealth.Proofs.Attribute.DefinitionGrammar
import DriveHealth.Proofs.Database.EndMark
import DriveHealth.Proofs.Regex.Bank
import DriveHealth.Proofs.Regex.Portability
import DriveHealth.Proofs.Text.Buffer
import DriveHealth.Proofs.Text.Grouping
import DriveHealth.Proofs.Text.Capacity
import DriveHealth.Proofs.Text.Scale
import DriveHealth.Proofs.Nvme.Counter
import DriveHealth.Proofs.Database.PresetListing
import DriveHealth.Proofs.Database.MessageLines
import DriveHealth.Proofs.Database.UsbNames
import DriveHealth.Proofs.Identify.FieldText
import DriveHealth.Proofs.CommandLine.OptionOrder
import DriveHealth.Proofs.Attribute.SelectedBytes
import DriveHealth.Proofs.Database.Progress
