import ModelTypings.Command.Answer
import ModelTypings.Command.Arguments
import ModelTypings.Command.Topic
import ModelTypings.Command.Usage
import ModelTypings.Files.Name
import ModelTypings.Files.Path
import ModelTypings.Files.Save
import ModelTypings.Files.Tree
import ModelTypings.Files.Walk
import ModelTypings.Log.Event
import ModelTypings.Log.Filter
import ModelTypings.Log.Line
import ModelTypings.Main
import ModelTypings.Naming.Camel
import ModelTypings.Proofs.Command.Init
import ModelTypings.Proofs.Files.Above
import ModelTypings.Proofs.Files.Ascent
import ModelTypings.Proofs.Files.Kept
import ModelTypings.Proofs.Files.Locate
import ModelTypings.Proofs.Files.Name
import ModelTypings.Proofs.Files.Path
import ModelTypings.Proofs.Files.Plain
import ModelTypings.Proofs.Files.Relative
import ModelTypings.Proofs.Files.Save
import ModelTypings.Proofs.Files.Tree
import ModelTypings.Proofs.Files.Walk
import ModelTypings.Proofs.Naming.Camel
import ModelTypings.Proofs.Naming.Letters
import ModelTypings.Proofs.Naming.Snake
import ModelTypings.Proofs.Run.Account
import ModelTypings.Proofs.Run.Again
import ModelTypings.Proofs.Run.Banner
import ModelTypings.Proofs.Run.Effect
import ModelTypings.Proofs.Run.Failure
import ModelTypings.Proofs.Run.Mirror
import ModelTypings.Proofs.Run.Scan
import ModelTypings.Proofs.Run.Target
import ModelTypings.Proofs.Settings.Omission
import ModelTypings.Proofs.Settings.RoundTrip
import ModelTypings.Proofs.Settings.Usable
import ModelTypings.Proofs.Source.Alike
import ModelTypings.Proofs.Source.Arguments
import ModelTypings.Proofs.Source.ByteHeader
import ModelTypings.Proofs.Source.ByteScan
import ModelTypings.Proofs.Source.ClassLine
import ModelTypings.Proofs.Source.Classes
import ModelTypings.Proofs.Source.Concatenation
import ModelTypings.Proofs.Source.Events
import ModelTypings.Proofs.Source.Field
import ModelTypings.Proofs.Source.FieldGrammar
import ModelTypings.Proofs.Source.FieldLine
import ModelTypings.Proofs.Source.GuardedReader
import ModelTypings.Proofs.Source.Header
import ModelTypings.Proofs.Source.HeaderLayout
import ModelTypings.Proofs.Source.Insertion
import ModelTypings.Proofs.Source.Lexical
import ModelTypings.Proofs.Source.LineBreak
import ModelTypings.Proofs.Source.LineEnd
import ModelTypings.Proofs.Source.Markers
import ModelTypings.Proofs.Source.OneLine
import ModelTypings.Proofs.Source.Order
import ModelTypings.Proofs.Source.Pieces
import ModelTypings.Proofs.Source.Places
import ModelTypings.Proofs.Source.Relabelling
import ModelTypings.Proofs.Source.Respacing
import ModelTypings.Proofs.Source.Resplitting
import ModelTypings.Proofs.Source.Splitting
import ModelTypings.Proofs.Source.Suite
import ModelTypings.Proofs.Text.Bytes
import ModelTypings.Proofs.Text.Identifier
import ModelTypings.Proofs.Text.Name
import ModelTypings.Proofs.Text.Recased
import ModelTypings.Proofs.Text.Utf8
import ModelTypings.Proofs.Toml.Document
import ModelTypings.Proofs.Toml.Quoted
import ModelTypings.Proofs.TypeScript.PropertyNames
import ModelTypings.Proofs.TypeScript.ReadBack
import ModelTypings.Proofs.TypeScript.TypeTable
import ModelTypings.Run.Basic
import ModelTypings.Run.Scan
import ModelTypings.Run.Target
import ModelTypings.Settings.Basic
import ModelTypings.Settings.File
import ModelTypings.Settings.Overrides
import ModelTypings.Settings.Toml
import ModelTypings.Source.Carry
import ModelTypings.Source.ClassHeader
import ModelTypings.Source.Field
import ModelTypings.Source.Models
import ModelTypings.Source.Statement
import ModelTypings.Text.Blank
import ModelTypings.Text.Case
import ModelTypings.Text.Case.Table
import ModelTypings.Text.Cluster
import ModelTypings.Text.Cluster.Table
import ModelTypings.Text.Line
import ModelTypings.Text.Printable.Table
import ModelTypings.Text.Quoted
import ModelTypings.Text.Ranges
import ModelTypings.Text.Split
import ModelTypings.Text.Utf8
import ModelTypings.Text.Word
import ModelTypings.Text.Word.Table
import ModelTypings.Toml.Character
import ModelTypings.Toml.Document
import ModelTypings.Toml.Printer
import ModelTypings.Toml.Quoted
import ModelTypings.Toml.Scalar
import ModelTypings.Toml.Table
import ModelTypings.Toml.Value
import ModelTypings.TypeScript.Interface
import ModelTypings.TypeScript.TypeTable
