import FunctionalOptions.Command.Arguments
import FunctionalOptions.Command.Run
import FunctionalOptions.Command.Word
import FunctionalOptions.Descriptor.Basic
import FunctionalOptions.Descriptor.File
import FunctionalOptions.Descriptor.Format
import FunctionalOptions.Descriptor.Json.Check
import FunctionalOptions.Descriptor.Json.Read
import FunctionalOptions.Descriptor.Json.Shape
import FunctionalOptions.Descriptor.Json.Write
import FunctionalOptions.Descriptor.ReadError
import FunctionalOptions.Descriptor.Xml.Pull
import FunctionalOptions.Descriptor.Xml.Read
import FunctionalOptions.Descriptor.Xml.Shape
import FunctionalOptions.Files.Branch
import FunctionalOptions.Files.FileError
import FunctionalOptions.Files.FileTree
import FunctionalOptions.Files.Filesystem
import FunctionalOptions.Files.Path
import FunctionalOptions.Go.AliasTable
import FunctionalOptions.Go.Direction
import FunctionalOptions.Go.Identifier
import FunctionalOptions.Go.Package
import FunctionalOptions.Go.StructTag
import FunctionalOptions.Go.TypeExpr
import FunctionalOptions.Go.TypeText
import FunctionalOptions.Json.Basic
import FunctionalOptions.Json.Number
import FunctionalOptions.Json.Quoted
import FunctionalOptions.Json.Text
import FunctionalOptions.Json.Token
import FunctionalOptions.Json.Tree
import FunctionalOptions.Log
import FunctionalOptions.Main
import FunctionalOptions.Options.Generate
import FunctionalOptions.Options.GenerationError
import FunctionalOptions.Options.Model
import FunctionalOptions.Options.OptionFunction
import FunctionalOptions.Options.OutputFile
import FunctionalOptions.Options.ParameterNames
import FunctionalOptions.Options.Settings
import FunctionalOptions.Options.SourceFile
import FunctionalOptions.Proofs.Command.Library
import FunctionalOptions.Proofs.Command.Regeneration
import FunctionalOptions.Proofs.Conversion.Inverse
import FunctionalOptions.Proofs.Conversion.Records
import FunctionalOptions.Proofs.Descriptor.Accepted
import FunctionalOptions.Proofs.Descriptor.Agreement
import FunctionalOptions.Proofs.Descriptor.AgreementShape
import FunctionalOptions.Proofs.Descriptor.Consumption
import FunctionalOptions.Proofs.Descriptor.Grammar
import FunctionalOptions.Proofs.Descriptor.Limits
import FunctionalOptions.Proofs.Descriptor.Markup
import FunctionalOptions.Proofs.Descriptor.Mended
import FunctionalOptions.Proofs.Descriptor.ReadMarkup
import FunctionalOptions.Proofs.Descriptor.RoundTrip
import FunctionalOptions.Proofs.Descriptor.ShapeTree
import FunctionalOptions.Proofs.Descriptor.Truncated
import FunctionalOptions.Proofs.Descriptor.Written
import FunctionalOptions.Proofs.Fallible
import FunctionalOptions.Proofs.Files.Directories
import FunctionalOptions.Proofs.Files.Operations
import FunctionalOptions.Proofs.Files.Resolution
import FunctionalOptions.Proofs.Files.Writing
import FunctionalOptions.Proofs.Grammar.Parser
import FunctionalOptions.Proofs.Grammar.Qualifiers
import FunctionalOptions.Proofs.Grammar.RoundTrip
import FunctionalOptions.Proofs.Grammar.Signatures
import FunctionalOptions.Proofs.Grammar.Token
import FunctionalOptions.Proofs.Imports.Block
import FunctionalOptions.Proofs.Imports.Collisions
import FunctionalOptions.Proofs.Imports.Exactness
import FunctionalOptions.Proofs.Imports.Order
import FunctionalOptions.Proofs.Imports.Table
import FunctionalOptions.Proofs.Imports.Views
import FunctionalOptions.Proofs.Json.Nesting
import FunctionalOptions.Proofs.Json.Number
import FunctionalOptions.Proofs.Json.Quoted
import FunctionalOptions.Proofs.Json.Text
import FunctionalOptions.Proofs.Names.CaseMapping
import FunctionalOptions.Proofs.Names.Declarations
import FunctionalOptions.Proofs.Names.Derived
import FunctionalOptions.Proofs.Names.Legality
import FunctionalOptions.Proofs.Names.Numbering
import FunctionalOptions.Proofs.Names.Parameters
import FunctionalOptions.Proofs.Names.Scopes
import FunctionalOptions.Proofs.Options.Appended
import FunctionalOptions.Proofs.Options.Destination
import FunctionalOptions.Proofs.Options.Exported
import FunctionalOptions.Proofs.Options.Formats
import FunctionalOptions.Proofs.Options.FunctionList
import FunctionalOptions.Proofs.Options.Functions
import FunctionalOptions.Proofs.Options.Generate
import FunctionalOptions.Proofs.Options.RenderSafety
import FunctionalOptions.Proofs.Options.Unselected
import FunctionalOptions.Proofs.Outcome
import FunctionalOptions.Proofs.Tags.Reference
import FunctionalOptions.Proofs.Tags.Written
import FunctionalOptions.Proofs.Text.Decimal
import FunctionalOptions.Proofs.Types.Lookups
import FunctionalOptions.Proofs.Types.Parts
import FunctionalOptions.Proofs.Types.Sameness
import FunctionalOptions.Proofs.Types.Valid
import FunctionalOptions.Proofs.Types.Written
import FunctionalOptions.Proofs.Xml.Attributes
import FunctionalOptions.Proofs.Xml.Elements
import FunctionalOptions.Proofs.Xml.Events
import FunctionalOptions.Proofs.Xml.Filler
import FunctionalOptions.Proofs.Xml.Framed
import FunctionalOptions.Proofs.Xml.Pieces
import FunctionalOptions.Proofs.Xml.Spelled
import FunctionalOptions.Proofs.Xml.Tags
import FunctionalOptions.Proofs.Xml.Writing
import FunctionalOptions.Record.Basic
import FunctionalOptions.Record.Conversion
import FunctionalOptions.Record.Load
import FunctionalOptions.Record.RecordError
import FunctionalOptions.Record.Validation
import FunctionalOptions.Text.Ascii
import FunctionalOptions.Text.Split
import FunctionalOptions.Unicode.Alphabetic
import FunctionalOptions.Unicode.CaseMapping
import FunctionalOptions.Unicode.Cased
import FunctionalOptions.Unicode.Lowercase
import FunctionalOptions.Unicode.Numeric
import FunctionalOptions.Unicode.Ranges
import FunctionalOptions.Unicode.Uppercase
import FunctionalOptions.Unicode.WhiteSpace
import FunctionalOptions.Xml.Element
import FunctionalOptions.Xml.Event
import FunctionalOptions.Xml.Fault
import FunctionalOptions.Xml.Markup
import FunctionalOptions.Xml.Reference
import FunctionalOptions.Xml.Tag
import FunctionalOptions.Proofs.Descriptor.Alike
import FunctionalOptions.Proofs.Descriptor.Presentation
import FunctionalOptions.Proofs.Descriptor.PresentationShape
import FunctionalOptions.Proofs.Json.Scan
import FunctionalOptions.Proofs.Json.Spelling
import FunctionalOptions.Proofs.Json.Tree
import FunctionalOptions.Proofs.Descriptor.Restated
import FunctionalOptions.Proofs.Tags.Cuts
