import Sigil.Code.Base
import Sigil.Code.BaseSource
import Sigil.Code.Block
import Sigil.Code.Call
import Sigil.Code.Preparation
import Sigil.Code.Program
import Sigil.Code.SourceUnit
import Sigil.Code.Spec
import Sigil.Code.UnitSource
import Sigil.Compiler.Arguments
import Sigil.Compiler.Failure
import Sigil.Compiler.Message
import Sigil.Compiler.Process
import Sigil.Compiler.Run
import Sigil.Compiler.Settings
import Sigil.Decimal.Binary64
import Sigil.Decimal.Double
import Sigil.Decimal.Natural
import Sigil.Decimal.Shortest
import Sigil.Disk.Basic
import Sigil.Disk.Path
import Sigil.Disk.Scratch
import Sigil.Engine.Basic
import Sigil.Engine.Error
import Sigil.Engine.Run
import Sigil.Engine.Settings
import Sigil.Engine.SettingsFile
import Sigil.Json.Basic
import Sigil.Json.Numeral
import Sigil.Json.Path
import Sigil.Json.Reader
import Sigil.Json.Record
import Sigil.Library.Exports
import Sigil.Library.FileName
import Sigil.Library.Module
import Sigil.Library.Reference
import Sigil.Library.Registry
import Sigil.Library.Resolver
import Sigil.ModelType.Basic
import Sigil.ModelType.Reader
import Sigil.Order.Keyed
import Sigil.Order.NameSet
import Sigil.Render.Bag
import Sigil.Render.Call
import Sigil.Render.Encoding
import Sigil.Render.Rendering
import Sigil.Render.Scope
import Sigil.Render.Value
import Sigil.Stencil.Arguments
import Sigil.Stencil.Fault
import Sigil.Stencil.Filter
import Sigil.Stencil.Format
import Sigil.Stencil.FreeNames
import Sigil.Stencil.Function
import Sigil.Stencil.Operation
import Sigil.Stencil.Predicate
import Sigil.Stencil.Reader
import Sigil.Stencil.Render
import Sigil.Stencil.Store
import Sigil.Stencil.Token
import Sigil.Stencil.Tree
import Sigil.Stencil.Value
import Sigil.Template.AttributeValue
import Sigil.Template.ClassNames
import Sigil.Template.Cursor
import Sigil.Template.Diagnostic
import Sigil.Template.Directive
import Sigil.Template.Expr
import Sigil.Template.Reader
import Sigil.Template.Tree
import Sigil.Text.Blank
import Sigil.Text.CaseTables
import Sigil.Text.GraphemeExtend
import Sigil.Text.Hex
import Sigil.Text.LetterCase
import Sigil.Text.Pieces
import Sigil.Text.Position
import Sigil.Text.Printable
import Sigil.Text.Quoted
import Sigil.Text.Utf8
import Sigil.Yaml.Cursor
import Sigil.Yaml.Node
import Sigil.Yaml.Reader
import Sigil.Yaml.Scalar
import Sigil.Yaml.Tag
import Sigil.Yaml.Token
import Sigil.Proofs.Template.Place
import Sigil.Proofs.Template.Reading
import Sigil.Proofs.Template.Move
import Sigil.Proofs.Template.Draft
import Sigil.Proofs.Text.Position
import Sigil.Proofs.Template.Tiling
import Sigil.Proofs.Template.OpenValue
import Sigil.Proofs.Template.Surface
import Sigil.Proofs.Text.Utf8
import Sigil.Proofs.Template.Zone
import Sigil.Proofs.Template.Crossing
import Sigil.Proofs.Template.Escape
import Sigil.Proofs.Code.Unit
import Sigil.Proofs.Render.Entity
import Sigil.Proofs.Render.Outcome
import Sigil.Proofs.Code.BaseFunction
import Sigil.Proofs.Render.Markup
import Sigil.Proofs.Code.Meaning
import Sigil.Proofs.Code.Wrapping
import Sigil.Proofs.Library.Registry
import Sigil.Proofs.Text.Occurrence
import Sigil.Proofs.ModelType.Nesting
import Sigil.Proofs.ModelType.Form
import Sigil.Proofs.ModelType.Printed
import Sigil.Proofs.ModelType.ReadBack
import Sigil.Proofs.ModelType.Stable
import Sigil.Proofs.ModelType.Nameable
import Sigil.Proofs.Template.Standing
import Sigil.Proofs.Template.StartTag
import Sigil.Proofs.Template.Written
import Sigil.Proofs.Template.Parts
import Sigil.Proofs.Template.Attributes
import Sigil.Proofs.Decimal.Range
import Sigil.Proofs.Render.Number
import Sigil.Proofs.Template.Evaluated
import Sigil.Proofs.Code.Evaluation
import Sigil.Proofs.Disk.Path
import Sigil.Proofs.Disk.Tree
import Sigil.Proofs.Disk.Naming
import Sigil.Proofs.Compiler.Scratch
import Sigil.Proofs.Bytewise.Text
import Sigil.Proofs.Bytewise.Directive
import Sigil.Proofs.Bytewise.AttributeValue
import Sigil.Proofs.Bytewise.Reader
import Sigil.Proofs.Template.Verbatim
import Sigil.Proofs.ModelType.Anonymous
import Sigil.Proofs.Library.Exports
import Sigil.Proofs.Text.Literal
import Sigil.Proofs.Code.Entries
import Sigil.Proofs.Disk.Disposal
import Sigil.Proofs.Engine.History
import Sigil.Proofs.Engine.Output
import Sigil.Proofs.Template.Import
import Sigil.Proofs.Engine.Imports
import Sigil.Proofs.Code.HiddenLines
import Sigil.Proofs.Render.Attribute
import Sigil.Proofs.Template.Fragments
import Sigil.Proofs.Render.Path
import Sigil.Proofs.Library.Candidates
import Sigil.Proofs.Compiler.Linking
import Sigil.Proofs.Template.Shift
import Sigil.Proofs.Template.Comment
import Sigil.Proofs.Text.ByteOrder
import Sigil.Proofs.Disk.Parent
import Sigil.Proofs.Compiler.SearchPath
import Sigil.Proofs.Library.Newest
import Sigil.Proofs.Library.FileName
import Sigil.Proofs.Library.MemoryMap
import Sigil.Proofs.Library.Hashing
import Sigil.Proofs.Code.Forwarding
import Sigil.Proofs.Compiler.Report
import Sigil.Proofs.Template.Passage
import Sigil.Proofs.Template.Recording
import Sigil.Proofs.Template.Faults
import Sigil.Proofs.Text.LineColumn
import Sigil.Proofs.Code.Lexeme
import Sigil.Proofs.Code.CallText
import Sigil.Proofs.Code.CallLexemes
import Sigil.Proofs.Code.Literals
import Sigil.Proofs.Code.Hoisting
