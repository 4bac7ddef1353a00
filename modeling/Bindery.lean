import Bindery.Decimal.Binary64
import Bindery.Decimal.Shortest
import Bindery.Document.Forest
import Bindery.Document.Move
import Bindery.Fault
import Bindery.Json.Basic
import Bindery.Json.Conversion
import Bindery.Json.Printer
import Bindery.Json.Reader
import Bindery.Json.StrictEq
import Bindery.Markup.Lexer
import Bindery.Markup.Reader
import Bindery.Markup.Reference
import Bindery.Markup.ReferenceTable
import Bindery.Markup.Tree
import Bindery.Markup.Writer
import Bindery.Path
import Bindery.Proofs.Decimal.Nearest
import Bindery.Proofs.Document.Appending
import Bindery.Proofs.Document.Entries
import Bindery.Proofs.Document.Growing
import Bindery.Proofs.Document.Linked
import Bindery.Proofs.Document.Listening
import Bindery.Proofs.Document.Operations
import Bindery.Proofs.Document.Relinking
import Bindery.Proofs.Document.Rows
import Bindery.Proofs.Document.Staging
import Bindery.Proofs.Expression
import Bindery.Proofs.Json.Displayed
import Bindery.Proofs.Json.Exactness
import Bindery.Proofs.Json.StrictEq
import Bindery.Proofs.Markup.Canonical
import Bindery.Proofs.Markup.Lexing
import Bindery.Proofs.Markup.Nesting
import Bindery.Proofs.Markup.Outline
import Bindery.Proofs.Markup.Reading
import Bindery.Proofs.Markup.References
import Bindery.Proofs.Markup.RoundTrip
import Bindery.Proofs.Markup.Tokens
import Bindery.Proofs.Path
import Bindery.Proofs.Reactive.Collecting
import Bindery.Proofs.Reactive.Computed
import Bindery.Proofs.Reactive.Currency
import Bindery.Proofs.Reactive.FanOut
import Bindery.Proofs.Reactive.History
import Bindery.Proofs.Reactive.InTouch
import Bindery.Proofs.Reactive.Moments
import Bindery.Proofs.Reactive.Noticing
import Bindery.Proofs.Reactive.Rounds
import Bindery.Proofs.Reactive.Session
import Bindery.Proofs.Reactive.Settling
import Bindery.Proofs.Reactive.Silence
import Bindery.Proofs.Reactive.Termination
import Bindery.Proofs.Reactive.Turns
import Bindery.Proofs.Reactive.Watchers
import Bindery.Proofs.Store.Alike
import Bindery.Proofs.Store.Assign
import Bindery.Proofs.Store.Dependencies
import Bindery.Proofs.Store.Document
import Bindery.Proofs.Store.Elsewhere
import Bindery.Proofs.Store.Graph
import Bindery.Proofs.Store.Identity
import Bindery.Proofs.Store.LeadsTo
import Bindery.Proofs.Store.Lookup
import Bindery.Proofs.Store.Members
import Bindery.Proofs.Store.Overwrite
import Bindery.Proofs.Store.Reachable
import Bindery.Proofs.Store.Represents
import Bindery.Proofs.Store.Rereading
import Bindery.Proofs.Store.Scalars
import Bindery.Proofs.Store.Skipped
import Bindery.Proofs.Store.Traversal
import Bindery.Proofs.Store.Tree
import Bindery.Proofs.Template.Markers
import Bindery.Proofs.Template.Rendering
import Bindery.Proofs.Template.Spelling
import Bindery.Proofs.ViewModel.Access
import Bindery.Proofs.ViewModel.Binding
import Bindery.Proofs.ViewModel.Chains
import Bindery.Proofs.ViewModel.Displays
import Bindery.Proofs.ViewModel.Disposal
import Bindery.Proofs.ViewModel.Drawing
import Bindery.Proofs.ViewModel.Ending
import Bindery.Proofs.ViewModel.Entering
import Bindery.Proofs.ViewModel.Expansion
import Bindery.Proofs.ViewModel.InStep
import Bindery.Proofs.ViewModel.Injection
import Bindery.Proofs.ViewModel.Leniency
import Bindery.Proofs.ViewModel.Mounting
import Bindery.Proofs.ViewModel.Ownership
import Bindery.Proofs.ViewModel.Rearranging
import Bindery.Proofs.ViewModel.Refusal
import Bindery.Proofs.ViewModel.Repainting
import Bindery.Proofs.ViewModel.Skipping
import Bindery.Proofs.ViewModel.Structure
import Bindery.Proofs.ViewModel.Tending
import Bindery.Proofs.ViewModel.Watching
import Bindery.Reactive.Program
import Bindery.Reactive.Propagation
import Bindery.Reactive.World
import Bindery.Script.DocumentStep
import Bindery.Script.Formula
import Bindery.Script.Handler
import Bindery.Script.Method
import Bindery.Script.Notebook
import Bindery.Script.Place
import Bindery.Script.Reaction
import Bindery.Script.Reply
import Bindery.Script.StoreStep
import Bindery.Script.ViewSession
import Bindery.Script.ViewStep
import Bindery.Store.Arena
import Bindery.Store.Basic
import Bindery.Store.Derivation
import Bindery.Store.Write
import Bindery.Template.Directive
import Bindery.Template.Error
import Bindery.Template.Marker
import Bindery.Template.Plan
import Bindery.Template.Settings
import Bindery.Template.Source
import Bindery.Text.Blank
import Bindery.Text.Quoted
import Bindery.Text.Unprintable
import Bindery.Toml.Digits
import Bindery.Toml.Moment
import Bindery.Toml.Reader
import Bindery.Toml.Scalar
import Bindery.Toml.Text
import Bindery.Toml.Value
import Bindery.ViewModel.Basic
import Bindery.ViewModel.Binding
import Bindery.ViewModel.Compile
import Bindery.ViewModel.Page
import Bindery.Word
