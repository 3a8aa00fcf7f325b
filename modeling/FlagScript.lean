import FlagScript.Command.Folder
import FlagScript.Main
import FlagScript.Template.Source
import FlagScript.Proofs.Grammar.Soundness
import FlagScript.Proofs.Token.Stream
import FlagScript.Proofs.Grammar.Completeness
import FlagScript.Proofs.Grammar.Acceptance
import FlagScript.Proofs.Grammar.Agreement
import FlagScript.Proofs.Grammar.Layout
import FlagScript.Proofs.Source.Scan
import FlagScript.Proofs.Source.Unquoted
import FlagScript.Proofs.Source.Reading
import FlagScript.Proofs.Source.Literal
import FlagScript.Proofs.Token.Lexeme
import FlagScript.Proofs.Source.Printable
import FlagScript.Proofs.Token.Munch
import FlagScript.Proofs.Source.RoundTrip
import FlagScript.Proofs.Source.Ends
import FlagScript.Proofs.Source.Brackets
import FlagScript.Proofs.Run.WorldCall
import FlagScript.Proofs.Run.OperatorCalls
import FlagScript.Proofs.Run.Asking
import FlagScript.Proofs.Template.Conditions
import FlagScript.Proofs.Template.Frame
import FlagScript.Proofs.Template.Prepared
import FlagScript.Proofs.Template.Parts
import FlagScript.Proofs.Template.Cut
import FlagScript.Proofs.Template.Pieces
import FlagScript.Proofs.Template.Printed
import FlagScript.Proofs.Template.Directive
import FlagScript.Proofs.Template.Scan
import FlagScript.Proofs.Template.Derivation
import FlagScript.Proofs.Template.Acceptance
import FlagScript.Proofs.Template.Unread
import FlagScript.Proofs.Template.Prose
import FlagScript.Proofs.Text.Upper
import FlagScript.Proofs.Run.Names
import FlagScript.Proofs.Template.RoundTrip
import FlagScript.Proofs.Nesting.Depth
import FlagScript.Proofs.Nesting.Count
import FlagScript.Proofs.Nesting.Limit
import FlagScript.Proofs.Nesting.Chain
import FlagScript.Proofs.Nesting.Height
import FlagScript.Proofs.Source.Plain
import FlagScript.Proofs.Grammar.Apart
import FlagScript.Proofs.Source.Translation
import FlagScript.Proofs.Source.Statement
import FlagScript.Proofs.Run.Entry
import FlagScript.Proofs.Run.CallSites
import FlagScript.Proofs.Token.Line
import FlagScript.Proofs.Grammar.Joined
import FlagScript.Proofs.Source.Concatenation
import FlagScript.Proofs.Command.Validity
import FlagScript.Proofs.FlagFile.Table
import FlagScript.Proofs.Run.Labels
import FlagScript.Proofs.FlagFile.RoundTrip
import FlagScript.Proofs.FlagFile.Reload
import FlagScript.Proofs.Toml.Quoted
import FlagScript.Proofs.Toml.Number
import FlagScript.Proofs.Toml.Float
import FlagScript.Proofs.Float.Digits
import FlagScript.Proofs.Float.Nearest
import FlagScript.Proofs.Float.Places
import FlagScript.Proofs.Float.Shortest
import FlagScript.Proofs.Run.Effects
import FlagScript.Proofs.Run.Resolved
import FlagScript.Proofs.Run.CallEffects
import FlagScript.Proofs.Run.Untouched
import FlagScript.Proofs.Run.Reset
import FlagScript.Proofs.World
import FlagScript.Proofs.Template.Nesting
import FlagScript.Proofs.Template.Rendering
import FlagScript.Proofs.Value.Division
import FlagScript.Proofs.Value.Order
import FlagScript.Proofs.Template.Gap
import FlagScript.Proofs.Grammar.Fault
import FlagScript.Proofs.Source.Alone
import FlagScript.Proofs.Position
import FlagScript.Proofs.Token.Cover
import FlagScript.Proofs.Grammar.Refusal
import FlagScript.Proofs.Grammar.Blame
import FlagScript.Proofs.Template.Offence
import FlagScript.Proofs.Template.Place
import FlagScript.Proofs.Text.Bytes
import FlagScript.Proofs.Run.Snapshot
import FlagScript.Proofs.FlagFile.Names
import FlagScript.Proofs.Template.Normal
import FlagScript.Proofs.Peg.Script
import FlagScript.Proofs.Peg.Script
