import TypeProse.Text.CodePoint
import TypeProse.Text.Blank
import TypeProse.Text.Line
import TypeProse.Text.Printable
import TypeProse.Text.Terminal
import TypeProse.Location
import TypeProse.Token
import TypeProse.Token.Lexeme
import TypeProse.Diagnostic
import TypeProse.Fault
import TypeProse.Scanner
import TypeProse.Scanner.Session
import TypeProse.TypeExpr
import TypeProse.TypeExpr.Outline
import TypeProse.Prose.Enumeration
import TypeProse.Prose.Name
import TypeProse.Prose.Phrase
import TypeProse.Prose.Session
import TypeProse.Release
import TypeProse.Event
import TypeProse.Draft
import TypeProse.Reading
import TypeProse.Reading.Session
import TypeProse.Description
import TypeProse.Command.Directory
import TypeProse.Command.Options
import TypeProse.Command.Run
import TypeProse.Main
import TypeProse.Proofs.Name
import TypeProse.Proofs.Lexeme
import TypeProse.Proofs.Scanning
import TypeProse.Proofs.Drafting
import TypeProse.Proofs.Grammar
import TypeProse.Proofs.Nesting
import TypeProse.Proofs.Recognition
import TypeProse.Proofs.Writing
import TypeProse.Proofs.Continuation
import TypeProse.Proofs.Lookback
import TypeProse.Proofs.Covering
import TypeProse.Proofs.Cutting
import TypeProse.Proofs.Joining
import TypeProse.Proofs.Lead
import TypeProse.Proofs.Unambiguity
import TypeProse.Proofs.Locating
import TypeProse.Proofs.Streaming
import TypeProse.Proofs.Pulling
import TypeProse.Proofs.Rereading
import TypeProse.Proofs.Depth
import TypeProse.Proofs.Repair
import TypeProse.Proofs.Escape
import TypeProse.Proofs.Arguments
import TypeProse.Proofs.Independence
import TypeProse.Proofs.Padding
import TypeProse.Proofs.FileInput
import TypeProse.Proofs.Tracing
import TypeProse.Proofs.Verbose
import TypeProse.Proofs.Checked
import TypeProse.Proofs.Partiality
import TypeProse.Proofs.Respacing
import TypeProse.Proofs.Layout
import TypeProse.Proofs.Outlining
import TypeProse.Proofs.LongestName
import TypeProse.Proofs.Walking
import TypeProse.Proofs.Naming
import TypeProse.Proofs.Reporting
import TypeProse.Proofs.Descent
import TypeProse.Proofs.Unwinding
