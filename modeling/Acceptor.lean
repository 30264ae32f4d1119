import Acceptor.Command.Program
import Acceptor.Description.Flow
import Acceptor.Description.Machine
import Acceptor.Main
import Acceptor.Table.Session
import Acceptor.Proofs.Description.WellFormed
import Acceptor.Proofs.Description.FirstViolation
import Acceptor.Proofs.Table.Replay
import Acceptor.Proofs.Compile.Agreement
import Acceptor.Proofs.Table.Reach
import Acceptor.Proofs.Compile.Simulation
import Acceptor.Proofs.Table.Sound
import Acceptor.Proofs.Table.Events
import Acceptor.Proofs.Table.Bounds
import Acceptor.Proofs.Table.InPlace
import Acceptor.Proofs.Table.Same
import Acceptor.Proofs.Table.Packed
import Acceptor.Proofs.Compile.Equality
import Acceptor.Proofs.Text.Utf8
import Acceptor.Proofs.Text.Lines
import Acceptor.Proofs.Dialogue
import Acceptor.Proofs.Text.Clear
import Acceptor.Proofs.Trace
import Acceptor.Proofs.Palette
import Acceptor.Proofs.Command.Sources
import Acceptor.Proofs.Command.Usable
import Acceptor.Proofs.Command.Inputs
import Acceptor.Proofs.Command.Verdicts
import Acceptor.Proofs.Description.EntryByEntry
import Acceptor.Proofs.Description.Rearranged
import Acceptor.Proofs.Description.Direct
import Acceptor.Proofs.Description.Anchors
import Acceptor.Proofs.Yaml.Lexing
import Acceptor.Proofs.Yaml.Numeral
import Acceptor.Proofs.Yaml.Scalars
import Acceptor.Proofs.Yaml.Composing
import Acceptor.Proofs.Yaml.Phrase
import Acceptor.Proofs.Description.Written
import Acceptor.Proofs.Table.Declared
import Acceptor.Proofs.Table.Accepting
import Acceptor.Proofs.Json.Grammar
import Acceptor.Proofs.Table.Single
import Acceptor.Proofs.Json.Written
import Acceptor.Proofs.Compile.Interchange
import Acceptor.Proofs.Compile.Renumbering
import Acceptor.Proofs.Table.Onward
import Acceptor.Proofs.Text.Numbers
import Acceptor.Proofs.Text.Quoted
import Acceptor.Proofs.Table.Listing
import Acceptor.Proofs.Text.Columns
import Acceptor.Proofs.Table.Alignment
import Acceptor.Proofs.Text.Words
import Acceptor.Proofs.Trace.Record
import Acceptor.Proofs.Trace.Verbosities
import Acceptor.Proofs.Text.Width
import Acceptor.Proofs.Command.Spelling
import Acceptor.Proofs.Command.Accepted
import Acceptor.Proofs.Command.Positionals
