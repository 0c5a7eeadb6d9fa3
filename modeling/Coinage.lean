import Coinage.Address
import Coinage.Base64
import Coinage.Binary64
import Coinage.Denom.Basic
import Coinage.Denom.Lookup
import Coinage.Fault
import Coinage.Form.Checked
import Coinage.Form.Reader
import Coinage.Form.Request
import Coinage.Json.Basic
import Coinage.Json.Parser
import Coinage.Json.Printer
import Coinage.Json.Writable
import Coinage.Ledger
import Coinage.Listing
import Coinage.Log
import Coinage.Metadata
import Coinage.Numeral
import Coinage.Registry.Answer
import Coinage.Registry.Basic
import Coinage.Registry.Entry
import Coinage.Registry.Execute
import Coinage.Registry.Message
import Coinage.Registry.Migration
import Coinage.Rejection
import Coinage.Server.App
import Coinage.Server.Body
import Coinage.Server.Response
import Coinage.Server.Target
import Coinage.Settings
import Coinage.Store.Basic
import Coinage.Store.Database
import Coinage.Store.Script
import Coinage.Table
import Coinage.Text.Basic
import Coinage.Text.Blank
import Coinage.Text.Capital
import Coinage.Text.Cased
import Coinage.Text.Encoding
import Coinage.Text.Lowercase
import Coinage.Text.Printable
import Coinage.Text.Quoted
import Coinage.Text.Ranges
import Coinage.Text.Utf8
import Coinage.Text.Whole
import Coinage.Wire.Reply
import Coinage.Wire.StringField
import Coinage.Wire.Varint
import Coinage.Proofs.Except
import Coinage.Proofs.Numeral
import Coinage.Proofs.Transaction
import Coinage.Proofs.Act
import Coinage.Proofs.Failure
import Coinage.Proofs.Json.Quotation
import Coinage.Proofs.Json.Reading
import Coinage.Proofs.Json.Printing
import Coinage.Proofs.Denom
import Coinage.Proofs.Spelling
import Coinage.Proofs.Entry
import Coinage.Proofs.Book
import Coinage.Proofs.Judgement
import Coinage.Proofs.Footprint
import Coinage.Proofs.Journal
import Coinage.Proofs.Traffic
import Coinage.Proofs.Execution
import Coinage.Proofs.History
import Coinage.Proofs.Run
import Coinage.Proofs.Log
import Coinage.Proofs.Answer
import Coinage.Proofs.Authority
import Coinage.Proofs.Creation
import Coinage.Proofs.Chronicle
import Coinage.Proofs.Precedence
import Coinage.Proofs.Independence
import Coinage.Proofs.Supply
import Coinage.Proofs.Consistency
import Coinage.Proofs.Holdings
import Coinage.Proofs.Movement
import Coinage.Proofs.Reversal
import Coinage.Proofs.Renunciation
import Coinage.Proofs.Naming
import Coinage.Proofs.Respelling
import Coinage.Proofs.Session
import Coinage.Proofs.Isolation
import Coinage.Proofs.Locking
import Coinage.Proofs.Statement
import Coinage.Proofs.Storage
import Coinage.Proofs.Simulation
import Coinage.Proofs.Text.WellFormed
import Coinage.Proofs.Text.Utf8
import Coinage.Proofs.Text.Flaw
import Coinage.Proofs.Text.Encoding
import Coinage.Proofs.Wire.Varint
import Coinage.Proofs.Wire.Buffer
import Coinage.Proofs.Wire.StringField
import Coinage.Proofs.Wire.Payload
import Coinage.Proofs.Wire.Truncation
import Coinage.Proofs.Wire.Reply
import Coinage.Proofs.Form
import Coinage.Proofs.Form.Meaning
import Coinage.Proofs.Form.Message
import Coinage.Proofs.NormalForm
import Coinage.Proofs.Base64
import Coinage.Proofs.Refusal
import Coinage.Proofs.Server.Request
import Coinage.Proofs.Server.Run
import Coinage.Proofs.Server.Response
import Coinage.Proofs.Server.Fidelity
import Coinage.Proofs.Server.Totality
import Coinage.Proofs.Server.Effect
import Coinage.Proofs.Server.Survival
import Coinage.Proofs.Server.Sending
import Coinage.Proofs.Server.Balance
