import AtomicRules.Binary64.Basic
import AtomicRules.Binary64.Rounding
import AtomicRules.Binary64.Scaling
import AtomicRules.Binary64.Shortest
import AtomicRules.Css.Atom
import AtomicRules.Css.ClassName
import AtomicRules.Css.Key
import AtomicRules.Css.Keyframes
import AtomicRules.Css.Property
import AtomicRules.Css.Rule
import AtomicRules.Decimal
import AtomicRules.Entries
import AtomicRules.Journal
import AtomicRules.Json.Basic
import AtomicRules.Json.Numeral
import AtomicRules.Json.Reader
import AtomicRules.Ledger
import AtomicRules.Memo
import AtomicRules.PageMeta
import AtomicRules.Proofs.Agreement
import AtomicRules.Proofs.Answers
import AtomicRules.Proofs.ByteOrder
import AtomicRules.Proofs.Calls
import AtomicRules.Proofs.CamelCase
import AtomicRules.Proofs.ClassNumbers
import AtomicRules.Proofs.Distinct
import AtomicRules.Proofs.Duplicates
import AtomicRules.Proofs.EqualBlocks
import AtomicRules.Proofs.Hosting
import AtomicRules.Proofs.Insertion
import AtomicRules.Proofs.Integers
import AtomicRules.Proofs.Isolation
import AtomicRules.Proofs.Journaling
import AtomicRules.Proofs.Json.Acceptance
import AtomicRules.Proofs.Json.Coefficients
import AtomicRules.Proofs.Json.Documents
import AtomicRules.Proofs.Json.Drafts
import AtomicRules.Proofs.Json.Grammar
import AtomicRules.Proofs.Json.Numbers
import AtomicRules.Proofs.Json.Overflow
import AtomicRules.Proofs.Json.Strings
import AtomicRules.Proofs.LinesAndWords
import AtomicRules.Proofs.Lowering
import AtomicRules.Proofs.Minting
import AtomicRules.Proofs.NearestEven
import AtomicRules.Proofs.NumberTexts
import AtomicRules.Proofs.Numbering
import AtomicRules.Proofs.Numerals
import AtomicRules.Proofs.Offers
import AtomicRules.Proofs.Paths
import AtomicRules.Proofs.Pruning
import AtomicRules.Proofs.Reading
import AtomicRules.Proofs.Renumbering
import AtomicRules.Proofs.Rounding
import AtomicRules.Proofs.ShortestDecimals
import AtomicRules.Proofs.Spelling
import AtomicRules.Proofs.Stability
import AtomicRules.Proofs.Stages
import AtomicRules.Proofs.Takeover
import AtomicRules.Proofs.Walk
import AtomicRules.Request
import AtomicRules.Session
import AtomicRules.Settings
import AtomicRules.Shared
import AtomicRules.Sheet.Bounded
import AtomicRules.Sheet.Live
import AtomicRules.Sheet.Transcript
import AtomicRules.Style.Source
import AtomicRules.Style.Value
import AtomicRules.Text.CodePoints
import AtomicRules.Text.Lowercase
import AtomicRules.Text.Lowercase.Table
import AtomicRules.Text.Quoted
import AtomicRules.Text.Quoted.Table
import AtomicRules.Text.Radix
import AtomicRules.Text.WhiteSpace
