import SqlCast.Binary.Encoding
import SqlCast.Decimal.Checked
import SqlCast.Decimal.Column
import SqlCast.Floating.Checked
import SqlCast.Integer.Checked
import SqlCast.Integer.Radix
import SqlCast.Json.Decoding
import SqlCast.Json.Encoding
import SqlCast.Target
import SqlCast.Proofs.Text.Digit
import SqlCast.Proofs.Text.Mantissa
import SqlCast.Proofs.Text.Resuming
import SqlCast.Proofs.Text.Blank
import SqlCast.Proofs.Text.Literal
import SqlCast.Proofs.Text.Padding
import SqlCast.Proofs.Text.Token
import SqlCast.Proofs.Text.Trailing
import SqlCast.Proofs.Integer.Accumulation
import SqlCast.Proofs.Integer.Width
import SqlCast.Proofs.Integer.Reader
import SqlCast.Proofs.Integer.Saturation
import SqlCast.Proofs.Integer.Radix
import SqlCast.Proofs.Integer.BaseTen
import SqlCast.Proofs.Decimal.Fitting
import SqlCast.Proofs.Decimal.Magnitude
import SqlCast.Proofs.Decimal.Exponent
import SqlCast.Proofs.Decimal.Reading
import SqlCast.Proofs.Decimal.MissingMantissa
import SqlCast.Proofs.Decimal.Grammar
import SqlCast.Proofs.Decimal.Rendering
import SqlCast.Proofs.Decimal.Agreement
import SqlCast.Proofs.Decimal.Spelling
import SqlCast.Proofs.Decimal.Progress
import SqlCast.Proofs.Decimal.Checked
import SqlCast.Proofs.Floating.Reader
import SqlCast.Proofs.Floating.Grammar
import SqlCast.Proofs.Binary.Nearest
import SqlCast.Proofs.Binary.Exact
import SqlCast.Proofs.Binary.Range
import SqlCast.Proofs.Binary.Order
import SqlCast.Proofs.Binary.Accuracy
import SqlCast.Proofs.Binary.Whole
import SqlCast.Proofs.Binary.DoubleRounding
import SqlCast.Proofs.Floating.Accumulation
import SqlCast.Proofs.Floating.Short
import SqlCast.Proofs.Floating.Scientific
import SqlCast.Proofs.Floating.Kept
import SqlCast.Proofs.Floating.WholePart
import SqlCast.Proofs.Floating.Quotient
import SqlCast.Proofs.Floating.Accuracy
import SqlCast.Proofs.Floating.Order
import SqlCast.Proofs.Padding
import SqlCast.Proofs.Json.Quoted
import SqlCast.Proofs.Json.Number
import SqlCast.Proofs.Json.Decoding
import SqlCast.Proofs.Decimal.Overflow
import SqlCast.Proofs.Decimal.Underflow
import SqlCast.Proofs.Floating.Special
import SqlCast.Proofs.Floating.Exact
import SqlCast.Proofs.Floating.Vanishing
import SqlCast.Proofs.Floating.Overflow
import SqlCast.Proofs.Decimal.Canonical
import SqlCast.Proofs.Integer.Numeral
import SqlCast.Proofs.Integer.Recording
import SqlCast.Proofs.Integer.Checked
import SqlCast.Proofs.Floating.Checked
