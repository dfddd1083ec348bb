import BotSpec.Binary64.Extended
import BotSpec.Binary64.Nearest
import BotSpec.Binary64.Shortest
import BotSpec.Binary64.Text
import BotSpec.Binary64.Whole
import BotSpec.Catalogue.Canonical
import BotSpec.Catalogue.Encoding
import BotSpec.Catalogue.Indicator
import BotSpec.Catalogue.Schema
import BotSpec.Catalogue.Variant
import BotSpec.Command.Address
import BotSpec.Command.Arguments
import BotSpec.Command.Run
import BotSpec.Command.Words
import BotSpec.Decimal.Arithmetic
import BotSpec.Decimal.Basic
import BotSpec.Decimal.Text
import BotSpec.Digest.Sha256
import BotSpec.Environment.Assignment
import BotSpec.Environment.Lines
import BotSpec.Environment.Variables
import BotSpec.Indicator.Arith
import BotSpec.Indicator.Average
import BotSpec.Indicator.Band
import BotSpec.Indicator.Extremum
import BotSpec.Indicator.Oscillator
import BotSpec.Indicator.Trend
import BotSpec.Indicator.Volume
import BotSpec.Json.Basic
import BotSpec.Json.Printer
import BotSpec.Json.Reader
import BotSpec.Knowledge.Base
import BotSpec.Knowledge.Cell
import BotSpec.Knowledge.Numeral
import BotSpec.Knowledge.Ranking
import BotSpec.Knowledge.Record
import BotSpec.Knowledge.Row
import BotSpec.Knowledge.Stored
import BotSpec.Main
import BotSpec.Market.Candle
import BotSpec.Market.Price
import BotSpec.Market.Signal
import BotSpec.ParamSet.Basic
import BotSpec.ParamSet.Normalize
import BotSpec.Power
import BotSpec.Proofs.Binary64.Arithmetic
import BotSpec.Proofs.Binary64.Difference
import BotSpec.Proofs.Binary64.Magnitude
import BotSpec.Proofs.Binary64.Order
import BotSpec.Proofs.Binary64.Truncation
import BotSpec.Proofs.Binary64.Value
import BotSpec.Proofs.Binary64.Whole
import BotSpec.Proofs.Catalogue.Canonical
import BotSpec.Proofs.Catalogue.Resolution
import BotSpec.Proofs.Catalogue.Spelling
import BotSpec.Proofs.Command.Agreement
import BotSpec.Proofs.Decimal.Arithmetic
import BotSpec.Proofs.Decimal.Nearest
import BotSpec.Proofs.Decimal.Places
import BotSpec.Proofs.Decimal.Rounding
import BotSpec.Proofs.Decimal.Text
import BotSpec.Proofs.Decimal.Value
import BotSpec.Proofs.Indicator.Crossover
import BotSpec.Proofs.Indicator.Direction
import BotSpec.Proofs.Indicator.Divisors
import BotSpec.Proofs.Indicator.Exact
import BotSpec.Proofs.Indicator.Extremum
import BotSpec.Proofs.Indicator.Laws
import BotSpec.Proofs.Indicator.Placement
import BotSpec.Proofs.Indicator.Range
import BotSpec.Proofs.Indicator.Reset
import BotSpec.Proofs.Indicator.Stochastic
import BotSpec.Proofs.Indicator.Strength
import BotSpec.Proofs.Indicator.Vwap
import BotSpec.Proofs.Indicator.WilliamsR
import BotSpec.Proofs.Json.Bytes
import BotSpec.Proofs.Json.Members
import BotSpec.Proofs.Json.Reading
import BotSpec.Proofs.Json.Text
import BotSpec.Proofs.Knowledge.Columns
import BotSpec.Proofs.Knowledge.Ingestion
import BotSpec.Proofs.Knowledge.Numeral
import BotSpec.Proofs.Knowledge.Ranking
import BotSpec.Proofs.Knowledge.Reading
import BotSpec.Proofs.Knowledge.Run
import BotSpec.Proofs.Market.Candle
import BotSpec.Proofs.Market.Price
import BotSpec.Proofs.Outcome
import BotSpec.Proofs.ParamSet.Lookup
import BotSpec.Proofs.ParamSet.Nesting
import BotSpec.Proofs.ParamSet.Normalize
import BotSpec.Proofs.ParamSet.Shapes
import BotSpec.Proofs.Record.Codec
import BotSpec.Proofs.Record.Fields
import BotSpec.Proofs.Record.Payload
import BotSpec.Proofs.Record.Text
import BotSpec.Proofs.Report.CandleBuffer
import BotSpec.Proofs.Report.Figures
import BotSpec.Proofs.Report.Listing
import BotSpec.Proofs.Report.Parameters
import BotSpec.Proofs.Report.Rendering
import BotSpec.Proofs.Report.Sentence
import BotSpec.Proofs.Report.Table
import BotSpec.Proofs.Report.Warmup
import BotSpec.Proofs.Service.Tags
import BotSpec.Proofs.Strategy.Agreement
import BotSpec.Proofs.Strategy.Built
import BotSpec.Proofs.Strategy.Composition
import BotSpec.Proofs.Strategy.Crossing
import BotSpec.Proofs.Strategy.Decision
import BotSpec.Proofs.Strategy.Factory
import BotSpec.Proofs.Strategy.FirstVote
import BotSpec.Proofs.Strategy.Isolation
import BotSpec.Proofs.Strategy.PairQuote
import BotSpec.Proofs.Strategy.Period
import BotSpec.Proofs.Strategy.Pointwise
import BotSpec.Proofs.Strategy.QuoteLaws
import BotSpec.Proofs.Strategy.Readings
import BotSpec.Proofs.Strategy.Reset
import BotSpec.Proofs.Strategy.Run
import BotSpec.Proofs.Strategy.Sliding
import BotSpec.Proofs.Strategy.Warmup
import BotSpec.Proofs.Text.Listed
import BotSpec.Proofs.Trading.Fee
import BotSpec.Proofs.Trading.Kelly
import BotSpec.Proofs.Trading.Odds
import BotSpec.Proofs.Trading.Risk
import BotSpec.Record.Basic
import BotSpec.Record.Encoding
import BotSpec.Record.Reader
import BotSpec.Record.Scalar
import BotSpec.Report.Brief
import BotSpec.Report.Diagnostic
import BotSpec.Report.Document
import BotSpec.Report.Formula
import BotSpec.Report.Rendered
import BotSpec.Report.Sections
import BotSpec.Report.Table
import BotSpec.Rounding
import BotSpec.Service.Answer
import BotSpec.Service.Request
import BotSpec.Storage.Bytes
import BotSpec.Storage.Record
import BotSpec.Storage.Table
import BotSpec.Storage.Tree
import BotSpec.Strategy.Composition
import BotSpec.Strategy.Error
import BotSpec.Strategy.Evaluation
import BotSpec.Strategy.Factory
import BotSpec.Strategy.Generator
import BotSpec.Strategy.PairQuote
import BotSpec.Text.Blank
import BotSpec.Text.Fold
import BotSpec.Text.Number
import BotSpec.Text.Padding
import BotSpec.Text.Split
import BotSpec.Text.Utf8
import BotSpec.Trading.Fee
import BotSpec.Trading.Risk
import BotSpec.Trading.Sizing
