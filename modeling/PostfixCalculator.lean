import PostfixCalculator.Engine.FixedWidth
import PostfixCalculator.Literal.Lemmas
import PostfixCalculator.Machine
import PostfixCalculator.Main
import PostfixCalculator.Proofs.Reduction.Simulation
import PostfixCalculator.Proofs.Session.LineBreaks
import PostfixCalculator.Proofs.Binary64.Nearest
import PostfixCalculator.Proofs.Binary64.Error
import PostfixCalculator.Proofs.Engine.Errors
import PostfixCalculator.Proofs.Reduction.Filter
import PostfixCalculator.Proofs.Reduction.Depth
import PostfixCalculator.Proofs.Session.Balance
import PostfixCalculator.Proofs.Engine.Agreement
import PostfixCalculator.Proofs.Reduction.Resumption
import PostfixCalculator.Proofs.Reduction.Locality
import PostfixCalculator.Proofs.Reduction.Conservation
import PostfixCalculator.Proofs.Session.Expression
import PostfixCalculator.Proofs.Session.Operators
import PostfixCalculator.Proofs.Session.Spelling
import PostfixCalculator.Proofs.Console.Lines
import PostfixCalculator.Proofs.Console.Stream
import PostfixCalculator.Proofs.Console.Terminal
import PostfixCalculator.Proofs.Literal.Grammar
import PostfixCalculator.Proofs.Literal.Shape
import PostfixCalculator.Proofs.Decimal.RoundTrip
import PostfixCalculator.Proofs.Engine.FixedWidth
import PostfixCalculator.Proofs.Engine.Precision
import PostfixCalculator.Proofs.CommandLine.Start
