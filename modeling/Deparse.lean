import Deparse.Literal.Body
import Deparse.Main
import Deparse.Proofs.Literal.RoundTrip
import Deparse.Proofs.Source.Grouping
import Deparse.Proofs.Source.InterpolatedString
import Deparse.Proofs.Source.Linear
import Deparse.Source.Session
import Deparse.Proofs.Source.Nesting
import Deparse.Proofs.Source.Session
import Deparse.Proofs.Source.Faults
import Deparse.Proofs.Tree.EveryNode
import Deparse.Proofs.Source.Convertible
import Deparse.Proofs.Source.Shape
import Deparse.Proofs.Source.Rewriting
import Deparse.Proofs.Source.Rendered
import Deparse.Proofs.Source.TakenApart
import Deparse.Proofs.Literal.Brackets
import Deparse.Proofs.Source.WellNested
import Deparse.Proofs.Document.FirstFault
import Deparse.Proofs.Json.QuotedText
import Deparse.Proofs.Json.Integer
import Deparse.Proofs.Json.ReadBack
import Deparse.Proofs.Json.Spellable
import Deparse.Proofs.Document.Reload
import Deparse.Proofs.Command.Modes
import Deparse.Proofs.Document.Canonical
import Deparse.Proofs.Literal.Scalar
import Deparse.Proofs.Source.Lines
import Deparse.Proofs.Tree.Outline
import Deparse.Proofs.Literal.Denotation
import Deparse.Proofs.Json.LongInteger
import Deparse.Proofs.Command.AllOrNothing
import Deparse.Proofs.Document.Tolerant
import Deparse.Proofs.Source.Joined
import Deparse.Proofs.Source.BlockParameters
import Deparse.Proofs.Literal.Concatenation
