import Scaffold.Main
import Scaffold.Proofs.Code.Grouping
import Scaffold.Proofs.Code.Unsupported
import Scaffold.Proofs.Tree.RoundTrip
import Scaffold.Proofs.Code.Lines
import Scaffold.Proofs.Code.Respelling
import Scaffold.Proofs.Code.Indentation
import Scaffold.Proofs.Code.Losses
import Scaffold.Proofs.Code.Formula
import Scaffold.Proofs.Code.Readability
import Scaffold.Proofs.Code.Brackets
import Scaffold.Proofs.Command.Agreement
import Scaffold.Proofs.Store.Chronicle
import Scaffold.Proofs.Tree.Indifference
import Scaffold.Proofs.Code.LoopHeader
import Scaffold.Proofs.Environment.Precedence
import Scaffold.Proofs.Tree.Diagnosis
import Scaffold.Proofs.Tree.FirstFault
import Scaffold.Proofs.Code.Lexemes
import Scaffold.Proofs.Text.StringLiteral
import Scaffold.Proofs.Code.Literals
import Scaffold.Proofs.Tree.Outline
import Scaffold.Proofs.Tree.Headings
import Scaffold.Proofs.Environment.Reload
import Scaffold.Proofs.Naming
import Scaffold.Proofs.Code.Functions
import Scaffold.Proofs.Store.Destinations
