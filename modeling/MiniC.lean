import MiniC.Cursor
import MiniC.Main
import MiniC.Proofs.Text.Division
import MiniC.Proofs.Lexical.RuleOrder
import MiniC.Proofs.Lexical.Laps
import MiniC.Proofs.Lexical.Reason
import MiniC.Proofs.Lexical.Partition
import MiniC.Proofs.Lexical.Respacing
import MiniC.Proofs.Lexical.Written
import MiniC.Proofs.Diagnostic.Excerpt
import MiniC.Proofs.Diagnostic.Caret
import MiniC.Proofs.Diagnostic.Dependence
import MiniC.Proofs.Outcome
import MiniC.Proofs.Diagnostic.Report
import MiniC.Proofs.Path
import MiniC.Proofs.Text.Boundary
import MiniC.Lexical.Reader
import MiniC.Proofs.Lexical.Cursor
import MiniC.Proofs.Lexical.Reader
