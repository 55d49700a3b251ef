import MiniScheme.Machine.Description
import MiniScheme.Main
import MiniScheme.Proofs.Console.Cursor
import MiniScheme.Proofs.Console.Session
import MiniScheme.Proofs.Datum.Lines
import MiniScheme.Proofs.Datum.Misfit
import MiniScheme.Proofs.Datum.RoundTrip
import MiniScheme.Proofs.Eval.Agreement
import MiniScheme.Proofs.Eval.Application
import MiniScheme.Proofs.Eval.BindingForms
import MiniScheme.Proofs.Eval.Conditionals
import MiniScheme.Proofs.Eval.Congruence
import MiniScheme.Proofs.Eval.Construction
import MiniScheme.Proofs.Eval.Direct
import MiniScheme.Proofs.Eval.Equality
import MiniScheme.Proofs.Eval.Nearest
import MiniScheme.Proofs.Eval.Nesting
import MiniScheme.Proofs.Eval.Printed
import MiniScheme.Proofs.Eval.Reach
import MiniScheme.Proofs.Eval.Reflection
import MiniScheme.Proofs.Eval.Refused
import MiniScheme.Proofs.Eval.Template
import MiniScheme.Proofs.Report
