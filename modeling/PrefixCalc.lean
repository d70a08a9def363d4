import PrefixCalc.CommandLine.Folder
import PrefixCalc.Main
import PrefixCalc.Proofs.BadOperands
import PrefixCalc.Proofs.CommandLine.FrontEnds
import PrefixCalc.Proofs.Expression
import PrefixCalc.Proofs.Numeral.Indexed
import PrefixCalc.Proofs.ResultLayout
import PrefixCalc.Proofs.ResultLength
import PrefixCalc.Proofs.Rounding
import PrefixCalc.Proofs.Session.Colored
import PrefixCalc.Proofs.Session.Decoding
import PrefixCalc.Proofs.Session.Feedback
import PrefixCalc.Proofs.Session.Framing
import PrefixCalc.Proofs.Session.LimitedOutput
import PrefixCalc.Proofs.Session.Log
import PrefixCalc.Proofs.Session.Normalized
import PrefixCalc.Proofs.Session.Spaced
import PrefixCalc.Proofs.Tokens
