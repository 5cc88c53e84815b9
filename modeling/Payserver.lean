import Payserver.Basic
import Payserver.SelectInputs
import Payserver.CoinSelect
import Payserver.Convergence
import Payserver.Sync
import Payserver.Goroutines
import Payserver.Craft
import Payserver.Locking
import Payserver.Spending
import Payserver.DoubleSpend
import Payserver.Deadlock
import Payserver.Termination
import Payserver.Provenance
import Payserver.Liveness
import Payserver.Balance
import Payserver.Pscli
