import Durian.Atomicity
import Durian.Concurrency
import Durian.Confinement
import Durian.Creation
import Durian.ElogPrice
import Durian.FailedQueries
import Durian.Failing
import Durian.Frame
import Durian.Funds
import Durian.Gasleft
import Durian.PanicDecoding
import Durian.Queries
import Durian.Reopen
import Durian.Safety
import Durian.Sparing
import Durian.Transparency
import Durian.Server.Codec
import Durian.Chain.Batch
import Durian.Chain.LocalSession
import Durian.Chain.Plain
import Durian.Chain.Replicas
import Durian.Chain.Spending
import Durian.Web3.Accounts
