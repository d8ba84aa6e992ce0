import Qpep.Lib.Machine
import Qpep.Lib.Fifo
import Qpep.Lib.Hoare
import Qpep.Lib.Potential
import Qpep.Lib.Simulation
import Qpep.Lib.Answers
import Qpep.Lib.History
import Qpep.Lib.Pipe
import Qpep.Lib.Writes
import Qpep.Theorems.Header
import Qpep.Theorems.WireForm
import Qpep.Theorems.Gateway
import Qpep.Theorems.Dialling
import Qpep.Theorems.Session
import Qpep.Theorems.Sharing
import Qpep.Theorems.Serving
import Qpep.Theorems.Accepting
import Qpep.Theorems.Teardown
import Qpep.Theorems.HalfClose
import Qpep.Theorems.Returning
import Qpep.Theorems.EndToEnd
import Qpep.Theorems.Delivery
import Qpep.Theorems.Refinement
import Qpep.Theorems.MultiStream
import Qpep.Theorems.OneSession
import Qpep.Theorems.Resources
import Qpep.Theorems.Partition
import Qpep.Theorems.IperfOutput
import Qpep.Theorems.IperfSeries
import Qpep.Theorems.PageLoads
import Qpep.Theorems.LossFiling
import Qpep.Theorems.Recovery
import Qpep.Theorems.Flags
import Qpep.Theorems.Deployment
import Qpep.Theorems.Configurator
