import NornRpc.Float.Rounding
import NornRpc.Float.PyFloat
import NornRpc.TokenBucket.Basic
import NornRpc.TokenBucket.Invariant
import NornRpc.TokenBucket.Ledger
import NornRpc.TokenBucket.Burst
import NornRpc.TokenBucket.Wait
import NornRpc.SlidingWindow.Basic
import NornRpc.SlidingWindow.Refinement
import NornRpc.PerMethod
import NornRpc.Adaptive
import NornRpc.Batch
import NornRpc.Backoff
import NornRpc.PyStr
import NornRpc.Contract
import NornRpc.Json
import NornRpc.Listener
import NornRpc.RpcClient
import NornRpc.TransactionSender
import NornRpc.HealthCheck
import NornRpc.BalanceChecker
